import FastcgiContainer.Container
import FastcgiContainer.Ledger

/-! The tasks that the pools of the container have, in their queues and in their threads. -/

namespace FastcgiContainer

open Word (Bytes)

namespace Worker

variable {T : Type}

def tasks : Worker T → Multiset T
  | handling task => {task}
  | _ => 0

end Worker

namespace ThreadPool

variable {T : Type}

def tasks (pool : ThreadPool T) : Multiset T := ↑pool.tasksQueue + (pool.workers.map Worker.tasks).sum

theorem become_tasks (pool : ThreadPool T) (index : Nat) (old new : Worker T)
    (here : pool.workers[index]? = some old) : (pool.become index new).tasks + old.tasks = pool.tasks + new.tasks := by
  have moved := sum_set Worker.tasks pool.workers index old new here
  simp only [tasks, become]
  rw [add_assoc, moved, add_assoc]

theorem become_idle (pool : ThreadPool T) (index : Nat) (old new : Worker T)
    (here : pool.workers[index]? = some old) (before : old.tasks = 0) (after : new.tasks = 0) :
    (pool.become index new).tasks = pool.tasks := by
  have moved := pool.become_tasks index old new here
  rwa [before, after, add_zero, add_zero] at moved

theorem addTask_ok {pool next : ThreadPool T} {task : T} {copying : Except Exn Unit}
    (added : pool.addTask task copying = (next, .ok ())) :
    next.tasks = task ::ₘ pool.tasks ∧ next.workers = pool.workers ∧ next.info = pool.info ∧
      pool.info.started = true := by
  unfold addTask at added
  split at added
  · cases added
  · next started =>
      split at added
      · cases added
      · cases copying with
        | error exn => cases added
        | ok _ =>
            cases added
            refine ⟨?_, rfl, rfl, by simpa using started⟩
            simp only [tasks, ← Multiset.coe_add, Multiset.coe_singleton, ← Multiset.singleton_add]
            rw [add_right_comm, add_comm]

theorem dequeue_tasks (pool : ThreadPool T) (index : Nat) (old : Worker T) (copied : Bool)
    (here : pool.workers[index]? = some old) (idle : old.tasks = 0) : (pool.dequeue index copied).1.tasks = pool.tasks := by
  unfold dequeue
  split
  · exact pool.become_idle index old .returned here idle rfl
  · split
    · exact pool.become_idle index old .waiting here idle rfl
    · next task rest queue =>
        split
        · have moved := become_tasks { pool with
              tasksQueue := rest
              info := { pool.info with busyThreadsCounter := pool.info.busyThreadsCounter + 1 } }
            index old (.handling task) here
          rw [idle, add_zero] at moved
          rw [moved]
          simp only [tasks, queue, Worker.tasks, ← Multiset.cons_coe, ← Multiset.singleton_add]
          rw [add_comm, add_assoc]
        · exact pool.become_idle index old (.ready .none) here idle rfl

theorem acquire_tasks (pool : ThreadPool T) (index : Nat) (copied : Bool) :
    (pool.acquire index copied).1.tasks = pool.tasks := by
  unfold acquire
  split
  · next state here =>
      exact dequeue_tasks { pool with info := report pool.info state } index (.ready state) copied here rfl
  · next here => exact pool.dequeue_tasks index .waiting copied here rfl
  · rfl

theorem finish_tasks (pool : ThreadPool T) (index : Nat) (task : T) (returns : Bool)
    (here : pool.workers[index]? = some (.handling task)) : pool.tasks = task ::ₘ (pool.finish index returns).tasks := by
  have moved := pool.become_tasks index (.handling task) (.ready (if returns then .good else .bad)) here
  simp only [Worker.tasks, add_zero] at moved
  simp only [finish, here]
  rw [← moved, add_comm, Multiset.singleton_add]

end ThreadPool

namespace Container

variable {γ η φ : Type} (container : Container γ η φ)

def tasks : Multiset (Bytes × QueuedTask η φ) :=
  (container.pools.entries.map (fun entry => entry.2.1.tasks.map (Prod.mk entry.1))).sum

theorem tasks_assign (poolName : Bytes) (pool next : ThreadPool (QueuedTask η φ)) (settings : RequestsThreadPool)
    (found : container.pools.find? poolName = some (pool, settings)) :
    ({ container with pools := container.pools.assign poolName (next, settings) } : Container γ η φ).tasks +
        pool.tasks.map (Prod.mk poolName) = container.tasks + next.tasks.map (Prod.mk poolName) :=
  OrderedMap.sum_assign stringLess_exact (fun entry => entry.2.1.tasks.map (Prod.mk entry.1)) container.pools poolName
    (pool, settings) (next, settings) found

theorem updatePool_tasks (poolName : Bytes) (change : ThreadPool (QueuedTask η φ) → ThreadPool (QueuedTask η φ))
    (kept : ∀ pool, (change pool).tasks = pool.tasks) : (container.updatePool poolName change).tasks = container.tasks := by
  unfold updatePool
  split
  · rfl
  · next pool settings found =>
      have moved := container.tasks_assign poolName pool (change pool) settings found
      rw [kept] at moved
      exact add_right_cancel moved

@[simp] theorem updatePool_requests (poolName : Bytes)
    (change : ThreadPool (QueuedTask η φ) → ThreadPool (QueuedTask η φ)) :
    (container.updatePool poolName change).requests = container.requests := by
  unfold updatePool
  split <;> rfl

@[simp] theorem updatePool_dropped (poolName : Bytes)
    (change : ThreadPool (QueuedTask η φ) → ThreadPool (QueuedTask η φ)) :
    (container.updatePool poolName change).dropped = container.dropped := by
  unfold updatePool
  split <;> rfl

@[simp] theorem setConversation_tasks (request : Nat) (conversation : Conversation γ) :
    (container.setConversation request conversation).tasks = container.tasks := rfl

section Busy

def Busy (poolName : Bytes) (index : Nat) (task : QueuedTask η φ) : Prop :=
  ∃ pool settings, container.pools.find? poolName = some (pool, settings) ∧ pool.workers[index]? = some (.handling task)

variable {poolName : Bytes} {index : Nat} {task : QueuedTask η φ}

theorem Busy.finish (busy : container.Busy poolName index task) (returns : Bool) :
    container.tasks =
      (poolName, task) ::ₘ (container.updatePool poolName (fun pool => pool.finish index returns)).tasks := by
  obtain ⟨pool, settings, found, here⟩ := busy
  have moved := container.tasks_assign poolName pool (pool.finish index returns) settings found
  rw [pool.finish_tasks index task returns here, Multiset.map_cons, ← Multiset.singleton_add, ← add_assoc] at moved
  simp only [updatePool, found]
  rw [← Multiset.singleton_add, add_comm]
  exact (add_right_cancel moved).symm

theorem taskAt_busy {settings : RequestsThreadPool} {conversation : Conversation γ}
    (here : container.taskAt poolName index = some (settings, task, conversation)) :
    container.Busy poolName index task ∧ container.requests[task.request]? = some conversation := by
  simp only [taskAt, Option.bind_eq_bind, Option.bind_eq_some_iff] at here
  obtain ⟨⟨pool, otherSettings⟩, found, here⟩ := here
  dsimp only at here
  split at here
  · next other working =>
      obtain ⟨_, present, here⟩ := Option.bind_eq_some_iff.mp here
      cases here
      exact ⟨⟨pool, _, found, working⟩, present⟩
  · cases here

end Busy

section Accept

variable {poolName : Bytes} {pool next : ThreadPool (QueuedTask η φ)} {settings : RequestsThreadPool}
  {task : QueuedTask η φ} {copying : Except Exn Unit} (found : container.pools.find? poolName = some (pool, settings))
  (added : pool.addTask task copying = (next, .ok ()))

include found added

theorem addTask_tasks :
    ({ container with pools := container.pools.assign poolName (next, settings) } : Container γ η φ).tasks =
      (poolName, task) ::ₘ container.tasks := by
  have moved := container.tasks_assign poolName pool next settings found
  rw [(ThreadPool.addTask_ok added).1, Multiset.map_cons, ← Multiset.singleton_add, ← add_assoc] at moved
  rw [← Multiset.singleton_add, add_comm]
  exact add_right_cancel moved

theorem addTask_busy {other : Bytes} {index : Nat} {busy : QueuedTask η φ} (works : container.Busy other index busy) :
    ({ container with pools := container.pools.assign poolName (next, settings) } : Container γ η φ).Busy other index
      busy := by
  obtain ⟨before, beforeSettings, present, here⟩ := works
  unfold Busy
  simp only [OrderedMap.find?_assign stringLess_exact]
  by_cases same : poolName = other
  · subst same
    rw [found] at present
    cases present
    refine ⟨next, settings, if_pos rfl, ?_⟩
    rw [(ThreadPool.addTask_ok added).2.1]
    exact here
  · exact ⟨before, beforeSettings, (if_neg same).trans present, here⟩

end Accept

end Container

end FastcgiContainer
