import FastcgiContainer.Ledger
import FastcgiContainer.ThreadPool

/-! The condition variable of a `ThreadPool`. A client notifies it after it has let go of the
lock, so other threads may come in between. -/

namespace FastcgiContainer

namespace Worker

variable {T : Type}

def waits : Worker T → Bool
  | waiting => true
  | _ => false

def looks : Worker T → Bool
  | ready _ => true
  | _ => false

end Worker

/-- A pool with its condition: the threads that were notified and do not have the lock yet,
and the number of clients that are yet to call `notify_one`. -/
structure Monitor (T : Type) where
  pool : ThreadPool T
  woken : List Nat
  pending : Nat

namespace Monitor

variable {T : Type}

def create (threadsNumber queueLength : Nat) : Monitor T := ⟨ThreadPool.create threadsNumber queueLength, [], 0⟩

def waitsAt (pool : ThreadPool T) (index : Nat) : Bool := pool.workers[index]?.any Worker.waits

/-- A thread that waits on the condition and was not notified. -/
def sleeps (monitor : Monitor T) (index : Nat) : Bool :=
  waitsAt monitor.pool index && !monitor.woken.contains index

inductive Action (T : Type) where
  | start (failing : Option Nat)
  | stop
  | addTask (task : T) (copying : Except Exn Unit)
  | notify (chosen : Option Nat)
  | acquire (index : Nat) (copied : Bool)
  | finish (index : Nat) (returns : Bool)

/-- `notify_one` wakes one of the threads that sleep, if there are any; `addTask` calls it also
when it throws. A thread may get the lock without a notification. -/
def step (monitor : Monitor T) : Action T → Option (Monitor T)
  | .start failing => some { monitor with pool := monitor.pool.start failing }
  | .stop =>
      some { monitor with
        pool := monitor.pool.stop
        woken := (List.range monitor.pool.workers.length).filter (waitsAt monitor.pool) }
  | .addTask task copying =>
      some { monitor with pool := (monitor.pool.addTask task copying).1, pending := monitor.pending + 1 }
  | .notify chosen =>
      if monitor.pending = 0 then none
      else
        match chosen with
        | some index =>
            if monitor.sleeps index then
              some { monitor with woken := index :: monitor.woken, pending := monitor.pending - 1 }
            else none
        | none =>
            if (List.range monitor.pool.workers.length).any monitor.sleeps then none
            else some { monitor with pending := monitor.pending - 1 }
  | .acquire index copied =>
      some { monitor with
        pool := (monitor.pool.acquire index copied).1
        woken := monitor.woken.erase index }
  | .finish index returns => some { monitor with pool := monitor.pool.finish index returns }

def run (monitor : Monitor T) (actions : List (Action T)) : Option (Monitor T) := actions.foldlM step monitor

def Action.pool : Action T → List (ThreadPool.Action T)
  | .start failing => [.start failing]
  | .stop => [.stop]
  | .addTask task copying => [.addTask task copying]
  | .notify _ => []
  | .acquire index copied => [.acquire index copied]
  | .finish index returns => [.finish index returns]

/-- The threads that sleep are too few to matter: there are as many notifications under way and
threads awake as there are tasks. -/
structure Inv (monitor : Monitor T) : Prop where
  waiting : ∀ index ∈ monitor.woken, waitsAt monitor.pool index = true
  once : monitor.woken.Nodup
  served : ∀ index, monitor.sleeps index = true → monitor.pool.tasksQueue.length ≤
    monitor.pending + monitor.woken.length + monitor.pool.workers.countP Worker.looks
  stopped : monitor.pool.info.started = false → ∀ index, monitor.sleeps index = false

theorem create_inv (threadsNumber queueLength : Nat) : Inv (create threadsNumber queueLength : Monitor T) := by
  have nobody : ∀ index, (create threadsNumber queueLength : Monitor T).sleeps index = false := by
    intro index
    simp [sleeps, waitsAt, create, ThreadPool.create]
  refine ⟨nofun, List.nodup_nil, fun index asleep => ?_, fun _ => nobody⟩
  rw [nobody index] at asleep
  cases asleep

theorem waitsAt_become (pool : ThreadPool T) (index query : Nat) (old new : Worker T)
    (here : pool.workers[index]? = some old) :
    waitsAt (pool.become index new) query = if query = index then new.waits else waitsAt pool query := by
  obtain ⟨inside, -⟩ := List.getElem?_eq_some_iff.mp here
  by_cases same : query = index
  · subst same
    simp [waitsAt, ThreadPool.become, inside]
  · simp [waitsAt, ThreadPool.become, List.getElem?_set_ne (Ne.symm same), same]

section Move

variable {monitor : Monitor T} (inv : monitor.Inv) {index : Nat} {old : Worker T}
  (here : monitor.pool.workers[index]? = some old)

include inv here

theorem Inv.not_woken (awake : old.waits = false) : index ∉ monitor.woken := by
  intro member
  have waits := inv.waiting index member
  simp [waitsAt, here, awake] at waits

/-- A thread that has the lock takes up at most one task, and it was about to look for one or
was notified; it goes to sleep only if there is none. -/
theorem Inv.move (pool : ThreadPool T) (new : Worker T) (workers : pool.workers = monitor.pool.workers)
    (started : pool.info.started = monitor.pool.info.started)
    (sleepy : new.waits = true → pool.tasksQueue = [] ∧ monitor.pool.info.started = true)
    (fair : monitor.pool.info.started = true → pool.tasksQueue ≠ [] →
      pool.tasksQueue.length + old.looks.toNat + (if index ∈ monitor.woken then 1 else 0) ≤
        monitor.pool.tasksQueue.length + new.looks.toNat) :
    Inv { monitor with pool := pool.become index new, woken := monitor.woken.erase index } := by
  have present : pool.workers[index]? = some old := by rw [workers]; exact here
  have erased : index ∉ monitor.woken.erase index := inv.once.not_mem_erase
  have others : ∀ query, query ≠ index →
      sleeps { monitor with pool := pool.become index new, woken := monitor.woken.erase index } query =
        monitor.sleeps query := by
    intro query other
    have inside : query ∈ monitor.woken.erase index ↔ query ∈ monitor.woken :=
      List.mem_erase_of_ne other
    have same : waitsAt pool query = waitsAt monitor.pool query := by simp only [waitsAt, workers]
    simp only [sleeps, waitsAt_become pool index query old new present, if_neg other, same, List.contains_eq_mem, inside]
  have mine : sleeps { monitor with pool := pool.become index new, woken := monitor.woken.erase index } index =
      new.waits := by
    simp [sleeps, waitsAt_become pool index index old new present, erased]
  refine ⟨?_, inv.once.erase index, ?_, ?_⟩
  · intro query member
    have other : query ≠ index := fun same => erased (same ▸ member)
    have same : waitsAt pool query = waitsAt monitor.pool query := by simp only [waitsAt, workers]
    rw [waitsAt_become pool index query old new present, if_neg other, same]
    exact inv.waiting query (List.mem_of_mem_erase member)
  · intro query asleep
    have counted := countP_set Worker.looks pool.workers index old new present
    by_cases same : query = index
    · subst same
      rw [mine] at asleep
      simp [ThreadPool.become, (sleepy asleep).1]
    · rw [others query same] at asleep
      have enough := inv.served query asleep
      have length := List.length_erase (a := index) (l := monitor.woken)
      simp only [ThreadPool.become, workers] at counted ⊢
      by_cases none : pool.tasksQueue = []
      · simp [none]
      have running : monitor.pool.info.started = true := by
        by_contra ended
        rw [inv.stopped (by simpa using ended) query] at asleep
        cases asleep
      have fair := fair running none
      by_cases member : index ∈ monitor.woken
      · have positive := List.length_pos_of_mem member
        simp only [member, if_true] at fair length
        omega
      · simp only [member, if_false] at fair length
        omega
  · intro ended query
    have before := inv.stopped (started.symm.trans ended)
    by_cases same : query = index
    · subst same
      rw [mine]
      by_contra asleep
      rw [Bool.not_eq_false] at asleep
      have running := started.trans (sleepy asleep).2
      cases running.symm.trans ended
    · rw [others query same]
      exact before query

theorem Inv.dequeue (pool : ThreadPool T) (copied : Bool) (workers : pool.workers = monitor.pool.workers)
    (started : pool.info.started = monitor.pool.info.started) (queue : pool.tasksQueue = monitor.pool.tasksQueue)
    (ours : old.looks.toNat + (if index ∈ monitor.woken then 1 else 0) ≤ 1) :
    Inv { monitor with pool := (pool.dequeue index copied).1, woken := monitor.woken.erase index } := by
  unfold ThreadPool.dequeue
  split
  · next ended =>
      refine inv.move here pool _ workers started nofun (fun running _ => ?_)
      rw [started, running] at ended
      cases ended
  · next running =>
      split
      · next none =>
          refine inv.move here pool _ workers started (fun _ => ⟨none, ?_⟩) (fun _ some => absurd none some)
          rw [← started]
          simpa using running
      · next task rest split =>
          rw [split] at queue
          have length := congrArg List.length queue
          rw [List.length_cons] at length
          split
          · refine inv.move here { pool with
                tasksQueue := rest
                info := { pool.info with busyThreadsCounter := pool.info.busyThreadsCounter + 1 } }
              (.handling task) workers started nofun (fun _ _ => ?_)
            have idle : (Worker.handling task).looks.toNat = 0 := rfl
            rw [idle]
            dsimp only
            omega
          · refine inv.move here pool (.ready .none) workers started nofun (fun _ _ => ?_)
            have again : (Worker.ready .none : Worker T).looks.toNat = 1 := rfl
            rw [again, split, List.length_cons]
            omega

end Move

theorem Inv.acquire {monitor : Monitor T} (inv : monitor.Inv) (index : Nat) (copied : Bool) :
    Inv { monitor with pool := (monitor.pool.acquire index copied).1, woken := monitor.woken.erase index } := by
  unfold ThreadPool.acquire
  split
  · next state here =>
      have fresh := inv.not_woken here rfl
      have started : (ThreadPool.report monitor.pool.info state).started = monitor.pool.info.started := by
        cases state <;> rfl
      exact inv.dequeue here { monitor.pool with info := ThreadPool.report monitor.pool.info state } copied rfl
        started rfl (by simp [fresh, Worker.looks])
  · next here =>
      refine inv.dequeue here monitor.pool copied rfl rfl rfl ?_
      simp only [Worker.looks, Bool.toNat_false, Nat.zero_add]
      split <;> omega
  · next ready waiting =>
      have fresh : index ∉ monitor.woken := by
        intro member
        have waits := inv.waiting index member
        simp only [waitsAt, Option.any_eq_true] at waits
        obtain ⟨worker, here, waits⟩ := waits
        cases worker with
        | waiting => exact waiting here
        | ready state => cases waits
        | handling task => cases waits
        | returned => cases waits
      rw [List.erase_of_not_mem fresh]
      exact inv

theorem Inv.finish {monitor : Monitor T} (inv : monitor.Inv) (index : Nat) (returns : Bool) :
    Inv { monitor with pool := monitor.pool.finish index returns } := by
  unfold ThreadPool.finish
  split
  · next task here =>
      have fresh := inv.not_woken here rfl
      have moved := inv.move here monitor.pool (.ready (if returns then .good else .bad)) rfl rfl nofun
        (fun _ _ => by simp [fresh, Worker.looks])
      rw [List.erase_of_not_mem fresh] at moved
      exact moved
  · exact inv

theorem Inv.start {monitor : Monitor T} (inv : monitor.Inv) (failing : Option Nat) :
    Inv { monitor with pool := monitor.pool.start failing } := by
  have joined : ∀ (info : ThreadPoolInfo) (number : Nat),
      (monitor.pool.info.started = false → Inv { monitor with pool := { monitor.pool with
        info, workers := monitor.pool.workers ++ List.replicate number (.ready .none) } }) := by
    intro info number idle
    have same : ∀ query, waitsAt { monitor.pool with
        info, workers := monitor.pool.workers ++ List.replicate number (.ready .none) } query =
          waitsAt monitor.pool query := by
      intro query
      simp only [waitsAt]
      by_cases inside : query < monitor.pool.workers.length
      · rw [List.getElem?_append_left inside]
      · rw [List.getElem?_append_right (Nat.le_of_not_lt inside), List.getElem?_eq_none (Nat.le_of_not_lt inside),
          List.getElem?_replicate]
        split <;> rfl
    have nobody : ∀ query, sleeps { monitor with pool := { monitor.pool with
        info, workers := monitor.pool.workers ++ List.replicate number (.ready .none) } } query = false := by
      intro query
      have before := inv.stopped idle query
      simp only [sleeps, same] at before ⊢
      exact before
    refine ⟨fun query member => (same query).trans (inv.waiting query member), inv.once, ?_, fun _ => nobody⟩
    intro query asleep
    rw [nobody query] at asleep
    cases asleep
  unfold ThreadPool.start
  split
  · exact inv
  · next idle =>
      have idle : monitor.pool.info.started = false := by simpa using idle
      split
      · next made _ => exact joined monitor.pool.info made idle
      · exact joined { monitor.pool.info with started := true } monitor.pool.info.threadsNumber idle

/-- `notify_all` wakes every thread that waits. -/
theorem Inv.stop {monitor : Monitor T} : Inv { monitor with
    pool := monitor.pool.stop
    woken := (List.range monitor.pool.workers.length).filter (waitsAt monitor.pool) } := by
  have nobody : ∀ query, sleeps { monitor with
      pool := monitor.pool.stop
      woken := (List.range monitor.pool.workers.length).filter (waitsAt monitor.pool) } query = false := by
    intro query
    by_contra asleep
    rw [Bool.not_eq_false, sleeps, Bool.and_eq_true, Bool.not_eq_true'] at asleep
    obtain ⟨waits, missing⟩ := asleep
    have waits : waitsAt monitor.pool query = true := waits
    have inside : query < monitor.pool.workers.length := by
      by_contra outside
      simp [waitsAt, List.getElem?_eq_none (Nat.le_of_not_lt outside)] at waits
    have member : query ∈ (List.range monitor.pool.workers.length).filter (waitsAt monitor.pool) :=
      List.mem_filter.mpr ⟨List.mem_range.mpr inside, waits⟩
    simp [member] at missing
  refine ⟨fun query member => (List.mem_filter.mp member).2, List.nodup_range.filter _, ?_, fun _ => nobody⟩
  intro query asleep
  rw [nobody query] at asleep
  cases asleep

theorem Inv.addTask {monitor : Monitor T} (inv : monitor.Inv) (task : T) (copying : Except Exn Unit) :
    Inv { monitor with pool := (monitor.pool.addTask task copying).1, pending := monitor.pending + 1 } := by
  have kept : (monitor.pool.addTask task copying).1.workers = monitor.pool.workers ∧
      (monitor.pool.addTask task copying).1.info = monitor.pool.info ∧
      (monitor.pool.addTask task copying).1.tasksQueue.length ≤ monitor.pool.tasksQueue.length + 1 := by
    unfold ThreadPool.addTask
    split
    · exact ⟨rfl, rfl, Nat.le_succ _⟩
    · split
      · exact ⟨rfl, rfl, Nat.le_succ _⟩
      · cases copying with
        | error exn => exact ⟨rfl, rfl, Nat.le_succ _⟩
        | ok _ => exact ⟨rfl, rfl, by simp⟩
  obtain ⟨workers, info, length⟩ := kept
  have same : ∀ query, waitsAt (monitor.pool.addTask task copying).1 query = waitsAt monitor.pool query := by
    intro query
    simp only [waitsAt, workers]
  refine ⟨fun query member => (same query).trans (inv.waiting query member), inv.once, ?_, ?_⟩
  · intro query asleep
    simp only [sleeps, same] at asleep
    have enough := inv.served query asleep
    simp only [workers]
    omega
  · intro idle query
    simp only [sleeps, same]
    exact inv.stopped (info ▸ idle) query

theorem Inv.notify {monitor next : Monitor T} (inv : monitor.Inv) (chosen : Option Nat)
    (done : monitor.step (.notify chosen) = some next) : next.Inv := by
  simp only [step] at done
  split at done
  · cases done
  · next positive =>
      split at done
      · next index =>
          split at done
          · next asleep =>
              cases done
              rw [sleeps, Bool.and_eq_true, Bool.not_eq_true'] at asleep
              obtain ⟨waits, fresh⟩ := asleep
              have fresh : index ∉ monitor.woken := by simpa using fresh
              have fewer : ∀ query, sleeps ⟨monitor.pool, index :: monitor.woken, monitor.pending - 1⟩ query = true →
                  monitor.sleeps query = true := by
                intro query still
                simp only [sleeps, List.contains_cons, Bool.and_eq_true, Bool.not_eq_true', Bool.or_eq_false_iff] at still ⊢
                exact ⟨still.1, still.2.2⟩
              refine ⟨?_, List.nodup_cons.mpr ⟨fresh, inv.once⟩, ?_, ?_⟩
              · intro query member
                rcases List.mem_cons.mp member with rfl | member
                · exact waits
                · exact inv.waiting query member
              · intro query still
                have enough := inv.served query (fewer query still)
                simp only [List.length_cons]
                omega
              · intro idle query
                by_contra still
                rw [Bool.not_eq_false] at still
                exact absurd (fewer query still) (by simp [inv.stopped idle query])
          · cases done
      · split at done
        · cases done
        · next none =>
            cases done
            have nobody : ∀ query, monitor.sleeps query = false := by
              intro query
              by_contra asleep
              rw [Bool.not_eq_false] at asleep
              refine none (List.any_eq_true.mpr ⟨query, List.mem_range.mpr ?_, asleep⟩)
              rw [sleeps, Bool.and_eq_true] at asleep
              by_contra outside
              simp [waitsAt, List.getElem?_eq_none (Nat.le_of_not_lt outside)] at asleep
            refine ⟨inv.waiting, inv.once, ?_, inv.stopped⟩
            intro query asleep
            rw [show sleeps ⟨monitor.pool, monitor.woken, monitor.pending - 1⟩ query = monitor.sleeps query from rfl,
              nobody query] at asleep
            cases asleep

theorem Inv.step {monitor next : Monitor T} (inv : monitor.Inv) (action : Action T)
    (done : monitor.step action = some next) : next.Inv := by
  cases action with
  | start failing =>
      cases done
      exact inv.start failing
  | stop =>
      cases done
      exact .stop
  | addTask task copying =>
      cases done
      exact inv.addTask task copying
  | notify chosen => exact inv.notify chosen done
  | acquire index copied =>
      cases done
      exact inv.acquire index copied
  | finish index returns =>
      cases done
      exact inv.finish index returns

theorem step_history (history : ThreadPool.History T) (monitor next : Monitor T) (action : Action T)
    (same : history.pool = monitor.pool) (done : monitor.step action = some next) :
    (history.run action.pool).pool = next.pool := by
  cases action with
  | start failing =>
      cases done
      exact congrArg (fun pool => pool.start failing) same
  | stop =>
      cases done
      exact congrArg ThreadPool.stop same
  | addTask task copying =>
      cases done
      simp only [Action.pool, ThreadPool.History.run, List.foldl_cons, List.foldl_nil, ThreadPool.History.step, same]
      split
      · next added => rw [added]
      · next added => rw [added]
  | notify chosen =>
      simp only [Monitor.step] at done
      split at done
      · cases done
      · split at done
        · split at done
          · cases done
            exact same
          · cases done
        · split at done
          · cases done
          · cases done
            exact same
  | acquire index copied =>
      cases done
      exact congrArg (fun pool => (ThreadPool.acquire pool index copied).1) same
  | finish index returns =>
      cases done
      exact congrArg (fun pool => pool.finish index returns) same

theorem run_history (history : ThreadPool.History T) (monitor last : Monitor T) (actions : List (Action T))
    (inv : monitor.Inv) (same : history.pool = monitor.pool) (ran : monitor.run actions = some last) :
    last.Inv ∧ (history.run (actions.flatMap Action.pool)).pool = last.pool := by
  induction actions generalizing history monitor with
  | nil =>
      cases ran
      exact ⟨inv, same⟩
  | cons action rest ih =>
      rw [run, List.foldlM_cons] at ran
      obtain ⟨next, stepped, later⟩ := Option.bind_eq_some_iff.mp ran
      have again := ih (history.run action.pool) next (inv.step action stepped)
        (step_history history monitor next action same stepped) later
      simpa [ThreadPool.History.run] using again

/-- No wakeup is lost: whenever a thread sleeps, at least as many notifications are under way,
and threads awake that look for a task, as there are tasks in the queue. In a pool that was
stopped nobody sleeps. The pool itself goes through its own steps. -/
theorem no_wakeup_is_lost (threadsNumber queueLength : Nat) (actions : List (Action T)) (monitor : Monitor T)
    (ran : (create threadsNumber queueLength).run actions = some monitor) :
    (∀ index, monitor.sleeps index = true → monitor.pool.tasksQueue.length ≤
      monitor.pending + monitor.woken.length + monitor.pool.workers.countP Worker.looks) ∧
    (monitor.pool.info.started = false → ∀ index, monitor.sleeps index = false) ∧
    monitor.pool = ((ThreadPool.History.create threadsNumber queueLength).run (actions.flatMap Action.pool)).pool := by
  obtain ⟨inv, same⟩ := run_history (ThreadPool.History.create threadsNumber queueLength)
    (create threadsNumber queueLength) monitor actions (create_inv threadsNumber queueLength) rfl ran
  exact ⟨inv.served, inv.stopped, same.symm⟩

/-- Two tasks come while both threads sleep, and one of the threads is notified. -/
theorem no_wakeup_is_lost_sample : ∃ monitor : Monitor Nat,
    (create 2 5).run [.start none, .acquire 0 true, .acquire 1 true, .addTask 7 (.ok ()), .addTask 8 (.ok ()),
      .notify (some 1)] = some monitor ∧ monitor.sleeps 0 = true ∧ monitor.pool.tasksQueue = [7, 8] ∧
      2 ≤ monitor.pending + monitor.woken.length + monitor.pool.workers.countP Worker.looks := by
  refine ⟨_, rfl, rfl, rfl, ?_⟩
  exact (no_wakeup_is_lost 2 5 [.start none, .acquire 0 true, .acquire 1 true, .addTask 7 (.ok ()),
    .addTask 8 (.ok ()), .notify (some 1)] _ rfl).1 0 rfl

end Monitor

end FastcgiContainer
