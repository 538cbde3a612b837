import FastcgiContainer.StringBuffer

/-! `ThreadPool`: a bounded queue of tasks and the threads that work on it. All that
happens under the lock is one step. The counters of the source have 64 bits; here
they do not wrap. -/

namespace FastcgiContainer

/-- The counters have 64 bits in the pool, which is enough for fewer than `2 ^ 64` tasks: `Inv.counters_fit`. -/
structure ThreadPoolInfo where
  started : Bool
  threadsNumber : Nat
  queueLength : Nat
  busyThreadsCounter : Nat
  currentQueue : Nat
  goodTasksCounter : Nat
  badTasksCounter : Nat
  deriving DecidableEq, Repr

/-- The variable `state` of `workMethod`: what is to be reported of the last task. -/
inductive WorkState where
  | none
  | good
  | bad
  deriving DecidableEq, Repr

/-- Where a thread is in `workMethod`: before the lock, on the condition, in `handleTask`,
or behind its end. -/
inductive Worker (T : Type) where
  | ready (state : WorkState)
  | waiting
  | handling (task : T)
  | returned
  deriving DecidableEq, Repr

structure ThreadPool (T : Type) where
  info : ThreadPoolInfo
  tasksQueue : List T
  workers : List (Worker T)

namespace Worker

variable {T : Type}

/-- The threads that are counted as busy: they have a task, or were not asked for
the outcome of the last one. -/
def busy : Worker T → Bool
  | handling _ => true
  | ready .good => true
  | ready .bad => true
  | _ => false

end Worker

namespace ThreadPool

variable {T : Type}

def create (threadsNumber queueLength : Nat) : ThreadPool T :=
  ⟨⟨false, threadsNumber, queueLength, 0, 0, 0, 0⟩, [], []⟩

/-- `failing` is the number of the thread that could not be made, if there is one. -/
def start (pool : ThreadPool T) (failing : Option Nat) : ThreadPool T :=
  if pool.info.started then pool
  else
    match failing.filter (fun made => made < pool.info.threadsNumber) with
    | some made => { pool with workers := pool.workers ++ List.replicate made (.ready .none) }
    | none =>
        { pool with
          workers := pool.workers ++ List.replicate pool.info.threadsNumber (.ready .none)
          info := { pool.info with started := true } }

def stop (pool : ThreadPool T) : ThreadPool T := { pool with info := { pool.info with started := false } }

/-- `copying` is the outcome of copying the task into the queue. -/
def addTask (pool : ThreadPool T) (task : T) (copying : Except Exn Unit) :
    ThreadPool T × Except Exn Unit :=
  if !pool.info.started then (pool, .error (.runtimeError "Thread pool is not started yet"))
  else if pool.tasksQueue.length ≥ pool.info.queueLength then
    (pool, .error (.runtimeError ("Pool::handle: the queue has already reached its maximum size of " ++
      toString pool.info.queueLength ++ " elements")))
  else
    match copying with
    | .error exn => (pool, .error exn)
    | .ok () => ({ pool with tasksQueue := pool.tasksQueue ++ [task] }, .ok ())

def getInfo (pool : ThreadPool T) : ThreadPool T × ThreadPoolInfo :=
  let info := { pool.info with currentQueue := pool.tasksQueue.length }
  ({ pool with info }, info)

def report (info : ThreadPoolInfo) : WorkState → ThreadPoolInfo
  | .none => info
  | .good =>
      { info with
        goodTasksCounter := info.goodTasksCounter + 1
        busyThreadsCounter := info.busyThreadsCounter - 1 }
  | .bad =>
      { info with
        badTasksCounter := info.badTasksCounter + 1
        busyThreadsCounter := info.busyThreadsCounter - 1 }

def become (pool : ThreadPool T) (index : Nat) (worker : Worker T) : ThreadPool T :=
  { pool with workers := pool.workers.set index worker }

/-- What a thread does under the lock when it looks for a task. The task is copied
before it leaves the queue; if that fails, it stays there. -/
def dequeue (pool : ThreadPool T) (index : Nat) (copied : Bool) : ThreadPool T × Option T :=
  if !pool.info.started then (pool.become index .returned, none)
  else
    match pool.tasksQueue with
    | [] => (pool.become index .waiting, none)
    | task :: rest =>
        if copied then
          ({ pool with
              tasksQueue := rest
              info := { pool.info with busyThreadsCounter := pool.info.busyThreadsCounter + 1 }
            }.become index (.handling task), some task)
        else (pool.become index (.ready .none), none)

/-- A thread gets the lock, from outside or from its wait on the condition. -/
def acquire (pool : ThreadPool T) (index : Nat) (copied : Bool) : ThreadPool T × Option T :=
  match pool.workers[index]? with
  | some (.ready state) => { pool with info := report pool.info state }.dequeue index copied
  | some .waiting => pool.dequeue index copied
  | _ => (pool, none)

def finish (pool : ThreadPool T) (index : Nat) (returns : Bool) : ThreadPool T :=
  match pool.workers[index]? with
  | some (.handling _) => pool.become index (.ready (if returns then .good else .bad))
  | _ => pool

inductive Action (T : Type) where
  | start (failing : Option Nat)
  | stop
  | addTask (task : T) (copying : Except Exn Unit)
  | getInfo
  | acquire (index : Nat) (copied : Bool)
  | finish (index : Nat) (returns : Bool)

/-- A pool with its past: the tasks that were accepted, and those that threads took,
in the order of these events. -/
structure History (T : Type) where
  pool : ThreadPool T
  accepted : List T
  dequeued : List T

namespace History

def create (threadsNumber queueLength : Nat) : History T :=
  ⟨ThreadPool.create threadsNumber queueLength, [], []⟩

def step (history : History T) : Action T → History T
  | .start failing => { history with pool := history.pool.start failing }
  | .stop => { history with pool := history.pool.stop }
  | .addTask task copying =>
      match history.pool.addTask task copying with
      | (pool, .ok ()) => { history with pool, accepted := history.accepted ++ [task] }
      | (pool, .error _) => { history with pool }
  | .getInfo => { history with pool := history.pool.getInfo.1 }
  | .acquire index copied =>
      let (pool, task) := history.pool.acquire index copied
      { history with pool, dequeued := history.dequeued ++ task.toList }
  | .finish index returns => { history with pool := history.pool.finish index returns }

def run (history : History T) (actions : List (Action T)) : History T := actions.foldl step history

/-- Every accepted task was taken or is queued, in order; every task that was taken
belongs to a busy thread or was counted. -/
structure Inv (queueLength : Nat) (history : History T) : Prop where
  limit : history.pool.info.queueLength = queueLength
  bound : history.pool.tasksQueue.length ≤ queueLength
  order : history.accepted = history.dequeued ++ history.pool.tasksQueue
  busy : history.pool.info.busyThreadsCounter = history.pool.workers.countP Worker.busy
  counted : history.dequeued.length = history.pool.info.busyThreadsCounter +
    history.pool.info.goodTasksCounter + history.pool.info.badTasksCounter

theorem create_inv (threadsNumber queueLength : Nat) :
    Inv queueLength (create threadsNumber queueLength : History T) :=
  ⟨rfl, Nat.zero_le _, rfl, rfl, rfl⟩

theorem become_busy (pool : ThreadPool T) (index : Nat) (old new : Worker T)
    (here : pool.workers[index]? = some old) :
    (pool.become index new).workers.countP Worker.busy + old.busy.toNat =
      pool.workers.countP Worker.busy + new.busy.toNat := by
  obtain ⟨inside, same⟩ := List.getElem?_eq_some_iff.mp here
  have counted := List.countP_set (p := Worker.busy) (a := new) inside
  have present : old.busy = true → 0 < pool.workers.countP Worker.busy := by
    intro working
    exact List.countP_pos_iff.mpr ⟨old, List.mem_of_getElem? here, working⟩
  rw [same] at counted
  rw [become, counted]
  cases oldBusy : old.busy with
  | false => cases new.busy <;> simp
  | true =>
      have positive := present oldBusy
      cases new.busy <;> simp <;> omega

/-- The state of affairs inside the lock: the thread has reported its last task and has
no new one yet. -/
structure Inside (queueLength : Nat) (history : History T) (index : Nat) (worker : Worker T) :
    Prop where
  here : history.pool.workers[index]? = some worker
  limit : history.pool.info.queueLength = queueLength
  bound : history.pool.tasksQueue.length ≤ queueLength
  order : history.accepted = history.dequeued ++ history.pool.tasksQueue
  busy : history.pool.info.busyThreadsCounter + worker.busy.toNat =
    history.pool.workers.countP Worker.busy
  counted : history.dequeued.length = history.pool.info.busyThreadsCounter +
    history.pool.info.goodTasksCounter + history.pool.info.badTasksCounter

theorem Inside.leave {queueLength : Nat} {history : History T} {index : Nat} {worker : Worker T}
    (inside : Inside queueLength history index worker) (next : Worker T) (idle : next.busy = false) :
    Inv queueLength { history with pool := history.pool.become index next } := by
  have moved := become_busy history.pool index worker next inside.here
  rw [idle] at moved
  refine ⟨inside.limit, inside.bound, inside.order, ?_, inside.counted⟩
  have before := inside.busy
  simp only [Bool.toNat_false, Nat.add_zero] at moved
  exact Nat.add_right_cancel (before.trans moved.symm)

theorem Inside.dequeue {queueLength : Nat} {history : History T} {index : Nat} {worker : Worker T}
    (inside : Inside queueLength history index worker) (copied : Bool) :
    Inv queueLength { history with
      pool := (history.pool.dequeue index copied).1
      dequeued := history.dequeued ++ (history.pool.dequeue index copied).2.toList } := by
  unfold ThreadPool.dequeue
  split
  · simpa using inside.leave .returned rfl
  · split
    · simpa using inside.leave .waiting rfl
    · next task rest queue =>
        split
        · have moved := become_busy history.pool index worker (.handling task) inside.here
          have before := inside.busy
          have length := inside.bound
          have order := inside.order
          have counted := inside.counted
          rw [queue] at length order
          refine ⟨inside.limit, ?_, ?_, ?_, ?_⟩
          · exact Nat.le_of_succ_le length
          · simpa [become] using order
          · have working : (Worker.handling task).busy = true := rfl
            rw [working, Bool.toNat_true] at moved
            simp only [become] at moved ⊢
            omega
          · simp only [become, Option.toList_some, List.length_append, List.length_singleton]
            omega
        · simpa using inside.leave (.ready .none) rfl

theorem Inv.report {queueLength : Nat} {history : History T} (inv : Inv queueLength history)
    {index : Nat} {state : WorkState} (here : history.pool.workers[index]? = some (.ready state)) :
    Inside queueLength
      { history with pool := { history.pool with info := report history.pool.info state } } index
      (.ready state) := by
  have present : (Worker.ready state : Worker T).busy = true →
      0 < history.pool.info.busyThreadsCounter := by
    intro working
    rw [inv.busy]
    exact List.countP_pos_iff.mpr ⟨_, List.mem_of_getElem? here, working⟩
  have busy := inv.busy
  have counted := inv.counted
  cases state with
  | none => exact ⟨here, inv.limit, inv.bound, inv.order, busy, counted⟩
  | good =>
      have positive := present rfl
      refine ⟨here, inv.limit, inv.bound, inv.order, ?_, ?_⟩
      · simp only [ThreadPool.report, Worker.busy, Bool.toNat_true]
        omega
      · simp only [ThreadPool.report]
        omega
  | bad =>
      have positive := present rfl
      refine ⟨here, inv.limit, inv.bound, inv.order, ?_, ?_⟩
      · simp only [ThreadPool.report, Worker.busy, Bool.toNat_true]
        omega
      · simp only [ThreadPool.report]
        omega

theorem Inv.acquire {queueLength : Nat} {history : History T} (inv : Inv queueLength history)
    (index : Nat) (copied : Bool) : Inv queueLength (history.step (.acquire index copied)) := by
  simp only [step, ThreadPool.acquire]
  split
  · next state here => exact (inv.report here).dequeue copied
  · next here =>
      have inside : Inside queueLength history index .waiting :=
        ⟨here, inv.limit, inv.bound, inv.order, inv.busy, inv.counted⟩
      exact inside.dequeue copied
  · simpa using inv

theorem Inv.finish {queueLength : Nat} {history : History T} (inv : Inv queueLength history)
    (index : Nat) (returns : Bool) : Inv queueLength (history.step (.finish index returns)) := by
  simp only [step, ThreadPool.finish]
  split
  · next task here =>
      have moved := become_busy history.pool index (.handling task)
        (.ready (if returns then .good else .bad)) here
      have working : (Worker.ready (if returns then .good else .bad) : Worker T).busy = true := by
        cases returns <;> rfl
      rw [working] at moved
      refine ⟨inv.limit, inv.bound, inv.order, ?_, inv.counted⟩
      exact inv.busy.trans (Nat.add_right_cancel moved).symm
  · exact inv

theorem countP_new (workers : List (Worker T)) (number : Nat) :
    (workers ++ List.replicate number (Worker.ready .none)).countP Worker.busy =
      workers.countP Worker.busy := by
  simp [List.countP_append, List.countP_replicate, Worker.busy]

theorem Inv.start {queueLength : Nat} {history : History T} (inv : Inv queueLength history)
    (failing : Option Nat) : Inv queueLength (history.step (.start failing)) := by
  simp only [step, ThreadPool.start]
  split
  · exact inv
  · split
    · exact ⟨inv.limit, inv.bound, inv.order, inv.busy.trans (countP_new _ _).symm, inv.counted⟩
    · exact ⟨inv.limit, inv.bound, inv.order, inv.busy.trans (countP_new _ _).symm, inv.counted⟩

theorem addTask_refused (pool : ThreadPool T) (task : T) (copying : Except Exn Unit) (exn : Exn)
    (refused : (pool.addTask task copying).2 = .error exn) : (pool.addTask task copying).1 = pool := by
  unfold addTask at refused ⊢
  split at refused
  · next idle => rw [if_pos idle]
  · next started =>
      split at refused
      · next full => rw [if_neg started, if_pos full]
      · next room =>
          rw [if_neg started, if_neg room]
          cases copying with
          | error _ => rfl
          | ok _ => cases refused

theorem Inv.addTask {queueLength : Nat} {history : History T} (inv : Inv queueLength history)
    (task : T) (copying : Except Exn Unit) :
    Inv queueLength (history.step (.addTask task copying)) := by
  have refused := addTask_refused history.pool task copying
  simp only [step]
  split
  · next pool accepted =>
      unfold ThreadPool.addTask at accepted
      split at accepted
      · simp at accepted
      · split at accepted
        · simp at accepted
        · next room =>
            cases copying with
            | error exn => simp at accepted
            | ok _ =>
                obtain ⟨rfl, _⟩ := Prod.mk.inj accepted
                have limit := inv.limit
                refine ⟨limit, ?_, ?_, inv.busy, inv.counted⟩
                · simp only [List.length_append, List.length_singleton]
                  omega
                · simp [inv.order]
  · next pool exn failed =>
      rw [failed] at refused
      rw [show pool = history.pool from refused exn rfl]
      exact inv

theorem Inv.step {queueLength : Nat} {history : History T} (inv : Inv queueLength history)
    (action : Action T) : Inv queueLength (history.step action) := by
  cases action with
  | start failing => exact inv.start failing
  | stop => exact ⟨inv.limit, inv.bound, inv.order, inv.busy, inv.counted⟩
  | addTask task copying => exact inv.addTask task copying
  | getInfo => exact ⟨inv.limit, inv.bound, inv.order, inv.busy, inv.counted⟩
  | acquire index copied => exact inv.acquire index copied
  | finish index returns => exact inv.finish index returns

theorem Inv.run {queueLength : Nat} {history : History T} (inv : Inv queueLength history)
    (actions : List (Action T)) : Inv queueLength (history.run actions) := by
  induction actions generalizing history with
  | nil => exact inv
  | cons action rest ih => exact ih (inv.step action)

theorem Inv.counters_fit {queueLength : Nat} {history : History T} (inv : Inv queueLength history)
    (few : history.accepted.length < 2 ^ 64) :
    history.pool.info.busyThreadsCounter < 2 ^ 64 ∧ history.pool.info.goodTasksCounter < 2 ^ 64 ∧
      history.pool.info.badTasksCounter < 2 ^ 64 := by
  have order := congrArg List.length inv.order
  have counted := inv.counted
  rw [List.length_append] at order
  omega

/-- Whatever the order of the steps, no task is lost, repeated or overtaken: the accepted
tasks are those that were taken, in this order, and then those in the queue; and their
number is that of the queued tasks, the busy threads and the counted outcomes. -/
theorem pool_keeps_tasks (threadsNumber queueLength : Nat) (actions : List (Action T)) :
    let history := (create threadsNumber queueLength).run actions
    let info := history.pool.info
    history.accepted.length = history.pool.tasksQueue.length + info.busyThreadsCounter +
      info.goodTasksCounter + info.badTasksCounter ∧
    history.pool.tasksQueue.length ≤ queueLength ∧
    history.accepted = history.dequeued ++ history.pool.tasksQueue ∧
    (∀ task copying exn, (history.pool.addTask task copying).2 = .error exn →
      (history.pool.addTask task copying).1 = history.pool) ∧
    ∀ (index : Nat) (state : WorkState), history.pool.workers[index]? = some (.ready state) →
      state ≠ .none → 0 < info.busyThreadsCounter := by
  intro history info
  have inv : Inv queueLength history := (create_inv threadsNumber queueLength).run actions
  refine ⟨?_, inv.bound, inv.order, fun task copying exn => addTask_refused _ task copying exn, ?_⟩
  · have order := congrArg List.length inv.order
    have counted := inv.counted
    rw [List.length_append] at order
    simp only [info]
    omega
  · intro index state here reports
    have working : (Worker.ready state : Worker T).busy = true := by
      cases state with
      | none => exact absurd rfl reports
      | good => rfl
      | bad => rfl
    simp only [info, inv.busy]
    exact List.countP_pos_iff.mpr ⟨_, List.mem_of_getElem? here, working⟩

end History

end ThreadPool

end FastcgiContainer
