import FastcgiContainer.QueueRouting

/-! After the stop: no thread takes up anything new, and what waits in a queue stays there. -/

namespace FastcgiContainer

open Word (Bytes)

namespace ThreadPool

variable {T : Type}

def taken (pool : ThreadPool T) : Multiset T := (pool.workers.map Worker.tasks).sum

/-- A pool that was stopped gives nothing out and takes nothing in. -/
structure WindsDown (pool next : ThreadPool T) : Prop where
  stopped : next.info.started = false
  queue : next.tasksQueue = pool.tasksQueue
  taken : next.taken ≤ pool.taken

theorem WindsDown.trans {first second third : ThreadPool T} (left : WindsDown first second)
    (right : WindsDown second third) : WindsDown first third :=
  ⟨right.stopped, right.queue.trans left.queue, right.taken.trans left.taken⟩

section Stopped

variable {pool : ThreadPool T} (stopped : pool.info.started = false)

include stopped

theorem WindsDown.refl : WindsDown pool pool := ⟨stopped, rfl, le_refl _⟩

theorem become_windsDown (index : Nat) (old new : Worker T) (here : pool.workers[index]? = some old)
    (idle : new.tasks = 0) : WindsDown pool (pool.become index new) := by
  refine ⟨stopped, rfl, ?_⟩
  have moved := sum_set Worker.tasks pool.workers index old new here
  rw [idle, add_zero] at moved
  simp only [taken, become, ← moved]
  exact Multiset.le_add_right _ _

theorem acquire_windsDown (index : Nat) (copied : Bool) : WindsDown pool (pool.acquire index copied).1 := by
  unfold acquire
  split
  · next state here =>
      have still : (report pool.info state).started = false := by cases state <;> exact stopped
      have idle : ({ pool with info := report pool.info state } : ThreadPool T).dequeue index copied =
          (become { pool with info := report pool.info state } index .returned, none) := by
        simp [dequeue, still]
      rw [idle]
      exact ⟨still, rfl, (become_windsDown stopped index (.ready state) .returned here rfl).taken⟩
  · next here =>
      have idle : pool.dequeue index copied = (pool.become index .returned, none) := by
        simp [dequeue, stopped]
      rw [idle]
      exact become_windsDown stopped index .waiting .returned here rfl
  · exact .refl stopped

theorem finish_windsDown (index : Nat) (returns : Bool) : WindsDown pool (pool.finish index returns) := by
  unfold finish
  split
  · next task here =>
      exact become_windsDown stopped index (.handling task) (.ready (if returns then .good else .bad)) here rfl
  · exact .refl stopped

theorem addTask_stopped (task : T) (copying : Except Exn Unit) :
    pool.addTask task copying = (pool, .error (.runtimeError "Thread pool is not started yet")) := by
  simp [addTask, stopped]

end Stopped

end ThreadPool

namespace Container

variable {γ η φ : Type}

def Halted (container : Container γ η φ) : Prop :=
  ∀ poolName pool settings, container.pools.find? poolName = some (pool, settings) → pool.info.started = false

def WindsDown (before after : Container γ η φ) : Prop :=
  ∀ poolName pool settings, before.pools.find? poolName = some (pool, settings) →
    ∃ next, after.pools.find? poolName = some (next, settings) ∧ pool.WindsDown next

theorem WindsDown.trans {first second third : Container γ η φ} (left : WindsDown first second)
    (right : WindsDown second third) : WindsDown first third := by
  intro poolName pool settings found
  obtain ⟨middle, between, down⟩ := left poolName pool settings found
  obtain ⟨last, ends, further⟩ := right poolName middle settings between
  exact ⟨last, ends, down.trans further⟩

variable {container : Container γ η φ} (halted : container.Halted)

include halted

theorem WindsDown.of_pools {after : Container γ η φ} (same : after.pools = container.pools) :
    WindsDown container after :=
  fun poolName pool settings found => ⟨pool, same ▸ found, .refl (halted poolName pool settings found)⟩

theorem updatePool_windsDown (poolName : Bytes) (change : ThreadPool (QueuedTask η φ) → ThreadPool (QueuedTask η φ))
    (down : ∀ pool : ThreadPool (QueuedTask η φ), pool.info.started = false → pool.WindsDown (change pool)) :
    WindsDown container (container.updatePool poolName change) := by
  unfold updatePool
  split
  · exact .of_pools halted rfl
  · next pool settings found =>
      intro other before otherSettings present
      simp only [OrderedMap.find?_assign stringLess_exact]
      by_cases same : poolName = other
      · subst same
        rw [found] at present
        cases present
        exact ⟨change pool, if_pos rfl, down pool (halted poolName pool settings found)⟩
      · exact ⟨before, (if_neg same).trans present, .refl (halted other before otherSettings present)⟩

theorem addToPool_pools (poolName : Bytes) (task : QueuedTask η φ) (now : Int) (copying : Except Exn Unit) :
    (container.addToPool poolName task now copying).1.pools = container.pools := by
  unfold addToPool
  split
  · rfl
  · next pool settings found =>
      rw [ThreadPool.addTask_stopped (halted poolName pool settings found)]
      dsimp only
      unfold answer
      split <;> rfl

theorem dispatch_pools (request : Nat) (now : Int) (copying : Except Exn Unit) :
    (container.dispatch request now copying).1.pools = container.pools := by
  unfold dispatch
  split
  · rfl
  · split
    · rfl
    · split
      · rfl
      · split
        · exact addToPool_pools halted _ _ _ _
        · split
          · unfold answer
            split <;> rfl
          · exact addToPool_pools halted _ _ _ _

theorem handle_windsDown (poolName : Bytes) (index : Nat) (now later : Int) (components : Components γ η φ)
    (copying : Except Exn Unit) : WindsDown container (container.handle poolName index now later components copying) := by
  have finished : ∀ (middle : Container γ η φ) (returns : Bool), middle.pools = container.pools →
      WindsDown container (middle.updatePool poolName (fun pool => pool.finish index returns)) := by
    intro middle returns same
    have still : middle.Halted := fun name pool settings found => halted name pool settings (same ▸ found)
    have down := updatePool_windsDown still poolName (fun pool => pool.finish index returns)
      (fun pool stopped => pool.finish_windsDown stopped index returns)
    exact fun name pool settings found => down name pool settings (same.symm ▸ found)
  unfold handle
  split
  · exact .of_pools halted rfl
  · next settings task conversation here =>
      split
      · exact finished _ _ rfl
      · exact finished _ _ rfl
      · next again _ =>
          have still : (container.setConversation task.request again).Halted := halted
          have same := dispatch_pools still task.request later copying
          split
          · next next outcome =>
              rw [outcome] at same
              exact finished next true same
          · next next raised outcome =>
              rw [outcome] at same
              exact finished (next.drop task.request) false same

theorem serve_pools (request : Nat) (keepConnection : Bool) (incoming : Incoming) (now : Int)
    (copying : Except Exn Unit) :
    (container.serve request keepConnection incoming now copying).pools = container.pools := by
  unfold serve
  split
  · unfold answer
    split <;> rfl
  · next attached _ =>
      have still : (container.setConversation request attached).Halted := halted
      have same := dispatch_pools still request now copying
      split
      · next next outcome =>
          rw [outcome] at same
          exact same
      · next next raised outcome =>
          rw [outcome] at same
          unfold answer
          split <;> exact same

theorem replay_pools (image : DataBuffer) (heap : Heap) (now : Int) (copying : Except Exn Unit) :
    (container.replay image heap now copying).pools = container.pools := by
  unfold replay
  split
  · rfl
  · next request _ =>
      have still : (container.append { newConversation heap with exchange := ⟨request, []⟩ }).Halted := halted
      have same := dispatch_pools still container.requests.length now copying
      dsimp only [append] at same ⊢
      split
      · next next outcome =>
          rw [outcome] at same
          exact same
      · next next last raised outcome =>
          rw [outcome] at same
          exact same

end Container

namespace FCGIServer

variable {γ η φ : Type}

structure Stopped (server : FCGIServer γ η φ) : Prop where
  stopped : server.stopped = true
  halted : server.container.Halted

/-- What a step of a stopped server can change. -/
structure WindsDown (server next : FCGIServer γ η φ) : Prop where
  stopped : next.stopped = true
  pools : server.container.WindsDown next.container
  hands : next.hands ≤ server.hands

theorem setEndpoint_hands_le (server : FCGIServer γ η φ) (endpoint : Nat) (old new : EndpointThreads)
    (here : server.endpoints[endpoint]? = some old) (fewer : new.requests ≤ old.requests) :
    (server.setEndpoint endpoint new).hands ≤ server.hands := by
  have moved := server.setEndpoint_hands endpoint old new here
  refine le_of_add_le_add_right (a := old.requests) ?_
  rw [moved]
  gcongr

theorem step_windsDown {server next : FCGIServer γ η φ} {action : Action γ η φ} (ended : server.Stopped)
    (done : server.step action = .ok next) : WindsDown server next := by
  have still := step_stopped server next action done ended.stopped
  have same : server.container.WindsDown server.container := .of_pools ended.halted rfl
  cases server.step_transition action next done with
  | still => exact ⟨still, same, le_refl _⟩
  | moves _ endpoint threads after here kept =>
      exact ⟨still, same, server.setEndpoint_hands_le endpoint threads after here kept.le⟩
  | accept endpoint thread succeeds threads after here came =>
      rw [ended.stopped, if_pos rfl] at came
      refine ⟨still, .of_pools ended.halted ?_, server.setEndpoint_hands_le endpoint threads after here came.le⟩
      dsimp only
      split <;> rfl
  | serve endpoint thread incoming now copying threads after request here had =>
      refine ⟨still, .of_pools ended.halted (Container.serve_pools ended.halted _ _ _ _ _),
        server.setEndpoint_hands_le endpoint threads after here ?_⟩
      rw [had]
      exact Multiset.le_cons_self _ _
  | replay image heap now copying =>
      exact ⟨still, .of_pools ended.halted (Container.replay_pools ended.halted image heap now copying), le_refl _⟩
  | acquire pool index copied =>
      exact ⟨still, Container.updatePool_windsDown ended.halted pool _
        (fun pool stopped => pool.acquire_windsDown stopped index copied), le_refl _⟩
  | handle pool index now later components copying =>
      exact ⟨still, Container.handle_windsDown ended.halted pool index now later components copying, le_refl _⟩
  | stop => exact ⟨still, same, le_refl _⟩
  | stopPool pool =>
      exact ⟨still, Container.updatePool_windsDown ended.halted pool ThreadPool.stop
        (fun pool stopped => ⟨rfl, rfl, le_refl _⟩), le_refl _⟩

theorem run_windsDown {server last : FCGIServer γ η φ} {actions : List (Action γ η φ)} (orderly : server.Orderly)
    (ended : server.Stopped) (ran : server.run actions = .ok last) : WindsDown server last := by
  induction actions generalizing server with
  | nil =>
      cases ran
      exact ⟨ended.stopped, .of_pools ended.halted rfl, le_refl _⟩
  | cons action rest ih =>
      obtain ⟨middle, first, later⟩ := bind_eq_ok _ _ _ ran
      have down := step_windsDown ended first
      have advance := step_advance server middle action orderly.balanced orderly.pooled first
      have halted : middle.container.Halted := by
        intro poolName pool settings found
        have before : (server.container.pools.find? poolName).isSome := by
          rw [← advance.setup.pools, found]
          rfl
        obtain ⟨⟨old, oldSettings⟩, known⟩ := Option.isSome_iff_exists.mp before
        obtain ⟨next, present, wound⟩ := down.pools poolName old oldSettings known
        rw [found] at present
        cases present
        exact wound.stopped
      have further := ih (orderly.step first) ⟨down.stopped, halted⟩ later
      exact ⟨further.stopped, down.pools.trans further.pools, further.hands.trans down.hands⟩

/-- Once the server and its pools were stopped, no thread of an endpoint and no thread of a pool
takes up a request that it did not have, and the requests that wait in a queue are neither
handled nor answered nor dropped, whatever the threads still do. -/
theorem stopped_server_winds_down (compile : Bytes → Except Exn Regex)
    (find : Bytes → Except Exn (Option (ComponentCasts η φ))) (config : HandlersConfig) (entries : List PoolEntry)
    (globals : HandlerSet η φ × Globals.ThreadPoolMap (QueuedTask η φ))
    (created : Globals.create compile find config entries = .ok globals) (endpoints : List (Nat × Bool))
    (actions : List (Action γ η φ)) (server : FCGIServer γ η φ)
    (ran : (start globals endpoints).run actions = .ok server) (stopped : server.stopped = true)
    (halted : server.container.Halted) (more : List (Action γ η φ)) (last : FCGIServer γ η φ)
    (went : server.run more = .ok last) :
    last.hands ≤ server.hands ∧
      ∀ poolName pool settings, server.container.pools.find? poolName = some (pool, settings) →
        ∃ after, last.container.pools.find? poolName = some (after, settings) ∧ after.taken ≤ pool.taken ∧
          after.tasksQueue = pool.tasksQueue ∧
          ∀ task ∈ pool.tasksQueue, task.request ∉ last.container.dropped ∧
            ∃ conversation, last.container.requests[task.request]? = some conversation ∧
              conversation.exchange.request.headersSent = false := by
  obtain ⟨orderly, -⟩ := run_orderly compile find config entries globals created endpoints actions server ran
  have down := run_windsDown orderly ⟨stopped, halted⟩ went
  obtain ⟨ends, -, -⟩ := orderly.run went
  refine ⟨down.hands, fun poolName pool settings found => ?_⟩
  obtain ⟨after, present, wound⟩ := down.pools poolName pool settings found
  refine ⟨after, present, wound.taken, wound.queue, fun task waits => ?_⟩
  have member := mem_tasks last.container poolName after settings present task (Or.inl (wound.queue ▸ waits))
  have held : task.request ∈ last.held :=
    Multiset.mem_add.mpr (Or.inr (Multiset.mem_map.mpr ⟨(poolName, task), member, rfl⟩))
  exact ⟨ends.balanced.open held .dropped, last.container.held_unsent ends.balanced held⟩

section Sample

def stopActions : List (Action Unit Bytes Bytes) :=
  [.begin 0 0, .prepare 0 0 true, .accept 0 0 true, .serve 0 0 (sampleIncoming "/app/b") 0 (.ok ()), .stop,
    .stopPool (ascii "pool")]

def stoppedOf (server : FCGIServer Unit Bytes Bytes) : Bool × Option (List Nat) :=
  (server.stopped && server.container.pools.entries.all (fun entry => !entry.2.1.info.started),
    (server.container.pools.find? (ascii "pool")).map (fun pool => pool.1.tasksQueue.map QueuedTask.request))

theorem stopped_server_winds_down_sample : ∃ globals server last, sampleGlobals = .ok globals ∧
    (start globals [(1, true)]).run stopActions = .ok server ∧
      server.run [.acquire (ascii "pool") 0 true] = .ok last ∧
      ∃ conversation, last.container.requests[0]? = some conversation ∧
        conversation.exchange.request.headersSent = false := by
  have seen : (runFrom sampleGlobals [(1, true)] stopActions).map (fun ends => stoppedOf ends.2) =
      .ok (true, some [0]) := by
    decide +kernel
  obtain ⟨globals, server, created, ran, same⟩ := runFrom_seen _ _ _ stoppedOf _ seen
  simp only [stoppedOf, Prod.mk.injEq, Bool.and_eq_true, List.all_eq_true, Bool.not_eq_true'] at same
  obtain ⟨⟨stopped, all⟩, queue⟩ := same
  have halted : server.container.Halted := by
    intro poolName pool settings found
    exact all _ ((OrderedMap.find?_eq_some stringLess_exact server.container.pools poolName (pool, settings)).mp found)
  obtain ⟨⟨pool, settings⟩, found, queue⟩ := Option.map_eq_some_iff.mp queue
  obtain ⟨task, rest, split, request, -⟩ := List.map_eq_cons_iff.mp queue
  obtain ⟨last, went⟩ : ∃ last, server.run [.acquire (ascii "pool") 0 true] = .ok last := ⟨_, rfl⟩
  obtain ⟨after, -, -, -, waiting⟩ := (stopped_server_winds_down HandlerSet.literalRegex HandlerSet.sampleCasts
    HandlerSet.sampleConfig [⟨ascii "pool", 1, 2, 0⟩] globals created [(1, true)] stopActions server ran stopped halted
    [.acquire (ascii "pool") 0 true] last went).2 (ascii "pool") pool settings found
  obtain ⟨-, conversation, here, unsent⟩ := waiting task (by rw [split]; exact List.mem_cons_self)
  rw [request] at here
  exact ⟨globals, server, last, created, ran, went, conversation, here, unsent⟩

end Sample

end FCGIServer

end FastcgiContainer
