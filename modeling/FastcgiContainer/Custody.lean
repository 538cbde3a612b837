import FastcgiContainer.Ledger
import FastcgiContainer.Startup

/-! Who holds a request. It is taken in when it is accepted or replayed; then a thread of an
endpoint, a queue or a thread of a pool has it, and nobody else, until it is answered or
dropped. -/

namespace FastcgiContainer

open Word (Bytes)

namespace Container

inductive Fate where
  | answered
  | dropped
  deriving DecidableEq, Repr

variable {γ η φ : Type} (container : Container γ η φ)

def closed : Fate → Set Nat
  | .answered => {request | ∃ conversation, container.requests[request]? = some conversation ∧
      conversation.exchange.request.headersSent = true}
  | .dropped => {request | request ∈ container.dropped}

def ledger (held : Multiset Nat) : Ledger Fate := ⟨container.requests.length, held, container.closed⟩

def requestsOf (tasks : Multiset (Bytes × QueuedTask η φ)) : Multiset Nat :=
  tasks.map (fun placed => placed.2.request)

def pooled : Multiset Nat := requestsOf container.tasks

section Closed

theorem closed_congr {left right : Container γ η φ} (requests : left.requests = right.requests)
    (dropped : left.dropped = right.dropped) : left.closed = right.closed := by
  funext fate
  cases fate with
  | answered => simp only [closed, requests]
  | dropped => simp only [closed, dropped]

theorem closed_drop (request : Nat) :
    (container.drop request).closed = Ledger.closing container.closed .dropped request := by
  funext fate
  cases fate with
  | answered => simp [closed, drop, Ledger.closing]
  | dropped =>
      ext query
      simp [closed, drop, Ledger.closing]

variable (request : Nat) (old new : Conversation γ)

theorem closed_setConversation (query : Nat) (other : query ≠ request) (fate : Fate) :
    query ∈ (container.setConversation request new).closed fate ↔ query ∈ container.closed fate := by
  cases fate with
  | answered => simp [closed, List.getElem?_set_ne (Ne.symm other)]
  | dropped => rfl

variable (here : container.requests[request]? = some old)

include here

theorem closed_answered (sent : new.exchange.request.headersSent = true) :
    (container.setConversation request new).closed = Ledger.closing container.closed .answered request := by
  obtain ⟨inside, -⟩ := List.getElem?_eq_some_iff.mp here
  funext fate
  ext query
  by_cases same : query = request
  · subst same
    cases fate with
    | answered => simp [closed, Ledger.closing, inside, sent]
    | dropped => simp [closed, Ledger.closing]
  · rw [container.closed_setConversation request new query same fate]
    simp [Ledger.closing, same]

theorem closed_unsent (before : old.exchange.request.headersSent = false)
    (after : new.exchange.request.headersSent = false) :
    (container.setConversation request new).closed = container.closed := by
  obtain ⟨inside, found⟩ := List.getElem?_eq_some_iff.mp here
  funext fate
  ext query
  by_cases same : query = request
  · subst same
    cases fate with
    | answered => simp [closed, inside, found, before, after]
    | dropped => rfl
  · exact container.closed_setConversation request new query same fate

end Closed

theorem closed_append (new : Conversation γ) (unsent : new.exchange.request.headersSent = false) :
    (container.append new).closed = container.closed := by
  funext fate
  cases fate with
  | answered =>
      ext query
      simp only [closed, append, Set.mem_ofPred_eq]
      rcases Nat.lt_trichotomy query container.requests.length with inside | rfl | outside
      · rw [List.getElem?_append_left inside]
      · simp [unsent]
      · rw [List.getElem?_eq_none (by simpa using outside), List.getElem?_eq_none (Nat.le_of_lt outside)]
  | dropped => rfl

theorem held_unsent {held : Multiset Nat} (balanced : (container.ledger held).Balanced) {request : Nat}
    (present : request ∈ held) : ∃ conversation, container.requests[request]? = some conversation ∧
      conversation.exchange.request.headersSent = false := by
  have inside : request < container.requests.length := balanced.known request present
  refine ⟨container.requests[request], List.getElem?_eq_getElem inside, ?_⟩
  have unanswered : request ∉ container.closed .answered := balanced.open present .answered
  by_contra sent
  exact unanswered ⟨_, List.getElem?_eq_getElem inside, by simpa using sent⟩

theorem Outcome.steps {unrestored : Conversation γ → Prop} {request : Nat}
    {rest : Multiset (Bytes × QueuedTask η φ)} {after : Container γ η φ}
    (outcome : container.Outcome unrestored request rest after) {old : Conversation γ}
    (here : container.requests[request]? = some old) (unsent : old.exchange.request.headersSent = false)
    (hands : Multiset Nat) : Ledger.Steps (container.ledger (request ::ₘ hands + requestsOf rest))
      (after.ledger (hands + requestsOf after.tasks)) := by
  have closing : ∀ fate, after.requests.length = container.requests.length →
      after.closed = Ledger.closing container.closed fate request → after.tasks = rest →
      Ledger.Steps (container.ledger (request ::ₘ hands + requestsOf rest))
        (after.ledger (hands + requestsOf after.tasks)) := by
    intro fate count closed tasks
    have closes := Ledger.Step.close (container.ledger (request ::ₘ hands + requestsOf rest)) fate
      (Multiset.cons_add request hands (requestsOf rest))
    simp only [ledger, count, closed, tasks]
    exact .single closes
  cases outcome with
  | queued last still poolName task named routed requests dropped tasks =>
      have same : after.ledger (hands + requestsOf after.tasks) =
          container.ledger (request ::ₘ hands + requestsOf rest) := by
        have changed : after.closed = (container.setConversation request last).closed := closed_congr requests dropped
        have closed := changed.trans (container.closed_unsent request old last here unsent still)
        simp [ledger, requestsOf, tasks, closed, requests, named, Multiset.add_cons]
      rw [same]
  | answered last sent requests dropped tasks =>
      have changed : after.closed = (container.setConversation request last).closed := closed_congr requests dropped
      exact closing .answered (by simp [requests])
        (changed.trans (container.closed_answered request old last here sent)) tasks
  | dropped last still broken requests dropped tasks =>
      have changed : after.closed = ((container.setConversation request last).drop request).closed :=
        closed_congr requests dropped
      rw [closed_drop, container.closed_unsent request old last here unsent still] at changed
      exact closing .dropped (by simp [requests]) changed tasks

section Steps

variable (request : Nat) (now : Int) (copying : Except Exn Unit) (others : Multiset Nat)

theorem handle_steps (poolName : Bytes) (index : Nat) (later : Int) (components : Components γ η φ)
    (balanced : (container.ledger (others + container.pooled)).Balanced) :
    let after := container.handle poolName index now later components copying
    Ledger.Steps (container.ledger (others + container.pooled)) (after.ledger (others + after.pooled)) := by
  intro after
  cases here : container.taskAt poolName index with
  | none =>
      have same : after = container := by simp only [after, handle, here]
      rw [same]
  | some found =>
      obtain ⟨settings, task, conversation⟩ := found
      obtain ⟨rest, tasks, outcome⟩ := container.handle_outcome here now later components copying
      have held : others + container.pooled = task.request ::ₘ others + requestsOf rest := by
        simp [pooled, requestsOf, tasks]
      obtain ⟨_, known, unsent⟩ := container.held_unsent balanced
        (held ▸ Multiset.mem_add.mpr (Or.inl (Multiset.mem_cons_self task.request others)))
      rw [held]
      exact outcome.steps container known unsent others

theorem serve_steps (keepConnection : Bool) (incoming : Incoming)
    (balanced : (container.ledger (request ::ₘ others + container.pooled)).Balanced) :
    let after := container.serve request keepConnection incoming now copying
    Ledger.Steps (container.ledger (request ::ₘ others + container.pooled)) (after.ledger (others + after.pooled)) := by
  intro after
  obtain ⟨conversation, known, unsent⟩ := container.held_unsent balanced
    (Multiset.mem_add.mpr (Or.inl (Multiset.mem_cons_self request others)))
  exact (container.serve_outcome (fun _ => False) known unsent keepConnection incoming now copying).steps container
    known unsent others

theorem append_steps (new : Conversation γ) (unsent : new.exchange.request.headersSent = false) :
    Ledger.Steps (container.ledger (others + container.pooled))
      ((container.append new).ledger (container.requests.length ::ₘ others + container.pooled)) := by
  have same : (container.append new).ledger (container.requests.length ::ₘ others + container.pooled) =
      ⟨container.requests.length + 1, container.requests.length ::ₘ (others + container.pooled),
        container.closed⟩ := by
    rw [ledger, container.closed_append new unsent, append, List.length_append, List.length_singleton,
      Multiset.cons_add]
  rw [same]
  exact .single (.take (container.ledger (others + container.pooled)))

theorem drop_steps : Ledger.Steps (container.ledger (request ::ₘ others + container.pooled))
    ((container.drop request).ledger (others + container.pooled)) := by
  have same : (container.drop request).ledger (others + container.pooled) =
      ⟨container.requests.length, others + container.pooled, Ledger.closing container.closed .dropped request⟩ := by
    rw [ledger, closed_drop]
    rfl
  rw [same]
  exact .single (.close (container.ledger (request ::ₘ others + container.pooled)) .dropped
    (Multiset.cons_add request others container.pooled))

theorem replay_steps (image : DataBuffer) (heap : Heap) :
    let after := container.replay image heap now copying
    Ledger.Steps (container.ledger (others + container.pooled)) (after.ledger (others + after.pooled)) := by
  intro after
  rcases container.replay_outcome (fun _ => False) image heap now copying with same | ⟨new, unsent, outcome⟩
  · simp only [after, same]
    exact .refl
  · exact (container.append_steps others new unsent).trans
      (outcome.steps _ (by simp [append]) unsent others)

end Steps

end Container

namespace EndpointThread

def requests : EndpointThread → Multiset Nat
  | serving _ request => {request}
  | _ => 0

end EndpointThread

namespace EndpointThreads

def requests (threads : EndpointThreads) : Multiset Nat := (threads.threads.map EndpointThread.requests).sum

end EndpointThreads

namespace FCGIServer

variable {γ η φ : Type}

section Threads

variable (threads : EndpointThreads) (thread : Nat)

theorem move_requests (endpoint : Endpoint) (old place : EndpointThread) (here : threads.threads[thread]? = some old) :
    (move threads thread endpoint place).requests + old.requests = threads.requests + place.requests :=
  sum_set EndpointThread.requests threads.threads thread old place here

theorem move_idle (endpoint : Endpoint) (old place : EndpointThread) (here : threads.threads[thread]? = some old)
    (before : old.requests = 0) (after : place.requests = 0) :
    (move threads thread endpoint place).requests = threads.requests := by
  have moved := move_requests threads thread endpoint old place here
  rwa [before, after, add_zero, add_zero] at moved

theorem begin_requests (stopped : Bool) : (begin stopped threads thread).requests = threads.requests := by
  unfold begin
  split
  · next here =>
      split
      · exact move_idle threads thread _ .idle .returned here rfl rfl
      · exact move_idle threads thread _ .idle (.preparing _) here rfl rfl
  · rfl

theorem prepare_requests (succeeds : Bool) (next : EndpointThreads) (done : prepare threads thread succeeds = .ok next) :
    next.requests = threads.requests := by
  unfold prepare at done
  split at done
  · next counter here =>
      split at done
      · obtain ⟨⟨other, endpoint⟩, _, done⟩ := bind_eq_ok _ _ _ done
        cases done
        exact move_idle threads thread endpoint (.preparing counter) (.accepting other) here rfl rfl
      · cases done
        exact move_idle threads thread _ (.preparing counter) (.leaving counter false) here rfl rfl
  · cases done
    rfl

theorem leave_requests (next : EndpointThreads) (done : leave threads thread = .ok next) :
    next.requests = threads.requests := by
  unfold leave at done
  split at done
  · next counter returns here =>
      obtain ⟨⟨other, endpoint⟩, _, done⟩ := bind_eq_ok _ _ _ done
      cases done
      refine move_idle threads thread endpoint (.leaving counter returns) _ here rfl ?_
      cases returns <;> rfl
  · cases done
    rfl

theorem accepted_requests (stopped succeeds came : Bool) (request : Nat) (next : EndpointThreads)
    (done : accepted stopped threads thread succeeds request = (next, came)) :
    next.requests = if came && !stopped then request ::ₘ threads.requests else threads.requests := by
  unfold accepted at done
  split at done
  · next counter here =>
      split at done
      · next ended =>
          cases done
          simp only [ended, Bool.not_true, Bool.and_false, Bool.false_eq_true, if_false]
          exact move_idle threads thread _ (.accepting counter) (.leaving counter true) here rfl rfl
      · next running =>
          rw [Bool.not_eq_true] at running
          split at done
          · cases done
            exact move_idle threads thread _ (.accepting counter) (.leaving counter false) here rfl rfl
          · cases done
            have moved := move_requests threads thread (counter.increment threads.endpoint).2 (.accepting counter)
              (.serving (counter.increment threads.endpoint).1 request) here
            simp only [EndpointThread.requests, add_zero] at moved
            rw [add_comm threads.requests, Multiset.singleton_add] at moved
            simp only [running, Bool.not_false, Bool.and_true, if_true]
            exact moved
  · cases done
    rfl

theorem servedBy_requests (counter : Endpoint.ScopedBusyCounter) (request : Nat)
    (serves : servedBy threads thread = some (counter, request)) (endpoint : Endpoint) :
    threads.requests = request ::ₘ (move threads thread endpoint (.leaving counter false)).requests := by
  unfold servedBy at serves
  split at serves
  · next here =>
      cases serves
      have moved := move_requests threads thread endpoint _ (.leaving counter false) here
      simp only [EndpointThread.requests, add_zero] at moved
      rw [← moved, add_comm, Multiset.singleton_add]
  · cases serves

end Threads

variable (server : FCGIServer γ η φ)

def hands : Multiset Nat := (server.endpoints.map EndpointThreads.requests).sum

def held : Multiset Nat := server.hands + server.container.pooled

def ledger : Ledger Container.Fate := server.container.ledger server.held

theorem setEndpoint_hands (endpoint : Nat) (old new : EndpointThreads)
    (here : server.endpoints[endpoint]? = some old) :
    (server.setEndpoint endpoint new).hands + old.requests = server.hands + new.requests :=
  sum_set EndpointThreads.requests server.endpoints endpoint old new here

theorem setEndpoint_same (endpoint : Nat) (old new : EndpointThreads)
    (here : server.endpoints[endpoint]? = some old) (same : new.requests = old.requests) :
    (server.setEndpoint endpoint new).ledger = server.ledger := by
  have moved := server.setEndpoint_hands endpoint old new here
  rw [same] at moved
  simp only [ledger, held, add_right_cancel moved]
  rfl

theorem updatePool_same (poolName : Bytes) (change : ThreadPool (QueuedTask η φ) → ThreadPool (QueuedTask η φ))
    (kept : ∀ pool, (change pool).tasks = pool.tasks) :
    ({ server with container := server.container.updatePool poolName change } : FCGIServer γ η φ).ledger =
      server.ledger := by
  simp only [ledger, held, hands, Container.ledger, Container.pooled,
    server.container.updatePool_tasks poolName change kept, Container.updatePool_requests,
    Container.closed_congr (server.container.updatePool_requests poolName change)
      (server.container.updatePool_dropped poolName change)]

/-- What the actions can do to a server. -/
inductive Transition : Action γ η φ → FCGIServer γ η φ → Prop where
  /-- There is no such endpoint, or its thread is elsewhere. -/
  | still (action : Action γ η φ) : Transition action server
  /-- A thread of an endpoint moves on with what it has. -/
  | moves (action : Action γ η φ) (endpoint : Nat) (threads after : EndpointThreads)
      (here : server.endpoints[endpoint]? = some threads) (same : after.requests = threads.requests) :
      Transition action (server.setEndpoint endpoint after)
  | accept (endpoint thread : Nat) (succeeds : Bool) (threads after : EndpointThreads)
      (here : server.endpoints[endpoint]? = some threads)
      (came : after.requests = if server.stopped then threads.requests
        else server.container.requests.length ::ₘ threads.requests) :
      Transition (.accept endpoint thread succeeds) { server.setEndpoint endpoint after with
        container := if server.stopped then server.container.accept.drop server.container.requests.length
          else server.container.accept }
  | serve (endpoint thread : Nat) (incoming : Container.Incoming) (now : Int) (copying : Except Exn Unit)
      (threads after : EndpointThreads) (request : Nat) (here : server.endpoints[endpoint]? = some threads)
      (had : threads.requests = request ::ₘ after.requests) :
      Transition (.serve endpoint thread incoming now copying) { server.setEndpoint endpoint after with
        container := server.container.serve request threads.endpoint.keepConnection incoming now copying }
  | replay (image : DataBuffer) (heap : Heap) (now : Int) (copying : Except Exn Unit) :
      Transition (.replay image heap now copying)
        { server with container := server.container.replay image heap now copying }
  | acquire (pool : Bytes) (index : Nat) (copied : Bool) :
      Transition (.acquire pool index copied) { server with
        container := server.container.updatePool pool (fun pool => (pool.acquire index copied).1) }
  | handle (pool : Bytes) (index : Nat) (now later : Int) (components : Components γ η φ)
      (copying : Except Exn Unit) :
      Transition (.handle pool index now later components copying)
        { server with container := server.container.handle pool index now later components copying }
  | stop : Transition .stop { server with stopped := true }
  | stopPool (pool : Bytes) :
      Transition (.stopPool pool) { server with container := server.container.updatePool pool ThreadPool.stop }

theorem step_transition (action : Action γ η φ) (next : FCGIServer γ η φ) (done : server.step action = .ok next) :
    server.Transition action next := by
  cases action with
  | begin endpoint thread =>
      simp only [step] at done
      split at done
      · cases done
        exact .still _
      · next threads here =>
          cases done
          exact .moves _ endpoint threads _ here (begin_requests threads thread _)
  | prepare endpoint thread succeeds =>
      simp only [step] at done
      split at done
      · cases done
        exact .still _
      · next threads here =>
          obtain ⟨after, prepared, done⟩ := bind_eq_ok _ _ _ done
          cases done
          exact .moves _ endpoint threads after here (prepare_requests threads thread _ after prepared)
  | accept endpoint thread succeeds =>
      simp only [step] at done
      split at done
      · cases done
        exact .still _
      · next threads here =>
          split at done
          · next after outcome =>
              cases done
              exact .moves _ endpoint threads after here (accepted_requests threads thread _ _ _ _ _ outcome)
          · next after outcome =>
              cases done
              refine .accept endpoint thread succeeds threads after here ?_
              rw [accepted_requests threads thread _ _ _ _ _ outcome, Bool.true_and]
              cases server.stopped <;> rfl
  | serve endpoint thread incoming now copying =>
      simp only [step] at done
      split at done
      · cases done
        exact .still _
      · next threads here =>
          split at done
          · cases done
            exact .still _
          · next counter request serves =>
              cases done
              exact .serve endpoint thread incoming now copying threads _ request here
                (servedBy_requests threads thread counter request serves threads.endpoint)
  | leave endpoint thread =>
      simp only [step] at done
      split at done
      · cases done
        exact .still _
      · next threads here =>
          obtain ⟨after, left, done⟩ := bind_eq_ok _ _ _ done
          cases done
          exact .moves _ endpoint threads after here (leave_requests threads thread after left)
  | replay image heap now copying =>
      cases done
      exact .replay image heap now copying
  | acquire pool index copied =>
      cases done
      exact .acquire pool index copied
  | handle pool index now later components copying =>
      cases done
      exact .handle pool index now later components copying
  | stop =>
      cases done
      exact .stop
  | stopPool pool =>
      cases done
      exact .stopPool pool

theorem accept_steps (endpoint : Nat) (threads after : EndpointThreads)
    (here : server.endpoints[endpoint]? = some threads)
    (came : after.requests = if server.stopped then threads.requests
      else server.container.requests.length ::ₘ threads.requests) :
    Ledger.Steps server.ledger (FCGIServer.ledger { server.setEndpoint endpoint after with
      container := if server.stopped then server.container.accept.drop server.container.requests.length
        else server.container.accept }) := by
  have moved := server.setEndpoint_hands endpoint threads after here
  have taken := server.container.append_steps server.hands (Container.newConversation []) rfl
  rw [came] at moved
  cases stopped : server.stopped with
  | false =>
      simp only [stopped, Bool.false_eq_true, if_false, Multiset.add_cons] at moved
      rw [← Multiset.cons_add] at moved
      have hands := add_right_cancel moved
      have same : FCGIServer.ledger { server.setEndpoint endpoint after with
            container := if false then server.container.accept.drop server.container.requests.length
              else server.container.accept } =
          server.container.accept.ledger
            (server.container.requests.length ::ₘ server.hands + server.container.pooled) := by
        rw [← hands]
        rfl
      rw [same]
      exact taken
  | true =>
      simp only [stopped, if_true] at moved
      have hands := add_right_cancel moved
      have same : FCGIServer.ledger { server.setEndpoint endpoint after with
            container := if true then server.container.accept.drop server.container.requests.length
              else server.container.accept } =
          (server.container.accept.drop server.container.requests.length).ledger
            (server.hands + server.container.pooled) := by
        rw [← hands]
        rfl
      rw [same]
      exact taken.trans (server.container.accept.drop_steps server.container.requests.length server.hands)

theorem step_steps (action : Action γ η φ) (next : FCGIServer γ η φ) (balanced : server.ledger.Balanced)
    (done : server.step action = .ok next) : Ledger.Steps server.ledger next.ledger := by
  cases server.step_transition action next done with
  | still => exact .refl
  | moves _ endpoint threads after here same => rw [server.setEndpoint_same endpoint threads after here same]
  | accept endpoint thread succeeds threads after here came => exact server.accept_steps endpoint threads after here came
  | serve endpoint thread incoming now copying threads after request here had =>
      have moved := server.setEndpoint_hands endpoint threads after here
      rw [had, Multiset.add_cons, ← Multiset.cons_add] at moved
      have hands := add_right_cancel moved
      have before : server.ledger = server.container.ledger
          (request ::ₘ (server.setEndpoint endpoint after).hands + server.container.pooled) := by
        rw [hands]
        rfl
      rw [before] at balanced ⊢
      exact server.container.serve_steps request now copying _ threads.endpoint.keepConnection incoming balanced
  | replay image heap now copying => exact server.container.replay_steps now copying server.hands image heap
  | acquire pool index copied => rw [server.updatePool_same pool _ (fun pool => pool.acquire_tasks index copied)]
  | handle pool index now later components copying =>
      exact server.container.handle_steps now copying server.hands pool index later components balanced
  | stop => exact .refl
  | stopPool pool => rw [server.updatePool_same pool ThreadPool.stop (fun _ => rfl)]

theorem run_steps (actions : List (Action γ η φ)) (next : FCGIServer γ η φ) (balanced : server.ledger.Balanced)
    (done : server.run actions = .ok next) : Ledger.Steps server.ledger next.ledger := by
  induction actions generalizing server with
  | nil =>
      cases done
      exact .refl
  | cons action rest ih =>
      obtain ⟨middle, first, later⟩ := bind_eq_ok _ _ _ done
      have stepped := server.step_steps action middle balanced first
      exact stepped.trans (ih middle (stepped.balanced balanced) later)

theorem start_ledger (globals : HandlerSet η φ × Globals.ThreadPoolMap (QueuedTask η φ))
    (ready : Globals.Ready globals.1 globals.2) (endpoints : List (Nat × Bool)) :
    (start (γ := γ) globals endpoints).ledger = ⟨0, 0, fun _ => ∅⟩ := by
  have hands : (start (γ := γ) globals endpoints).hands = 0 := by
    refine List.sum_eq_zero (fun part member => ?_)
    obtain ⟨threads, known, rfl⟩ := List.mem_map.mp member
    obtain ⟨endpoint, -, rfl⟩ := List.mem_map.mp known
    refine List.sum_eq_zero (fun place held => ?_)
    obtain ⟨thread, idle, rfl⟩ := List.mem_map.mp held
    rw [(List.mem_replicate.mp idle).2]
    rfl
  have tasks : (start (γ := γ) globals endpoints).container.tasks = 0 := by
    refine List.sum_eq_zero (fun part member => ?_)
    obtain ⟨⟨name, pool, settings⟩, known, rfl⟩ := List.mem_map.mp member
    have found := (OrderedMap.find?_eq_some stringLess_exact globals.2 name (pool, settings)).mpr known
    obtain ⟨queue, workers, -⟩ := ready.idle name pool settings found
    have none : (pool.workers.map Worker.tasks).sum = 0 := by
      rw [workers, List.map_replicate, List.sum_replicate]
      exact nsmul_zero _
    simp only [ThreadPool.tasks, queue, none]
    rfl
  have closed : (start (γ := γ) globals endpoints).container.closed = fun _ => ∅ := by
    funext fate
    cases fate with
    | answered => simp [Container.closed, start]
    | dropped => simp [Container.closed, start]
  simp only [ledger, held, Container.ledger, Container.pooled, hands, tasks, closed]
  rfl

/-- In every run every request that came is in one hand, or it was answered, or dropped: no two
threads and queues have it, nobody has one that is done with, and none is lost. -/
theorem each_request_in_one_hand (compile : Bytes → Except Exn Regex)
    (find : Bytes → Except Exn (Option (ComponentCasts η φ))) (config : HandlersConfig) (entries : List PoolEntry)
    (globals : HandlerSet η φ × Globals.ThreadPoolMap (QueuedTask η φ))
    (created : Globals.create compile find config entries = .ok globals) (endpoints : List (Nat × Bool))
    (actions : List (Action γ η φ)) (server : FCGIServer γ η φ)
    (ran : (start globals endpoints).run actions = .ok server) :
    server.held.Nodup ∧ (∀ request ∈ server.held, request < server.container.requests.length) ∧
      ∀ (request : Nat) (conversation : Conversation γ), server.container.requests[request]? = some conversation →
        (request ∈ server.held ↔
          conversation.exchange.request.headersSent = false ∧ request ∉ server.container.dropped) ∧
        (request ∈ server.container.dropped → conversation.exchange.request.headersSent = false) := by
  have begun := start_ledger (γ := γ) globals (Globals.create_ready compile find config entries globals created) endpoints
  have balanced : (start (γ := γ) globals endpoints).ledger.Balanced := by
    rw [begun]
    exact Ledger.balanced_empty
  have ends := (run_steps _ actions server balanced ran).balanced balanced
  refine ⟨ends.once, ends.known, ?_⟩
  intro request conversation here
  obtain ⟨inside, -⟩ := List.getElem?_eq_some_iff.mp here
  have answered : request ∈ server.container.closed .answered ↔
      conversation.exchange.request.headersSent = true := by
    simp only [Container.closed, Set.mem_ofPred_eq, here, Option.some.injEq, exists_eq_left']
  refine ⟨?_, ?_⟩
  · rw [← Bool.not_eq_true, ← answered]
    refine (ends.either request inside).trans ⟨fun unclosed => ⟨unclosed .answered, unclosed .dropped⟩, ?_⟩
    rintro ⟨unanswered, kept⟩ fate
    cases fate with
    | answered => exact unanswered
    | dropped => exact kept
  · intro dropped
    rw [← Bool.not_eq_true, ← answered]
    intro sent
    cases ends.apart request .answered .dropped sent dropped

section Sample

def sampleComponents : Components Unit Bytes Bytes where
  handler _ := ⟨fun conversation => (conversation, none), fun _ => ⟨[], rfl⟩⟩
  filter _ := ⟨fun next => next, fun _ only => only⟩

def sampleIncoming (path : String) : Container.Incoming :=
  ⟨[ascii "REQUEST_METHOD=GET", ascii "SCRIPT_NAME=" ++ ascii path], ⟨fun _ _ => ([], 0)⟩, none, []⟩

def sampleGlobals : Except Exn (HandlerSet Bytes Bytes × Globals.ThreadPoolMap (QueuedTask Bytes Bytes)) :=
  Globals.create HandlerSet.literalRegex HandlerSet.sampleCasts HandlerSet.sampleConfig [⟨ascii "pool", 1, 2, 0⟩]

/-- The second request comes while the first is handled. -/
def sampleActions : List (Action Unit Bytes Bytes) :=
  [.begin 0 0, .prepare 0 0 true, .accept 0 0 true, .serve 0 0 (sampleIncoming "/app/b") 0 (.ok ()), .leave 0 0,
    .begin 0 0, .prepare 0 0 true, .acquire (ascii "pool") 0 true, .accept 0 0 true,
    .handle (ascii "pool") 0 5 5 sampleComponents (.ok ()), .serve 0 0 (sampleIncoming "/app/b") 0 (.ok ())]

def runFrom (globals : Except Exn (HandlerSet η φ × Globals.ThreadPoolMap (QueuedTask η φ)))
    (endpoints : List (Nat × Bool)) (actions : List (Action γ η φ)) :
    Except Exn ((HandlerSet η φ × Globals.ThreadPoolMap (QueuedTask η φ)) × FCGIServer γ η φ) := do
  let globals ← globals
  let server ← (start globals endpoints).run actions
  .ok (globals, server)

theorem runFrom_seen {ω : Type} (globals : Except Exn (HandlerSet η φ × Globals.ThreadPoolMap (QueuedTask η φ)))
    (endpoints : List (Nat × Bool)) (actions : List (Action γ η φ)) (view : FCGIServer γ η φ → ω) (seen : ω)
    (done : (runFrom globals endpoints actions).map (fun ends => view ends.2) = .ok seen) :
    ∃ known server, globals = .ok known ∧ (start known endpoints).run actions = .ok server ∧ view server = seen := by
  cases ran : runFrom globals endpoints actions with
  | error exn =>
      rw [ran] at done
      cases done
  | ok ends =>
      rw [ran] at done
      obtain ⟨known, created, ran⟩ := bind_eq_ok _ _ _ ran
      obtain ⟨server, went, same⟩ := bind_eq_ok _ _ _ ran
      cases same
      exact ⟨known, server, created, went, Except.ok.inj done⟩

def fates (server : FCGIServer γ η φ) : List Bool × List Nat :=
  (server.container.requests.map (fun conversation => conversation.exchange.request.headersSent),
    server.container.dropped)

theorem each_request_in_one_hand_sample : ∃ globals server, sampleGlobals = .ok globals ∧
    (start globals [(1, true)]).run sampleActions = .ok server ∧ server.container.requests.length = 2 ∧
      0 ∉ server.held ∧ 1 ∈ server.held := by
  have seen : (runFrom sampleGlobals [(1, true)] sampleActions).map (fun ends => fates ends.2) =
      .ok ([true, false], []) := by
    decide +kernel
  obtain ⟨globals, server, created, ran, same⟩ := runFrom_seen _ _ _ fates _ seen
  obtain ⟨requests, dropped⟩ := Prod.mk.inj same
  obtain ⟨first, rest, split, sent, requests⟩ := List.map_eq_cons_iff.mp requests
  obtain ⟨second, last, rfl, unsent, requests⟩ := List.map_eq_cons_iff.mp requests
  obtain rfl := List.map_eq_nil_iff.mp requests
  obtain ⟨-, -, each⟩ := each_request_in_one_hand HandlerSet.literalRegex HandlerSet.sampleCasts
    HandlerSet.sampleConfig [⟨ascii "pool", 1, 2, 0⟩] globals created [(1, true)] sampleActions server ran
  refine ⟨globals, server, created, ran, by rw [split]; rfl, ?_, ?_⟩
  · intro member
    have unanswered := ((each 0 first (by rw [split]; rfl)).1.mp member).1
    rw [sent] at unanswered
    cases unanswered
  · exact (each 1 second (by rw [split]; rfl)).1.mpr ⟨unsent, by simp [dropped]⟩

end Sample

end FCGIServer

end FastcgiContainer
