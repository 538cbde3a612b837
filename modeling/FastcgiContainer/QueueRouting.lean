import FastcgiContainer.Custody

/-! Where the tasks of requests are: in the pools that the configuration names for them, with
the filters and handlers that it names; and which requests are dropped. -/

namespace FastcgiContainer

open Word (Bytes)

namespace Container

variable {γ η φ : Type}

structure SameSetup (before after : Container γ η φ) : Prop where
  handlers : after.handlers = before.handlers
  pools : ∀ name, (after.pools.find? name).isSome = (before.pools.find? name).isSome

namespace SameSetup

theorem of_eq {before after : Container γ η φ} (handlers : after.handlers = before.handlers)
    (pools : after.pools = before.pools) : SameSetup before after :=
  ⟨handlers, fun _ => by rw [pools]⟩

theorem refl (container : Container γ η φ) : SameSetup container container := of_eq rfl rfl

theorem trans {first second third : Container γ η φ} (left : SameSetup first second) (right : SameSetup second third) :
    SameSetup first third :=
  ⟨right.handlers.trans left.handlers, fun name => (right.pools name).trans (left.pools name)⟩

variable (container : Container γ η φ)

theorem assign {poolName : Bytes} {value next : ThreadPool (QueuedTask η φ) × RequestsThreadPool}
    (found : container.pools.find? poolName = some value) :
    SameSetup container { container with pools := container.pools.assign poolName next } := by
  refine ⟨rfl, fun name => ?_⟩
  simp only [OrderedMap.find?_assign stringLess_exact]
  split
  · next same => simp [← same, found]
  · rfl

theorem updatePool (poolName : Bytes) (change : ThreadPool (QueuedTask η φ) → ThreadPool (QueuedTask η φ)) :
    SameSetup container (container.updatePool poolName change) := by
  unfold Container.updatePool
  split
  · exact refl container
  · next found => exact assign container found

theorem answer (request : Nat) (call : Exchange → Exchange.Outcome) :
    SameSetup container (container.answer request call).1 := by
  unfold Container.answer
  split
  · exact refl container
  · exact ⟨rfl, fun _ => rfl⟩

theorem addToPool (poolName : Bytes) (task : QueuedTask η φ) (now : Int) (copying : Except Exn Unit) :
    SameSetup container (container.addToPool poolName task now copying).1 := by
  unfold Container.addToPool
  split
  · exact refl container
  · next found =>
      split
      · exact assign container found
      · exact answer container _ _

theorem dispatch (request : Nat) (now : Int) (copying : Except Exn Unit) :
    SameSetup container (container.dispatch request now copying).1 := by
  unfold Container.dispatch
  split
  · exact refl container
  · split
    · exact refl container
    · split
      · exact refl container
      · split
        · exact addToPool container _ _ _ _
        · split
          · exact answer container _ _
          · exact addToPool container _ _ _ _

theorem handle (poolName : Bytes) (index : Nat) (now later : Int) (components : Components γ η φ)
    (copying : Except Exn Unit) : SameSetup container (container.handle poolName index now later components copying) := by
  unfold Container.handle
  split
  · exact refl container
  · next settings task conversation here =>
      split
      · next ended raised _ =>
          have changed : SameSetup container (container.setConversation task.request ended) := of_eq rfl rfl
          exact changed.trans (updatePool _ poolName _)
      · next broken exn _ =>
          have changed : SameSetup container ((container.setConversation task.request broken).drop task.request) :=
            of_eq rfl rfl
          exact changed.trans (updatePool _ poolName _)
      · next again _ =>
          have changed : SameSetup container (container.setConversation task.request again) := of_eq rfl rfl
          have dispatched := changed.trans (dispatch _ task.request later copying)
          split
          · next next outcome =>
              rw [outcome] at dispatched
              exact dispatched.trans (updatePool next poolName _)
          · next next raised outcome =>
              rw [outcome] at dispatched
              have dropped : SameSetup next (next.drop task.request) := of_eq rfl rfl
              exact (dispatched.trans dropped).trans (updatePool _ poolName _)

theorem serve (request : Nat) (keepConnection : Bool) (incoming : Incoming) (now : Int) (copying : Except Exn Unit) :
    SameSetup container (container.serve request keepConnection incoming now copying) := by
  unfold Container.serve
  split
  · exact answer container _ _
  · next attached _ =>
      have changed : SameSetup container (container.setConversation request attached) := of_eq rfl rfl
      have dispatched := changed.trans (dispatch _ request now copying)
      split
      · next next outcome =>
          rw [outcome] at dispatched
          exact dispatched
      · next next raised outcome =>
          rw [outcome] at dispatched
          exact dispatched.trans (answer next _ _)

theorem replay (image : DataBuffer) (heap : Heap) (now : Int) (copying : Except Exn Unit) :
    SameSetup container (container.replay image heap now copying) := by
  unfold Container.replay
  split
  · exact refl container
  · next request _ =>
      have changed : SameSetup container
          (container.append { newConversation heap with exchange := ⟨request, []⟩ }) := of_eq rfl rfl
      have dispatched := changed.trans (dispatch _ container.requests.length now copying)
      dsimp only [append] at dispatched ⊢
      split
      · next next outcome =>
          rw [outcome] at dispatched
          exact dispatched
      · next last raised outcome =>
          rw [outcome] at dispatched
          have dropped : SameSetup last (last.drop container.requests.length) := of_eq rfl rfl
          exact dispatched.trans dropped

end SameSetup

variable (container : Container γ η φ)

/-- A task that is in the pool that its request is meant for, with its filters and handlers. -/
def Placed (placed : Bytes × QueuedTask η φ) : Prop :=
  ∃ conversation, container.requests[placed.2.request]? = some conversation ∧
    container.handlers.Routed conversation.exchange.request placed.1 placed.2

section Outcome

variable {container} {request : Nat} {rest : Multiset (Bytes × QueuedTask η φ)} {after : Container γ η φ}
  {unrestored : Conversation γ → Prop} (outcome : container.Outcome unrestored request rest after)

include outcome

theorem Outcome.others (query : Nat) (other : query ≠ request) :
    after.requests[query]? = container.requests[query]? := by
  cases outcome with
  | queued last unsent poolName task named routed requests dropped tasks =>
      rw [requests, List.getElem?_set_ne (Ne.symm other)]
  | answered last sent requests dropped tasks => rw [requests, List.getElem?_set_ne (Ne.symm other)]
  | dropped last unsent broken requests dropped tasks => rw [requests, List.getElem?_set_ne (Ne.symm other)]

theorem Outcome.placed (inside : request < container.requests.length) (setup : SameSetup container after)
    (apart : ∀ placed ∈ rest, placed.2.request ≠ request) (before : ∀ placed ∈ rest, container.Placed placed) :
    ∀ placed ∈ after.tasks, after.Placed placed := by
  have old : ∀ placed ∈ rest, after.Placed placed := by
    intro placed member
    obtain ⟨conversation, here, routed⟩ := before placed member
    refine ⟨conversation, ?_, setup.handlers ▸ routed⟩
    rw [outcome.others placed.2.request (apart placed member)]
    exact here
  cases outcome with
  | queued last unsent poolName task named routed requests dropped tasks =>
      intro placed member
      rw [tasks] at member
      rcases Multiset.mem_cons.mp member with rfl | member
      · refine ⟨last, ?_, setup.handlers ▸ routed⟩
        rw [requests, named, List.getElem?_set_self inside]
      · exact old placed member
  | answered last sent requests dropped tasks => exact tasks ▸ old
  | dropped last unsent broken requests dropped tasks => exact tasks ▸ old

end Outcome

def Unrouted (handlers : HandlerSet η φ) (request : Request) : Prop :=
  ∃ exn, handlers.findURIFilters request [] = .error exn ∨ handlers.findURIHandler request = .error exn

def Pooled : Prop := ∀ name, (container.pools.find? name).isSome ↔ name ∈ container.handlers.getPoolsNeeded

theorem SameSetup.pooled {before after : Container γ η φ} (same : SameSetup before after) (pooled : before.Pooled) :
    after.Pooled := by
  intro name
  rw [same.pools, same.handlers]
  exact pooled name

theorem Broken.pooled {unrestored : Conversation γ → Prop} {conversation : Conversation γ} (pooled : container.Pooled)
    (broken : container.Broken unrestored conversation) :
    Unrouted container.handlers conversation.exchange.request ∨ unrestored conversation := by
  cases broken with
  | unrouted exn failed => exact Or.inl ⟨exn, failed⟩
  | unrestored failed => exact Or.inr failed
  | unpooled poolName task routed missing =>
      have present : (container.pools.find? poolName).isSome := by
        rw [pooled]
        exact routed.needed
      rw [missing] at present
      cases present

/-- What every step keeps, if these requests are held: it changes none but these, the tasks are
where they belong, and what is dropped is dropped for a reason. -/
structure Advance (held : Multiset Nat) (why : Nat → Conversation γ → Prop) (before after : Container γ η φ) :
    Prop where
  setup : SameSetup before after
  others : ∀ query < before.requests.length, query ∉ held → after.requests[query]? = before.requests[query]?
  placed : (∀ placed ∈ before.tasks, before.Placed placed) → ∀ placed ∈ after.tasks, after.Placed placed
  lost : ∀ request ∈ after.dropped, request ∉ before.dropped →
    ∃ conversation, after.requests[request]? = some conversation ∧ why request conversation

namespace Advance

variable {container} {held : Multiset Nat} {why : Nat → Conversation γ → Prop}

theorem same {after : Container γ η φ} (setup : SameSetup container after) (requests : after.requests = container.requests)
    (dropped : after.dropped = container.dropped) (tasks : after.tasks = container.tasks) :
    Advance held why container after := by
  refine ⟨setup, fun _ _ _ => by rw [requests], ?_, ?_⟩
  · intro before placed member
    obtain ⟨conversation, here, routed⟩ := before placed (tasks ▸ member)
    exact ⟨conversation, requests ▸ here, setup.handlers ▸ routed⟩
  · exact fun request member fresh => absurd (dropped ▸ member) fresh

theorem updatePool (poolName : Bytes) (change : ThreadPool (QueuedTask η φ) → ThreadPool (QueuedTask η φ))
    (kept : ∀ pool, (change pool).tasks = pool.tasks) :
    Advance held why container (container.updatePool poolName change) :=
  same (SameSetup.updatePool container poolName change) (container.updatePool_requests poolName change)
    (container.updatePool_dropped poolName change) (container.updatePool_tasks poolName change kept)

theorem append (new : Conversation γ) : Advance held why container (container.append new) := by
  have old : ∀ (query : Nat) (conversation : Conversation γ), container.requests[query]? = some conversation →
      (container.append new).requests[query]? = some conversation := by
    intro query conversation here
    obtain ⟨inside, -⟩ := List.getElem?_eq_some_iff.mp here
    rw [Container.append, List.getElem?_append_left inside]
    exact here
  refine ⟨.of_eq rfl rfl, ?_, ?_, ?_⟩
  · intro query inside _
    rw [Container.append, List.getElem?_append_left inside]
  · intro before placed member
    obtain ⟨conversation, here, routed⟩ := before placed member
    exact ⟨conversation, old _ _ here, routed⟩
  · exact fun request member fresh => absurd member fresh

theorem trans {middle last : Container γ η φ} {other : Multiset Nat} (first : Advance held why container middle)
    (second : Advance other why middle last) (grows : container.requests.length ≤ middle.requests.length)
    (kept : middle.dropped = container.dropped) (new : ∀ query ∈ other, query ∈ held ∨ container.requests.length ≤ query) :
    Advance held why container last := by
  refine ⟨first.setup.trans second.setup, ?_, second.placed ∘ first.placed, kept ▸ second.lost⟩
  intro query inside unheld
  have elsewhere : query ∉ other := fun member =>
    (new query member).elim unheld (fun beyond => absurd inside (not_lt.mpr beyond))
  rw [second.others query (lt_of_lt_of_le inside grows) elsewhere, first.others query inside unheld]

theorem outcome {request : Nat} {rest : Multiset (Bytes × QueuedTask η φ)} {after : Container γ η φ}
    {unrestored : Conversation γ → Prop} (outcome : container.Outcome unrestored request rest after)
    (setup : SameSetup container after) (pooled : container.Pooled)
    (reason : ∀ conversation, Unrouted container.handlers conversation.exchange.request ∨ unrestored conversation →
      why request conversation) (hands : Multiset Nat)
    (balanced : (container.ledger (request ::ₘ hands + requestsOf rest)).Balanced) (part : rest ≤ container.tasks) :
    Advance (request ::ₘ hands + requestsOf rest) why container after := by
  have held : request ∈ request ::ₘ hands + requestsOf rest :=
    Multiset.mem_add.mpr (Or.inl (Multiset.mem_cons_self request hands))
  have inside : request < container.requests.length := balanced.known request held
  have once : (request ::ₘ hands + requestsOf rest).Nodup := balanced.once
  rw [Multiset.cons_add, Multiset.nodup_cons] at once
  refine ⟨setup, ?_, ?_, ?_⟩
  · intro query _ unheld
    exact outcome.others query (fun same => unheld (same ▸ held))
  · intro before
    refine outcome.placed inside setup ?_ (fun placed member => before placed (Multiset.mem_of_le part member))
    intro placed member same
    refine once.1 (Multiset.mem_add.mpr (Or.inr ?_))
    exact Multiset.mem_map.mpr ⟨placed, member, same⟩
  · intro query member fresh
    cases outcome with
    | queued last unsent poolName task named routed requests dropped tasks => exact absurd (dropped ▸ member) fresh
    | answered last sent requests dropped tasks => exact absurd (dropped ▸ member) fresh
    | dropped last unsent broken requests dropped tasks =>
        rw [dropped, List.mem_append, List.mem_singleton] at member
        obtain rfl := member.resolve_left fresh
        refine ⟨last, ?_, reason last (broken.pooled container pooled)⟩
        rw [requests, List.getElem?_set_self inside]

end Advance

section Steps

variable {container} {why : Nat → Conversation γ → Prop} {hands : Multiset Nat} (pooled : container.Pooled)
  (unrouted : ∀ request conversation, Unrouted container.handlers conversation.exchange.request →
    why request conversation) (now : Int) (copying : Except Exn Unit)

include pooled unrouted

theorem handle_advance (balanced : (container.ledger (hands + container.pooled)).Balanced) (poolName : Bytes)
    (index : Nat) (later : Int) (components : Components γ η φ)
    (unrestored : ∀ request conversation, container.Unrestored poolName index now components request conversation →
      why request conversation) :
    Advance (hands + container.pooled) why container
      (container.handle poolName index now later components copying) := by
  have setup := SameSetup.handle container poolName index now later components copying
  cases here : container.taskAt poolName index with
  | none =>
      have idle : container.handle poolName index now later components copying = container := by
        simp only [handle, here]
      rw [idle]
      exact .same (.refl container) rfl rfl rfl
  | some found =>
      obtain ⟨settings, task, conversation⟩ := found
      obtain ⟨rest, tasks, outcome⟩ := container.handle_outcome here now later components copying
      have held : hands + container.pooled = task.request ::ₘ hands + requestsOf rest := by
        simp [Container.pooled, requestsOf, tasks]
      rw [held] at balanced ⊢
      exact .outcome outcome setup pooled (fun last => Or.rec (unrouted _ last) (unrestored _ last)) hands balanced
        (tasks ▸ Multiset.le_cons_self rest _)

theorem serve_advance {request : Nat}
    (balanced : (container.ledger (request ::ₘ hands + container.pooled)).Balanced) (keepConnection : Bool)
    (incoming : Incoming) : Advance (request ::ₘ hands + container.pooled) why container
      (container.serve request keepConnection incoming now copying) := by
  obtain ⟨conversation, known, unsent⟩ := container.held_unsent balanced
    (Multiset.mem_add.mpr (Or.inl (Multiset.mem_cons_self request hands)))
  exact .outcome (container.serve_outcome (fun _ => False) known unsent keepConnection incoming now copying)
    (SameSetup.serve container request keepConnection incoming now copying) pooled
    (fun last => Or.rec (unrouted _ last) False.elim) hands balanced (le_refl _)

theorem replay_advance (balanced : (container.ledger (hands + container.pooled)).Balanced) (image : DataBuffer)
    (heap : Heap) :
    Advance (hands + container.pooled) why container (container.replay image heap now copying) := by
  have setup := SameSetup.replay container image heap now copying
  rcases container.replay_outcome (fun _ => False) image heap now copying with same | ⟨new, unsent, outcome⟩
  · rw [same]
    exact .same (.refl container) rfl rfl rfl
  · have taken := (container.append_steps hands new unsent).balanced balanced
    have later : Advance (container.requests.length ::ₘ hands + container.pooled) why (container.append new)
        (container.replay image heap now copying) :=
      .outcome outcome ⟨setup.handlers, setup.pools⟩ pooled (fun last => Or.rec (unrouted _ last) False.elim) hands
        taken (le_refl _)
    refine (Advance.append new).trans later (by simp [append]) rfl ?_
    intro query member
    rw [Multiset.cons_add, Multiset.mem_cons] at member
    rcases member with rfl | member
    · exact Or.inr (le_refl _)
    · exact Or.inl member

end Steps

theorem accept_advance (held : Multiset Nat) (stopped : Bool) : Advance held
      (fun request conversation => stopped = true ∧ request = container.requests.length ∧
        conversation = newConversation []) container
      (if stopped then container.accept.drop container.requests.length else container.accept) := by
  have taken : Advance held (fun request conversation => stopped = true ∧ request = container.requests.length ∧
      conversation = newConversation []) container container.accept := .append (newConversation [])
  cases stopped with
  | false => exact taken
  | true =>
      refine ⟨.of_eq rfl rfl, taken.others, taken.placed, ?_⟩
      intro request member fresh
      obtain rfl := List.mem_singleton.mp ((List.mem_append.mp member).resolve_left fresh)
      exact ⟨newConversation [], by simp [accept, drop], rfl, rfl, rfl⟩

end Container

namespace FCGIServer

variable {γ η φ : Type}

/-- Why a step lets a request go without an answer: it is not known what the request is for, or what it
is to be restored from cannot be read, or it comes after the stop. -/
inductive LetGo (server : FCGIServer γ η φ) (request : Nat) (conversation : Conversation γ) : Action γ η φ → Prop where
  | unrouted (action : Action γ η φ)
      (failed : Container.Unrouted server.container.handlers conversation.exchange.request) :
      LetGo server request conversation action
  | unrestored (pool : Bytes) (index : Nat) (now later : Int) (components : Components γ η φ)
      (copying : Except Exn Unit)
      (failed : server.container.Unrestored pool index now components request conversation) :
      LetGo server request conversation (.handle pool index now later components copying)
  | late (endpoint thread : Nat) (succeeds : Bool) (stopped : server.stopped = true)
      (taken : request = server.container.requests.length) (new : conversation = Container.newConversation []) :
      LetGo server request conversation (.accept endpoint thread succeeds)

structure Orderly (server : FCGIServer γ η φ) : Prop where
  balanced : server.ledger.Balanced
  pooled : server.container.Pooled
  placed : ∀ placed ∈ server.container.tasks, server.container.Placed placed

theorem step_advance (server next : FCGIServer γ η φ) (action : Action γ η φ) (balanced : server.ledger.Balanced)
    (pooled : server.container.Pooled) (done : server.step action = .ok next) :
    Container.Advance server.held (fun request conversation => server.LetGo request conversation action)
      server.container next.container := by
  have unrouted : ∀ (request : Nat) (conversation : Conversation γ),
      Container.Unrouted server.container.handlers conversation.exchange.request →
        server.LetGo request conversation action := fun _ _ failed => .unrouted action failed
  cases server.step_transition action next done with
  | still => exact .same (.refl _) rfl rfl rfl
  | moves => exact .same (.refl _) rfl rfl rfl
  | accept endpoint thread succeeds threads after here came =>
      have advance := server.container.accept_advance server.held server.stopped
      refine ⟨advance.setup, advance.others, advance.placed, ?_⟩
      intro request member fresh
      obtain ⟨conversation, here, stopped, taken, new⟩ := advance.lost request member fresh
      exact ⟨conversation, here, .late endpoint thread succeeds stopped taken new⟩
  | serve endpoint thread incoming now copying threads after request here had =>
      have moved := server.setEndpoint_hands endpoint threads after here
      rw [had, Multiset.add_cons, ← Multiset.cons_add] at moved
      have held : server.held =
          request ::ₘ (server.setEndpoint endpoint after).hands + server.container.pooled := by
        rw [add_right_cancel moved]
        rfl
      have accounts : (server.container.ledger server.held).Balanced := balanced
      rw [held] at accounts ⊢
      exact Container.serve_advance pooled unrouted now copying accounts threads.endpoint.keepConnection incoming
  | replay image heap now copying => exact Container.replay_advance pooled unrouted now copying balanced image heap
  | acquire pool index copied => exact .updatePool pool _ (fun pool => pool.acquire_tasks index copied)
  | handle pool index now later components copying =>
      exact Container.handle_advance pooled unrouted now copying balanced pool index later components
        (fun _ _ failed => .unrestored pool index now later components copying failed)
  | stop => exact .same (.refl _) rfl rfl rfl
  | stopPool pool => exact .updatePool pool ThreadPool.stop (fun _ => rfl)

theorem step_stopped (server next : FCGIServer γ η φ) (action : Action γ η φ) (done : server.step action = .ok next)
    (stopped : server.stopped = true) : next.stopped = true := by
  cases server.step_transition action next done with
  | stop => rfl
  | _ => exact stopped

theorem Orderly.step {server next : FCGIServer γ η φ} {action : Action γ η φ} (orderly : server.Orderly)
    (done : server.step action = .ok next) : next.Orderly := by
  have advance := step_advance server next action orderly.balanced orderly.pooled done
  exact ⟨(server.step_steps action next orderly.balanced done).balanced orderly.balanced,
    advance.setup.pooled orderly.pooled, advance.placed orderly.placed⟩

theorem Orderly.run {server last : FCGIServer γ η φ} {actions : List (Action γ η φ)} (orderly : server.Orderly)
    (ran : server.run actions = .ok last) :
    last.Orderly ∧ Container.SameSetup server.container last.container ∧
      ∀ fate, ∀ request ∈ server.container.closed fate,
        last.container.requests[request]? = server.container.requests[request]? := by
  induction actions generalizing server with
  | nil =>
      cases ran
      exact ⟨orderly, .refl _, fun _ _ _ => rfl⟩
  | cons action rest ih =>
      obtain ⟨middle, first, later⟩ := bind_eq_ok _ _ _ ran
      have advance := step_advance server middle action orderly.balanced orderly.pooled first
      have steps := server.step_steps action middle orderly.balanced first
      obtain ⟨ends, setup, same⟩ := ih (orderly.step first) later
      refine ⟨ends, advance.setup.trans setup, ?_⟩
      intro fate request done
      have inside : request < server.container.requests.length := orderly.balanced.taken fate request done
      have unheld : request ∉ server.held := fun held => orderly.balanced.open held fate done
      rw [same fate request (steps.closed fate done)]
      exact advance.others request inside unheld

theorem Orderly.run_lost {server last : FCGIServer γ η φ} {actions : List (Action γ η φ)} (orderly : server.Orderly)
    (ran : server.run actions = .ok last) (request : Nat) (dropped : request ∈ last.container.dropped)
    (fresh : request ∉ server.container.dropped) :
    ∃ before action rest past next conversation, actions = before ++ action :: rest ∧
      server.run before = .ok past ∧ past.step action = .ok next ∧ request ∉ past.container.dropped ∧
      request ∈ next.container.dropped ∧ last.container.requests[request]? = some conversation ∧
      past.LetGo request conversation action := by
  induction actions generalizing server with
  | nil =>
      cases ran
      exact absurd dropped fresh
  | cons action rest ih =>
      obtain ⟨middle, first, later⟩ := bind_eq_ok _ _ _ ran
      by_cases here : request ∈ middle.container.dropped
      · -- the first step drops it, and it is not touched again
        obtain ⟨conversation, known, why⟩ :=
          (step_advance server middle action orderly.balanced orderly.pooled first).lost request here fresh
        obtain ⟨-, -, same⟩ := (orderly.step first).run later
        exact ⟨[], action, rest, server, middle, conversation, rfl, rfl, first, fresh, here,
          (same .dropped request here).trans known, why⟩
      · obtain ⟨before, other, after, past, next, conversation, split, ran, drops, kept, gone, known, why⟩ :=
          ih (orderly.step first) later here
        refine ⟨action :: before, other, after, past, next, conversation, by rw [split]; rfl, ?_, drops, kept, gone,
          known, why⟩
        rw [FCGIServer.run, List.foldlM_cons, first]
        exact ran

theorem start_orderly (globals : HandlerSet η φ × Globals.ThreadPoolMap (QueuedTask η φ))
    (ready : Globals.Ready globals.1 globals.2) (endpoints : List (Nat × Bool)) :
    (start (γ := γ) globals endpoints).Orderly := by
  have begun := start_ledger (γ := γ) globals ready endpoints
  have nothing : (start (γ := γ) globals endpoints).held = 0 := congrArg Ledger.held begun
  refine ⟨?_, ready.found, ?_⟩
  · rw [begun]
    exact Ledger.balanced_empty
  · intro placed member
    have held : placed.2.request ∈ (start (γ := γ) globals endpoints).held :=
      Multiset.mem_add.mpr (Or.inr (Multiset.mem_map.mpr ⟨placed, member, rfl⟩))
    rw [nothing] at held
    exact absurd held (Multiset.notMem_zero _)

theorem mem_tasks (container : Container γ η φ) (poolName : Bytes) (pool : ThreadPool (QueuedTask η φ))
    (settings : RequestsThreadPool) (found : container.pools.find? poolName = some (pool, settings))
    (task : QueuedTask η φ) (has : task ∈ pool.tasksQueue ∨ .handling task ∈ pool.workers) :
    (poolName, task) ∈ container.tasks := by
  have listed := (OrderedMap.find?_eq_some stringLess_exact container.pools poolName (pool, settings)).mp found
  have mine : task ∈ pool.tasks := by
    refine Multiset.mem_add.mpr (has.imp id (fun working => ?_))
    exact Multiset.mem_of_le (List.single_le_sum (fun _ _ => Multiset.zero_le _) _
      (List.mem_map_of_mem (f := Worker.tasks) working)) (Multiset.mem_singleton_self task)
  exact Multiset.mem_of_le (List.single_le_sum (fun _ _ => Multiset.zero_le _) _
    (List.mem_map_of_mem (f := fun entry : Bytes × ThreadPool (QueuedTask η φ) × RequestsThreadPool =>
      entry.2.1.tasks.map (Prod.mk entry.1)) listed)) (Multiset.mem_map_of_mem (Prod.mk poolName) mine)

section Runs

variable (compile : Bytes → Except Exn Regex) (find : Bytes → Except Exn (Option (ComponentCasts η φ)))
  (config : HandlersConfig) (entries : List PoolEntry)
  (globals : HandlerSet η φ × Globals.ThreadPoolMap (QueuedTask η φ))
  (created : Globals.create compile find config entries = .ok globals) (endpoints : List (Nat × Bool))
  (actions : List (Action γ η φ)) (server : FCGIServer γ η φ) (ran : (start globals endpoints).run actions = .ok server)

include created ran

theorem run_orderly : server.Orderly ∧ server.container.handlers = globals.1 := by
  have begun := start_orderly (γ := γ) globals (Globals.create_ready compile find config entries globals created) endpoints
  obtain ⟨ends, setup, -⟩ := begun.run ran
  exact ⟨ends, setup.handlers⟩

/-- In every run each task, in a queue or with a thread, is in the pool of the handler that its
request is for, and has the components of that handler and the filters of the request; if the
request has no handler, the task is in the default pool and has the filters alone. -/
theorem tasks_are_in_their_pools (poolName : Bytes) (pool : ThreadPool (QueuedTask η φ)) (settings : RequestsThreadPool)
    (found : server.container.pools.find? poolName = some (pool, settings)) (task : QueuedTask η φ)
    (has : task ∈ pool.tasksQueue ∨ .handling task ∈ pool.workers) :
    ∃ conversation, server.container.requests[task.request]? = some conversation ∧
      globals.1.Routed conversation.exchange.request poolName task := by
  obtain ⟨orderly, handlers⟩ := run_orderly compile find config entries globals created endpoints actions server ran
  obtain ⟨conversation, here, routed⟩ := orderly.placed _ (mem_tasks _ poolName pool settings found task has)
  exact ⟨conversation, here, handlers ▸ routed⟩

/-- In every run the pool that is looked for is there, and a request is answered, or some thread or
queue has it, or a step of the run has let it go: because its filters or handlers cannot be
determined, because it was to be restored from an image and this cannot be read, or because it
came after the stop. -/
theorem unanswered_requests_are_known :
    (∀ (request : Request) (poolName : Bytes) (task : QueuedTask η φ), globals.1.Routed request poolName task →
      (server.container.pools.find? poolName).isSome) ∧
    ∀ (request : Nat) (conversation : Conversation γ), server.container.requests[request]? = some conversation →
      conversation.exchange.request.headersSent = true ∨ request ∈ server.held ∨
        ∃ before action rest past next, actions = before ++ action :: rest ∧
          (start globals endpoints).run before = .ok past ∧ past.step action = .ok next ∧
          request ∉ past.container.dropped ∧ request ∈ next.container.dropped ∧
          past.LetGo request conversation action := by
  have begun := start_orderly (γ := γ) globals (Globals.create_ready compile find config entries globals created) endpoints
  obtain ⟨orderly, handlers⟩ := run_orderly compile find config entries globals created endpoints actions server ran
  refine ⟨?_, ?_⟩
  · intro request poolName task routed
    rw [orderly.pooled, handlers]
    exact routed.needed
  · intro request conversation here
    obtain ⟨inside, -⟩ := List.getElem?_eq_some_iff.mp here
    by_cases held : request ∈ server.held
    · exact Or.inr (Or.inl held)
    · by_cases dropped : request ∈ server.container.dropped
      · obtain ⟨before, action, rest, past, next, other, split, went, drops, kept, gone, known, why⟩ :=
          begun.run_lost ran request dropped nofun
        rw [here] at known
        cases known
        exact Or.inr (Or.inr ⟨before, action, rest, past, next, split, went, drops, kept, gone, why⟩)
      · left
        by_contra unsent
        refine held ((orderly.balanced.either request inside).mpr (fun fate closed => ?_))
        cases fate with
        | answered =>
            obtain ⟨other, known, sent⟩ := closed
            rw [here] at known
            cases known
            exact unsent sent
        | dropped => exact dropped closed

/-- Once a request was answered or dropped, no step of any thread changes it, nor what was
written to its client. -/
theorem closed_requests_are_final (more : List (Action γ η φ)) (last : FCGIServer γ η φ)
    (went : server.run more = .ok last) (request : Nat) (conversation : Conversation γ)
    (here : server.container.requests[request]? = some conversation)
    (closed : conversation.exchange.request.headersSent = true ∨ request ∈ server.container.dropped) :
    last.container.requests[request]? = some conversation := by
  obtain ⟨orderly, -⟩ := run_orderly compile find config entries globals created endpoints actions server ran
  obtain ⟨-, -, same⟩ := orderly.run went
  rw [← here]
  rcases closed with sent | dropped
  · exact same .answered request ⟨conversation, here, sent⟩
  · exact same .dropped request dropped

end Runs

section Sample

def queueOf (poolName : Bytes) (server : FCGIServer γ η φ) : Option (List (Nat × List η)) :=
  (server.container.pools.find? poolName).map (fun pool =>
    pool.1.tasksQueue.map (fun task => (task.request, task.handlers)))

theorem tasks_are_in_their_pools_sample : ∃ globals server, sampleGlobals = .ok globals ∧
    (start globals [(1, true)]).run sampleActions = .ok server ∧
      ∃ (task : QueuedTask Bytes Bytes) (conversation : Conversation Unit), task.handlers = [ascii "second"] ∧
        server.container.requests[task.request]? = some conversation ∧
        globals.1.Routed conversation.exchange.request (ascii "pool") task := by
  have seen : (runFrom sampleGlobals [(1, true)] sampleActions).map (fun ends => queueOf (ascii "pool") ends.2) =
      .ok (some [(1, [ascii "second"])]) := by
    decide +kernel
  obtain ⟨globals, server, created, ran, same⟩ := runFrom_seen _ _ _ (queueOf (ascii "pool")) _ seen
  obtain ⟨⟨pool, settings⟩, found, queue⟩ := Option.map_eq_some_iff.mp same
  obtain ⟨task, rest, split, known, -⟩ := List.map_eq_cons_iff.mp queue
  obtain ⟨-, handlers⟩ := Prod.mk.inj known
  obtain ⟨conversation, here, routed⟩ := tasks_are_in_their_pools HandlerSet.literalRegex HandlerSet.sampleCasts
    HandlerSet.sampleConfig [⟨ascii "pool", 1, 2, 0⟩] globals created [(1, true)] sampleActions server ran
    (ascii "pool") pool settings found task (Or.inl (by rw [split]; exact List.mem_cons_self))
  exact ⟨globals, server, created, ran, task, conversation, handlers, here, routed⟩

def lateActions : List (Action Unit Bytes Bytes) := [.begin 0 0, .prepare 0 0 true, .stop, .accept 0 0 true]

theorem unanswered_requests_are_known_late : ∃ globals server conversation, sampleGlobals = .ok globals ∧
    (start globals [(1, true)]).run lateActions = .ok server ∧
      server.container.requests[0]? = some conversation ∧ ∃ before action rest past,
        lateActions = before ++ action :: rest ∧ (start globals [(1, true)]).run before = .ok past ∧
        past.LetGo 0 conversation action := by
  have seen : (runFrom sampleGlobals [(1, true)] lateActions).map (fun ends => fates ends.2) = .ok ([false], [0]) := by
    decide +kernel
  obtain ⟨globals, server, created, ran, same⟩ := runFrom_seen _ _ _ fates _ seen
  obtain ⟨requests, dropped⟩ := Prod.mk.inj same
  obtain ⟨conversation, rest, split, unsent, -⟩ := List.map_eq_cons_iff.mp requests
  have here : server.container.requests[0]? = some conversation := by
    rw [split]
    rfl
  rcases (unanswered_requests_are_known HandlerSet.literalRegex HandlerSet.sampleCasts HandlerSet.sampleConfig
    [⟨ascii "pool", 1, 2, 0⟩] globals created [(1, true)] lateActions server ran).2 0 conversation here with
    sent | held | ⟨before, action, rest, past, next, went, began, -, -, -, why⟩
  · rw [unsent] at sent
    cases sent
  · obtain ⟨orderly, -⟩ := run_orderly HandlerSet.literalRegex HandlerSet.sampleCasts HandlerSet.sampleConfig
      [⟨ascii "pool", 1, 2, 0⟩] globals created [(1, true)] lateActions server ran
    have closed : 0 ∈ server.container.closed .dropped := by
      change 0 ∈ server.container.dropped
      rw [dropped]
      exact List.mem_cons_self
    exact absurd closed (orderly.balanced.open held .dropped)
  · exact ⟨globals, server, conversation, created, ran, here, before, action, rest, past, went, began, why⟩

def moreActions : List (Action Unit Bytes Bytes) :=
  [.acquire (ascii "pool") 0 true, .handle (ascii "pool") 0 9 9 sampleComponents (.ok ())]

theorem closed_requests_are_final_sample : ∃ globals server last conversation, sampleGlobals = .ok globals ∧
    (start globals [(1, true)]).run sampleActions = .ok server ∧ server.run moreActions = .ok last ∧
      server.container.requests[0]? = some conversation ∧ last.container.requests[0]? = some conversation := by
  have seen : (runFrom sampleGlobals [(1, true)] (sampleActions ++ moreActions)).map (fun ends => fates ends.2) =
      .ok ([true, true], []) := by
    decide +kernel
  obtain ⟨globals, last, created, ran, -⟩ := runFrom_seen _ _ _ fates _ seen
  rw [run, List.foldlM_append] at ran
  obtain ⟨server, ran, went⟩ := bind_eq_ok _ _ _ ran
  have before : (runFrom sampleGlobals [(1, true)] sampleActions).map (fun ends => fates ends.2) =
      .ok ([true, false], []) := by
    decide +kernel
  have same : fates server = ([true, false], []) := by
    have begun : runFrom sampleGlobals [(1, true)] sampleActions = .ok (globals, server) := by
      rw [runFrom, created]
      exact congrArg (fun ends => ends >>= fun server => Except.ok (globals, server)) ran
    rw [begun] at before
    exact Except.ok.inj before
  obtain ⟨conversation, rest, split, sent, -⟩ := List.map_eq_cons_iff.mp (Prod.mk.inj same).1
  have here : server.container.requests[0]? = some conversation := by
    rw [split]
    rfl
  exact ⟨globals, server, last, conversation, created, ran, went, here,
    closed_requests_are_final HandlerSet.literalRegex HandlerSet.sampleCasts HandlerSet.sampleConfig
      [⟨ascii "pool", 1, 2, 0⟩] globals created [(1, true)] sampleActions server ran moreActions last went 0 conversation
      here (Or.inl sent)⟩

end Sample

end FCGIServer

end FastcgiContainer
