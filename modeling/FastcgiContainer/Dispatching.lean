import FastcgiContainer.PoolTasks
import FastcgiContainer.ResponseFrame

/-! What the steps of the container can do to a request: it is put into the queue of the pool
that it is meant for, it is answered, or its dispatch is broken off. -/

namespace FastcgiContainer

open Word (Bytes)

namespace Exchange

variable (state : Exchange) (status : Nat)

theorem sendHeadersInternal_sent (quiet : state.sendHeadersInternal.2 = none) :
    state.sendHeadersInternal.1.request.headersSent = true := by
  unfold sendHeadersInternal at quiet ⊢
  split
  · next sent => exact sent
  · next unsent =>
      rw [if_neg unsent] at quiet
      dsimp only at quiet ⊢
      split
      · next raised => simp [raised] at quiet
      · rfl

theorem sendError_unsent (unsent : state.request.headersSent = false) :
    (state.sendError status).2 = none ∧ (state.sendError status).1.request.headersSent = true := by
  simp [sendError, unsent, sendHeadersInternal, errorPage, withStatus, OrderedMap.empty, sendCookies, emit]

theorem sendError_sent : (state.sendError status).1.request.headersSent = true := by
  cases sent : state.request.headersSent with
  | false => exact (state.sendError_unsent status sent).2
  | true => simp [sendError, sent]

end Exchange

namespace RequestsThreadPool

variable {γ : Type}

theorem finish_sent (conversation : Conversation γ) (quiet : (finish conversation).2 = none) :
    (finish conversation).1.exchange.request.headersSent = true := by
  unfold finish at quiet ⊢
  split
  · next raised => simp [raised] at quiet
  · next flushed outcome =>
      simp only [outcome, Conversation.through, Option.map_eq_none_iff] at quiet
      exact flushed.exchange.sendHeadersInternal_sent quiet

theorem sendErrorUnlessSent_sends (conversation : Conversation γ) (raised : Raised) (status : UInt16) :
    (sendErrorUnlessSent conversation raised status).1.exchange.request.headersSent = true := by
  unfold sendErrorUnlessSent
  split
  · next refused =>
      unfold Request.setStatus at refused
      split at refused
      · next sent => exact sent
      · cases refused
  · exact Exchange.sendError_sent _ _

namespace Handled

/-- An answer was sent exactly by the tasks that have ended. -/
def Sound : Handled γ → Prop
  | .ended conversation _ => conversation.exchange.request.headersSent = true
  | .unrestored conversation _ => conversation.exchange.request.headersSent = false
  | .dispatched conversation => conversation.exchange.request.headersSent = false

end Handled

theorem handledDispatch_sound (conversation : Conversation γ) (exn : DispatchException) :
    (handledDispatch conversation exn).Sound := by
  unfold handledDispatch
  dsimp only
  split
  · next sent => exact sent
  · next unsent =>
      rw [Bool.not_eq_true] at unsent
      have cleared : (if exn.type = .forward then conversation.reset else conversation).exchange = conversation.exchange := by
        split <;> rfl
      generalize (if exn.type = .forward then conversation.reset else conversation) = kept at cleared ⊢
      split
      · exact (congrArg (·.request.headersSent) cleared).trans unsent
      · next request restored =>
          have same : request.headersSent = conversation.exchange.request.headersSent := by
            split at restored
            · cases restored
              rfl
            · exact congrArg Request.ResponseState.headersSent (Request.restore_response restored)
          have named : (setScriptName request exn.url).headersSent = request.headersSent := by
            unfold setScriptName
            split <;> rfl
          exact named.trans (same.trans unsent)

theorem handledRaised_sound (conversation : Conversation γ) (raised : Raised) :
    (handledRaised conversation raised).Sound := by
  cases raised with
  | dispatch exn => exact handledDispatch_sound conversation exn
  | http status => exact sendErrorUnlessSent_sends conversation (.http status) status
  | standard exn => exact sendErrorUnlessSent_sends conversation (.standard exn) 500
  | unknown => exact sendErrorUnlessSent_sends conversation .unknown 500

theorem handled_sound (pool : RequestsThreadPool) (now : Int) (task : RequestTask γ) (conversation : Conversation γ) :
    (pool.handled now task conversation).Sound := by
  unfold handled
  split
  · exact Exchange.sendError_sent _ _
  · split
    · next ended outcome =>
        unfold FilterChain.andThen at outcome
        split at outcome
        · cases outcome
        · next chained _ =>
            have quiet : (finish chained).2 = none := by rw [outcome]
            have sent := finish_sent chained quiet
            rw [outcome] at sent
            exact sent
    · next ended raised outcome => exact handledRaised_sound ended raised

/-- A filter or handler of the task throws a `DispatchException` with a stored image, and the request
cannot be restored from this image. -/
inductive Unrestored (pool : RequestsThreadPool) (now : Int) (task : RequestTask γ) (conversation : Conversation γ) :
    Conversation γ → Prop where
  | intro (chained : Conversation γ) (exn : DispatchException) (wrong : Exn)
      (due : ¬now - task.start < milliseconds pool.delay)
      (thrown : FilterChain.andThen (chain task) finish conversation = (chained, some (.dispatch exn)))
      (unsent : chained.exchange.request.headersSent = false) (stored : exn.buffer.isNil = false)
      (failed : chained.exchange.request.restore chained.heap exn.buffer = .error wrong) :
      Unrestored pool now task conversation (if exn.type = .forward then chained.reset else chained)

theorem handledDispatch_unrestored {conversation last : Conversation γ} {exn : DispatchException} {wrong : Exn}
    (outcome : handledDispatch conversation exn = .unrestored last wrong) :
    conversation.exchange.request.headersSent = false ∧ exn.buffer.isNil = false ∧
      conversation.exchange.request.restore conversation.heap exn.buffer = .error wrong ∧
      last = if exn.type = .forward then conversation.reset else conversation := by
  have kept : (if exn.type = .forward then conversation.reset else conversation).heap = conversation.heap := by
    split <;> rfl
  unfold handledDispatch at outcome
  dsimp only at outcome
  split at outcome
  · cases outcome
  · next unsent =>
      split at outcome
      · next raised failed =>
          cases outcome
          rw [kept] at failed
          split at failed
          · cases failed
          · next stored => exact ⟨by simpa using unsent, by simpa using stored, failed, rfl⟩
      · cases outcome

theorem handled_unrestored {pool : RequestsThreadPool} {now : Int} {task : RequestTask γ}
    {conversation last : Conversation γ} {wrong : Exn}
    (outcome : pool.handled now task conversation = .unrestored last wrong) :
    pool.Unrestored now task conversation last := by
  unfold handled at outcome
  split at outcome
  · cases outcome
  · next due =>
      split at outcome
      · cases outcome
      · next chained raised thrown =>
          cases raised with
          | dispatch exn =>
              obtain ⟨unsent, stored, failed, rfl⟩ := handledDispatch_unrestored outcome
              exact .intro chained exn wrong due thrown unsent stored failed
          | http status => cases outcome
          | standard exn => cases outcome
          | unknown => cases outcome

end RequestsThreadPool

namespace HandlerSet

variable {η φ : Type}

/-- The task of a request and the pool that it is put into: those of its handler, if this has
any components, or else its filters alone and the default pool. -/
structure Routed (handlers : HandlerSet η φ) (request : Request) (poolName : Bytes) (task : QueuedTask η φ) :
    Prop where
  filters : handlers.findURIFilters request [] = .ok task.filters
  handler : ∃ handler, handlers.findURIHandler request = .ok handler ∧
    ((∃ chosen, handler = some chosen ∧ chosen.handlers ≠ [] ∧ poolName = chosen.poolName ∧
        task.handlers = chosen.handlers) ∨
      ((∀ chosen, handler = some chosen → chosen.handlers = []) ∧ task.filters ≠ [] ∧
        poolName = handlers.defaultPoolName ∧ task.handlers = []))

end HandlerSet

namespace Container

variable {γ η φ : Type} (container : Container γ η φ)

@[simp] theorem setConversation_requests (request : Nat) (conversation : Conversation γ) :
    (container.setConversation request conversation).requests = container.requests.set request conversation := rfl

@[simp] theorem setConversation_pools (request : Nat) (conversation : Conversation γ) :
    (container.setConversation request conversation).pools = container.pools := rfl

@[simp] theorem setConversation_handlers (request : Nat) (conversation : Conversation γ) :
    (container.setConversation request conversation).handlers = container.handlers := rfl

@[simp] theorem setConversation_dropped (request : Nat) (conversation : Conversation γ) :
    (container.setConversation request conversation).dropped = container.dropped := rfl

theorem answer_unsent (request : Nat) (conversation : Conversation γ)
    (here : container.requests[request]? = some conversation)
    (unsent : conversation.exchange.request.headersSent = false) (status : Nat) :
    ∃ answered : Conversation γ, answered.exchange.request.headersSent = true ∧
      container.answer request (fun exchange => exchange.sendError status) =
        (container.setConversation request answered, none) := by
  obtain ⟨quiet, sent⟩ := conversation.exchange.sendError_unsent status unsent
  refine ⟨{ conversation with exchange := (conversation.exchange.sendError status).1 }, sent, ?_⟩
  simp only [answer, here, Conversation.through, quiet, Option.map_none]

/-- A thread of a pool handles the task of a request, which is to be restored and cannot be. -/
def Unrestored (poolName : Bytes) (index : Nat) (now : Int) (components : Components γ η φ) (request : Nat)
    (last : Conversation γ) : Prop :=
  ∃ settings task conversation, container.taskAt poolName index = some (settings, task, conversation) ∧
    task.request = request ∧ settings.Unrestored now
      (requestTask container.handlers components task (fun conversation => (conversation, none))) conversation last

/-- Why a request is left without an answer: the exception that breaks its dispatch off. -/
inductive Broken (unrestored : Conversation γ → Prop) (conversation : Conversation γ) : Prop where
  | unrouted (exn : Exn)
      (failed : container.handlers.findURIFilters conversation.exchange.request [] = .error exn ∨
        container.handlers.findURIHandler conversation.exchange.request = .error exn)
  | unpooled (poolName : Bytes) (task : QueuedTask η φ)
      (routed : container.handlers.Routed conversation.exchange.request poolName task)
      (missing : container.pools.find? poolName = none)
  | unrestored (failed : unrestored conversation)

/-- What becomes of a request that a thread has, where these are the tasks of the pools
besides it. -/
inductive Outcome (unrestored : Conversation γ → Prop) (request : Nat) (rest : Multiset (Bytes × QueuedTask η φ))
    (after : Container γ η φ) : Prop where
  | queued (conversation : Conversation γ) (unsent : conversation.exchange.request.headersSent = false)
      (poolName : Bytes) (task : QueuedTask η φ) (named : task.request = request)
      (routed : container.handlers.Routed conversation.exchange.request poolName task)
      (requests : after.requests = container.requests.set request conversation)
      (dropped : after.dropped = container.dropped) (tasks : after.tasks = (poolName, task) ::ₘ rest)
  | answered (conversation : Conversation γ) (sent : conversation.exchange.request.headersSent = true)
      (requests : after.requests = container.requests.set request conversation)
      (dropped : after.dropped = container.dropped) (tasks : after.tasks = rest)
  | dropped (conversation : Conversation γ) (unsent : conversation.exchange.request.headersSent = false)
      (broken : container.Broken unrestored conversation)
      (requests : after.requests = container.requests.set request conversation)
      (dropped : after.dropped = container.dropped ++ [request]) (tasks : after.tasks = rest)

section Dispatch

/-- A dispatch that ends by an exception has changed nothing. -/
inductive Dispatched (unrestored : Conversation γ → Prop) (request : Nat) (conversation : Conversation γ) :
    Container γ η φ × Option Raised → Prop where
  | passed (next : Container γ η φ) (outcome : container.Outcome unrestored request container.tasks next)
      (busy : ∀ poolName index task, container.Busy poolName index task → next.Busy poolName index task) :
      Dispatched unrestored request conversation (next, none)
  | raised (exn : Raised) (broken : container.Broken unrestored conversation) :
      Dispatched unrestored request conversation (container, some exn)

variable {unrestored : Conversation γ → Prop} (request : Nat) (conversation : Conversation γ)
  (here : container.requests[request]? = some conversation)

include here

theorem requests_set_same : container.requests.set request conversation = container.requests := by
  obtain ⟨inside, same⟩ := List.getElem?_eq_some_iff.mp here
  rw [← same, List.set_getElem_self]

variable (unsent : conversation.exchange.request.headersSent = false) (now : Int) (copying : Except Exn Unit)

include unsent

theorem answer_dispatched (status : Nat) : container.Dispatched unrestored request conversation
    (container.answer request (fun exchange => exchange.sendError status)) := by
  obtain ⟨answered, sent, done⟩ := container.answer_unsent request conversation here unsent status
  rw [done]
  exact .passed _ (.answered answered sent rfl rfl rfl) (fun _ _ _ busy => busy)

theorem addToPool_dispatched (poolName : Bytes) (task : QueuedTask η φ) (named : task.request = request)
    (routed : ∀ start, container.handlers.Routed conversation.exchange.request poolName { task with start }) :
    container.Dispatched unrestored request conversation (container.addToPool poolName task now copying) := by
  unfold addToPool
  split
  · next missing => exact .raised _ (.unpooled poolName _ (routed 0) missing)
  · next pool settings found =>
      split
      · next next added =>
          exact .passed _ (.queued conversation unsent poolName { task with start := now + milliseconds settings.delay }
            named (routed _) (container.requests_set_same request conversation here).symm rfl
            (container.addTask_tasks found added))
            (fun _ _ _ busy => container.addTask_busy found added busy)
      · next refused exn _ =>
          rw [named]
          exact container.answer_dispatched request conversation here unsent 503

theorem dispatch_dispatched :
    container.Dispatched unrestored request conversation (container.dispatch request now copying) := by
  unfold dispatch
  rw [here]
  dsimp only
  split
  · next exn failed => exact .raised _ (.unrouted exn (.inl failed))
  · next filters selected =>
      split
      · next exn failed => exact .raised _ (.unrouted exn (.inr failed))
      · next handler found =>
          split
          · next chosen kept =>
              obtain ⟨rfl, filled⟩ := Option.filter_eq_some_iff.mp kept
              have components : chosen.handlers ≠ [] := by simpa using filled
              exact container.addToPool_dispatched request conversation here unsent now copying _ _ rfl
                (fun _ => ⟨selected, some chosen, found, .inl ⟨chosen, rfl, components, rfl, rfl⟩⟩)
          · next empty =>
              have bare : ∀ chosen, handler = some chosen → chosen.handlers = [] := by
                rintro chosen rfl
                simpa using empty
              split
              · exact container.answer_dispatched request conversation here unsent 404
              · next some =>
                  have present : filters ≠ [] := by simpa using some
                  exact container.addToPool_dispatched request conversation here unsent now copying _ _ rfl
                    (fun _ => ⟨selected, handler, found, .inr ⟨bare, present, rfl, rfl⟩⟩)

end Dispatch

theorem Outcome.of_setConversation {unrestored : Conversation γ → Prop} {request : Nat}
    {rest : Multiset (Bytes × QueuedTask η φ)} {after : Container γ η φ} (conversation : Conversation γ)
    (outcome : (container.setConversation request conversation).Outcome unrestored request rest after) :
    container.Outcome unrestored request rest after := by
  have twice : ∀ last, (container.setConversation request conversation).requests.set request last =
      container.requests.set request last := by simp
  cases outcome with
  | queued last unsent poolName task named routed requests dropped tasks =>
      exact .queued last unsent poolName task named routed (requests.trans (twice last)) dropped tasks
  | answered last sent requests dropped tasks => exact .answered last sent (requests.trans (twice last)) dropped tasks
  | dropped last unsent broken requests dropped tasks =>
      refine .dropped last unsent ?_ (requests.trans (twice last)) dropped tasks
      cases broken with
      | unrouted exn failed => exact .unrouted exn failed
      | unpooled poolName task routed missing => exact .unpooled poolName task routed missing
      | unrestored failed => exact .unrestored failed

theorem Outcome.finish {unrestored : Conversation γ → Prop} {request : Nat}
    {rest : Multiset (Bytes × QueuedTask η φ)} {after : Container γ η φ} {poolName : Bytes} {index : Nat}
    {task : QueuedTask η φ}
    (outcome : container.Outcome unrestored request ((poolName, task) ::ₘ rest) after)
    (busy : after.Busy poolName index task) (returns : Bool) :
    container.Outcome unrestored request rest (after.updatePool poolName (fun pool => pool.finish index returns)) := by
  have finished := busy.finish after returns
  cases outcome with
  | queued last unsent other queued named routed requests dropped tasks =>
      rw [tasks, Multiset.cons_swap, Multiset.cons_inj_right] at finished
      exact .queued last unsent other queued named routed (by simpa using requests) (by simpa using dropped)
        finished.symm
  | answered last sent requests dropped tasks =>
      rw [tasks, Multiset.cons_inj_right] at finished
      exact .answered last sent (by simpa using requests) (by simpa using dropped) finished.symm
  | dropped last unsent broken requests dropped tasks =>
      rw [tasks, Multiset.cons_inj_right] at finished
      exact .dropped last unsent broken (by simpa using requests) (by simpa using dropped) finished.symm

theorem setConversation_here {request : Nat} {old : Conversation γ} (here : container.requests[request]? = some old)
    (new : Conversation γ) : (container.setConversation request new).requests[request]? = some new := by
  obtain ⟨inside, -⟩ := List.getElem?_eq_some_iff.mp here
  simp [inside]

theorem handle_outcome {poolName : Bytes} {index : Nat} {settings : RequestsThreadPool} {task : QueuedTask η φ}
    {conversation : Conversation γ} (here : container.taskAt poolName index = some (settings, task, conversation))
    (now later : Int) (components : Components γ η φ)
    (copying : Except Exn Unit) : ∃ rest, container.tasks = (poolName, task) ::ₘ rest ∧
      container.Outcome (container.Unrestored poolName index now components task.request) task.request rest
        (container.handle poolName index now later components copying) := by
  obtain ⟨busy, present⟩ := container.taskAt_busy here
  have tasks := busy.finish container true
  refine ⟨_, tasks, ?_⟩
  have sound := settings.handled_sound now (requestTask container.handlers components task
    (fun conversation => (conversation, none))) conversation
  simp only [handle, here]
  split
  · next ended raised outcome =>
      rw [outcome] at sound
      have answered : container.Outcome (container.Unrestored poolName index now components task.request)
          task.request container.tasks
          (container.setConversation task.request ended) := .answered ended sound rfl rfl rfl
      rw [tasks] at answered
      exact answered.finish container busy raised.isNone
  · next broken exn outcome =>
      rw [outcome] at sound
      have unrestored : container.Unrestored poolName index now components task.request broken :=
        ⟨settings, task, conversation, here, rfl, RequestsThreadPool.handled_unrestored outcome⟩
      have dropped : container.Outcome (container.Unrestored poolName index now components task.request)
          task.request container.tasks ((container.setConversation task.request broken).drop task.request) :=
        .dropped broken sound (.unrestored unrestored) rfl rfl rfl
      rw [tasks] at dropped
      exact dropped.finish container busy false
  · next again outcome =>
      rw [outcome] at sound
      have dispatched : (container.setConversation task.request again).Dispatched
          (container.Unrestored poolName index now components task.request) task.request again _ :=
        (container.setConversation task.request again).dispatch_dispatched task.request again
          (container.setConversation_here present again) sound later copying
      cases ends : (container.setConversation task.request again).dispatch task.request later copying with
      | mk next raised =>
          rw [ends] at dispatched
          cases dispatched with
          | passed _ passed stays =>
              rw [setConversation_tasks, tasks] at passed
              exact (passed.of_setConversation container again).finish container (stays _ _ _ busy) true
          | raised exn broken =>
              have dropped : (container.setConversation task.request again).Outcome
                  (container.Unrestored poolName index now components task.request) task.request container.tasks
                  ((container.setConversation task.request again).drop task.request) :=
                .dropped again sound broken (requests_set_same _ _ again
                  (container.setConversation_here present again)).symm rfl rfl
              rw [tasks] at dropped
              exact (dropped.of_setConversation container again).finish container busy false

theorem attach_unsent {keepConnection : Bool} {incoming : Incoming} {conversation : Conversation γ}
    (done : attach keepConnection incoming = .ok conversation) :
    conversation.exchange.request.headersSent = false := by
  unfold attach at done
  rw [Request.setHeader_unsent Request.fresh rfl] at done
  split at done
  · obtain ⟨request, header, done⟩ := bind_eq_ok _ _ _ done
    cases header
    obtain ⟨⟨attached, final, heap⟩, reading, done⟩ := bind_eq_ok _ _ _ done
    cases done
    exact Request.headersSent_of_response (Request.attach_response reading)
  · obtain ⟨request, header, done⟩ := bind_eq_ok _ _ _ done
    cases header
    obtain ⟨⟨attached, final, heap⟩, reading, done⟩ := bind_eq_ok _ _ _ done
    cases done
    exact Request.headersSent_of_response (Request.attach_response reading)

theorem serve_outcome (unrestored : Conversation γ → Prop) {request : Nat} {conversation : Conversation γ}
    (here : container.requests[request]? = some conversation)
    (unsent : conversation.exchange.request.headersSent = false) (keepConnection : Bool) (incoming : Incoming)
    (now : Int) (copying : Except Exn Unit) :
    container.Outcome unrestored request container.tasks
      (container.serve request keepConnection incoming now copying) := by
  unfold serve
  split
  · obtain ⟨answered, sent, done⟩ := container.answer_unsent request conversation here unsent 400
    rw [done]
    exact .answered answered sent rfl rfl rfl
  · next attached attaching =>
      have fresh := attach_unsent attaching
      have known := container.setConversation_here here attached
      have dispatched : (container.setConversation request attached).Dispatched unrestored request attached _ :=
        (container.setConversation request attached).dispatch_dispatched request attached known fresh now copying
      cases ends : (container.setConversation request attached).dispatch request now copying with
      | mk next raised =>
          rw [ends] at dispatched
          cases dispatched with
          | passed _ passed _ => exact passed.of_setConversation container attached
          | raised exn broken =>
              obtain ⟨answered, sent, done⟩ :=
                (container.setConversation request attached).answer_unsent request attached known fresh 500
              have told : (container.setConversation request attached).Outcome unrestored request container.tasks
                  ((container.setConversation request attached).setConversation request answered) :=
                .answered answered sent rfl rfl rfl
              dsimp only
              rw [done]
              exact told.of_setConversation container attached

def append (new : Conversation γ) : Container γ η φ := { container with requests := container.requests ++ [new] }

theorem replay_outcome (unrestored : Conversation γ → Prop) (image : DataBuffer) (heap : Heap) (now : Int)
    (copying : Except Exn Unit) :
    container.replay image heap now copying = container ∨
      ∃ new : Conversation γ, new.exchange.request.headersSent = false ∧
        (container.append new).Outcome unrestored container.requests.length container.tasks
          (container.replay image heap now copying) := by
  unfold replay
  split
  · exact Or.inl rfl
  · next request parsing =>
      right
      let new : Conversation γ := { newConversation heap with exchange := ⟨request, []⟩ }
      have fresh : new.exchange.request.headersSent = false :=
        Request.headersSent_of_response (Request.parse_response parsing)
      have known : (container.append new).requests[container.requests.length]? = some new := by simp [append]
      have dispatched : (container.append new).Dispatched unrestored container.requests.length new _ :=
        (container.append new).dispatch_dispatched container.requests.length new known fresh now copying
      refine ⟨new, fresh, ?_⟩
      simp only [new, append] at dispatched ⊢
      generalize Container.dispatch _ container.requests.length now copying = ends at dispatched
      cases dispatched with
      | passed next passed _ => exact passed
      | raised exn broken =>
          exact .dropped new fresh broken (requests_set_same _ _ new known).symm rfl rfl

end Container

end FastcgiContainer
