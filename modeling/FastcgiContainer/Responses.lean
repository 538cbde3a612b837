import FastcgiContainer.Custody
import FastcgiContainer.TaskHandling

/-! What the clients of the container receive, in whatever order its threads take their steps. -/

namespace FastcgiContainer

open Word (Bytes)
open FilterChain (Running)

section Within

variable {γ : Type} (allowed : ChainCall γ → Prop)

def Handler.Within (handler : Handler γ) : Prop :=
  ∀ conversation, ∃ calls, (∀ call ∈ calls, allowed call) ∧
    (handler.handleRequest conversation).1 = conversation.run calls

/-- An action on a task whose handlers make calls of one kind only, and that makes such calls. -/
def CallsWithin (action : FilterChain.Action (Running (Conversation γ) (Handler γ)) Raised) : Prop :=
  ∀ running, (∀ handler ∈ running.handlers, handler.Within allowed) →
    (∃ calls, (∀ call ∈ calls, allowed call) ∧ (action running).1.world = running.world.run calls) ∧
      ∀ handler ∈ (action running).1.handlers, handler.Within allowed

def Filter.Within (filter : Filter γ) : Prop :=
  ∀ next, CallsWithin allowed next → CallsWithin allowed (filter.doFilter next)

def Components.Within {η φ : Type} (components : Components γ η φ) : Prop :=
  (∀ handler, (components.handler handler).Within allowed) ∧ ∀ filter, (components.filter filter).Within allowed

structure RequestTask.Within (task : RequestTask γ) : Prop where
  filters : ∀ filter ∈ task.filters, filter.Within allowed
  handlers : ∀ handler ∈ task.handlers, handler.Within allowed
  future : ∀ futureHandlers, task.futureHandlers = some futureHandlers →
    ∀ conversation found, futureHandlers conversation = .ok found → ∀ handler ∈ found, handler.Within allowed

namespace RequestsThreadPool

variable {allowed} (task : RequestTask γ)

theorem handleEach_within (list : List (Handler γ)) (each : ∀ handler ∈ list, handler.Within allowed)
    (conversation : Conversation γ) :
    ∃ calls, (∀ call ∈ calls, allowed call) ∧
      (FilterChain.handleEach (behaviour task) list conversation).1 = conversation.run calls := by
  induction list generalizing conversation with
  | nil => exact ⟨[], by simp, rfl⟩
  | cons handler rest ih =>
      unfold FilterChain.handleEach
      split
      · exact ⟨[], by simp, rfl⟩
      · obtain ⟨first, within, made⟩ := each handler List.mem_cons_self conversation
        have same : (behaviour task).handleRequest handler conversation = handler.handleRequest conversation := rfl
        rw [same]
        cases outcome : handler.handleRequest conversation with
        | mk after raised =>
            rw [outcome] at made
            cases raised with
            | some exn => exact ⟨first, within, made⟩
            | none =>
                obtain ⟨second, further, later⟩ :=
                  ih (fun other member => each other (List.mem_cons_of_mem _ member)) after
                refine ⟨first ++ second, ?_, ?_⟩
                · intro call member
                  exact (List.mem_append.mp member).elim (within call) (further call)
                · rw [Conversation.run_append, ← made]
                  exact later

theorem handleAll_within : CallsWithin allowed (FilterChain.handleAll (behaviour task)) := by
  intro running each
  exact ⟨handleEach_within task running.handlers each running.world, each⟩

theorem handlers_within (within : task.Within allowed) :
    CallsWithin allowed (FilterChain.handlers (behaviour task)) := by
  intro running each
  have all : CallsWithin allowed (FilterChain.handleAll (behaviour task)) := handleAll_within task
  unfold FilterChain.handlers
  split
  · next futureHandlers empty present =>
      obtain ⟨future, assigned, rfl⟩ := Option.map_eq_some_iff.mp present
      dsimp only
      cases found : future running.world with
      | error exn => exact ⟨⟨[], by simp, rfl⟩, each⟩
      | ok list => exact all ⟨running.world, list⟩ (within.future future assigned running.world list found)
  · exact all running each

theorem nested_within (filters : List (Filter γ)) (each : ∀ filter ∈ filters, filter.Within allowed)
    {inner : FilterChain.Action (Running (Conversation γ) (Handler γ)) Raised} (only : CallsWithin allowed inner) :
    CallsWithin allowed (FilterChain.nested (behaviour task) filters inner) := by
  induction filters with
  | nil => exact only
  | cons filter rest ih =>
      exact each filter List.mem_cons_self _ (ih (fun other member => each other (List.mem_cons_of_mem _ member)))

theorem chain_within (within : task.Within allowed) (conversation : Conversation γ) :
    ∃ calls, (∀ call ∈ calls, allowed call) ∧ (chain task conversation).1 = (begun conversation).run calls := by
  have only := nested_within task task.filters within.filters (handlers_within task within)
  rw [← FilterChain.execute_nested] at only
  exact (only ⟨begun conversation, task.handlers⟩ within.handlers).1

end RequestsThreadPool

end Within

def ErrorPage (status : Nat) (output : Bytes) : Prop :=
  (Reply.sent (Draft.error status) (Exchange.errorBody status)).Written output

section Dated

variable {γ : Type}

def ChainCall.Dated : ChainCall γ → Prop
  | .respond (.setCookie cookie) => cookie.Formattable
  | _ => True

def Reply.Dated : Reply → Prop
  | .building draft => ∀ cookie ∈ draft.cookies, cookie.Formattable
  | .sent _ _ => True

theorem Reply.step_dated (method : Bytes) (reply : Reply) (dated : reply.Dated) (call : ResponseCall)
    (fine : ∀ cookie, call = .setCookie cookie → cookie.Formattable) : (reply.step method call).Dated := by
  cases reply with
  | sent draft body => cases call <;> exact trivial
  | building draft =>
      cases call with
      | setCookie cookie =>
          intro other member
          rcases List.mem_append.mp member with before | now
          · exact dated other before
          · rw [List.mem_singleton.mp now]
            exact fine cookie rfl
      | deleteCookie name =>
          intro other member
          rcases List.mem_append.mp member with before | now
          · exact dated other before
          · rw [List.mem_singleton.mp now]
            exact Or.inl rfl
      | setStatus status => exact dated
      | setHeader name value => exact dated
      | redirectToPath path => exact dated
      | sendError status => exact trivial
      | sendHeaders => exact trivial
      | write data => exact trivial

theorem Page.step_dated (method : Bytes) (page : Page) (dated : page.reply.Dated) (call : ChainCall γ)
    (fine : call.Dated) : (page.step method call).reply.Dated := by
  cases call with
  | respond call =>
      refine page.reply.step_dated method dated call ?_
      rintro cookie rfl
      exact fine
  | flush =>
      simp only [Page.step]
      split
      · exact dated
      · exact page.reply.step_dated method dated (.write page.text) (fun cookie same => by cases same)
  | text responseStream => exact dated
  | other request context heap => exact dated

/-- The stream has nothing, or a response whose header block is whole. -/
def Exchange.Formed (exchange : Exchange) : Prop := ∃ reply : Reply, reply.Dated ∧ exchange.Refines reply

namespace Exchange.Formed

variable {exchange : Exchange}

theorem cookies (formed : exchange.Formed) (unsent : exchange.request.headersSent = false) :
    ∀ entry ∈ exchange.request.outCookies.entries, entry.2.Formattable := by
  obtain ⟨reply, dated, refines⟩ := formed
  cases reply with
  | sent draft body =>
      rw [refines.1] at unsent
      cases unsent
  | building draft =>
      intro entry member
      have found := (OrderedMap.find?_eq_some stringLess_exact exchange.request.outCookies entry.1 entry.2).mpr member
      rw [refines.2.2.cookies] at found
      exact dated entry.2 (List.mem_reverse.mp (List.mem_of_find?_eq_some found))

theorem draft (formed : exchange.Formed) (unsent : exchange.request.headersSent = false) :
    ∃ draft, (Reply.building draft).Dated ∧ exchange.Refines (.building draft) := by
  obtain ⟨reply, dated, refines⟩ := formed
  cases reply with
  | building draft => exact ⟨draft, dated, refines⟩
  | sent draft body => simp [refines.1] at unsent

theorem blank (formed : exchange.Formed) (unsent : exchange.request.headersSent = false) : exchange.output = [] := by
  obtain ⟨draft, -, refines⟩ := formed.draft unsent
  exact refines.2.1

theorem sendable {conversation : Conversation γ} (formed : conversation.exchange.Formed) (call : ChainCall γ) :
    conversation.Sendable call := by
  have able := formed.cookies
  cases call with
  | respond call => exact fun unsent _ => able unsent
  | flush => exact fun unsent _ => able unsent
  | text responseStream => exact trivial
  | other request context heap => exact trivial

end Exchange.Formed

namespace Conversation

variable {conversation : Conversation γ}

theorem perform_formed (formed : conversation.exchange.Formed) (call : ChainCall γ) (fine : call.Dated) :
    (conversation.perform call).exchange.Formed := by
  have able := formed.sendable call
  obtain ⟨reply, dated, refines⟩ := formed
  have page : conversation.Refines ⟨reply, conversation.responseStream⟩ := ⟨refines, rfl⟩
  exact ⟨_, Page.step_dated conversation.method _ dated call fine,
    (conversation.perform_refines _ call page able).reply⟩

theorem run_formed (formed : conversation.exchange.Formed) (calls : List (ChainCall γ))
    (fine : ∀ call ∈ calls, call.Dated) : (conversation.run calls).exchange.Formed := by
  induction calls generalizing conversation with
  | nil => exact formed
  | cons call rest ih =>
      exact ih (perform_formed formed call (fine call List.mem_cons_self))
        (fun other member => fine other (List.mem_cons_of_mem _ member))

end Conversation

theorem Conversation.run_refines_dated {conversation : Conversation γ} {page : Page}
    (refines : conversation.Refines page) (dated : page.reply.Dated) (calls : List (ChainCall γ))
    (fine : ∀ call ∈ calls, call.Dated) : (conversation.run calls).Refines (page.run conversation.method calls) ∧
      (page.run conversation.method calls).reply.Dated := by
  induction calls generalizing conversation page with
  | nil => exact ⟨refines, dated⟩
  | cons call rest ih =>
      have formed : conversation.exchange.Formed := ⟨page.reply, dated, refines.reply⟩
      have stepped := conversation.perform_refines page call refines (formed.sendable call)
      have later := ih stepped (page.step_dated conversation.method dated call (fine call List.mem_cons_self))
        (fun other member => fine other (List.mem_cons_of_mem _ member))
      rw [perform_method] at later
      exact later

theorem Exchange.Formed.of_response {exchange : Exchange} (formed : exchange.Formed) {request : Request}
    (unsent : exchange.request.headersSent = false)
    (same : request.response = exchange.request.response ∨
      request.response = { exchange.request.response with outHeaders := .empty }) :
    Exchange.Formed ⟨request, exchange.output⟩ := by
  obtain ⟨reply, dated, refines⟩ := formed
  cases reply with
  | sent draft body =>
      rw [refines.1] at unsent
      cases unsent
  | building draft =>
      obtain ⟨-, blank, queued⟩ := refines
      rcases same with same | same
      · obtain ⟨sent, status, headers, cookies⟩ := Request.ResponseState.mk.inj same
        refine ⟨.building draft, dated, sent.trans unsent, blank, ?_, ?_, ?_⟩
        · rw [status, queued.status]
        · rw [headers]
          exact queued.headers
        · rw [cookies]
          exact queued.cookies
      · obtain ⟨sent, status, headers, cookies⟩ := Request.ResponseState.mk.inj same
        refine ⟨.building { draft with headers := [] }, dated, sent.trans unsent, blank, ?_, ?_, ?_⟩
        · rw [status]
          exact queued.status
        · rw [headers]
          intro name
          rfl
        · rw [cookies]
          exact queued.cookies

namespace RequestsThreadPool

variable {conversation : Conversation γ}

theorem finish_formed (formed : conversation.exchange.Formed) : (finish conversation).1.exchange.Formed := by
  have flushed := Conversation.perform_formed formed .flush trivial
  unfold finish
  split
  · next after exn outcome =>
      rw [Conversation.perform, outcome] at flushed
      exact flushed
  · next after outcome =>
      rw [Conversation.perform, outcome] at flushed
      have written : after.exchange.Formed := flushed
      exact Conversation.perform_formed written (.respond .sendHeaders) trivial

theorem sendError_formed (formed : conversation.exchange.Formed) (status : UInt16) :
    (conversation.exchange.sendError status.toNat).1.Formed :=
  Conversation.perform_formed formed (.respond (.sendError status)) trivial

theorem sendErrorUnlessSent_formed (formed : conversation.exchange.Formed) (raised : Raised) (status : UInt16) :
    (sendErrorUnlessSent conversation raised status).1.exchange.Formed := by
  have probed := Conversation.perform_formed formed (.respond (.setStatus 500)) trivial
  unfold sendErrorUnlessSent
  split
  · exact formed
  · next request accepted =>
      have known : (500 : UInt16).toNat = 500 := rfl
      simp only [Conversation.perform, Exchange.perform, known, accepted, Exchange.update] at probed
      let begun : Conversation γ := { conversation with exchange := { conversation.exchange with request := request } }
      have kept : begun.exchange.Formed := probed
      exact sendError_formed kept status

def Handled.left : Handled γ → Conversation γ
  | .ended conversation _ => conversation
  | .unrestored conversation _ => conversation
  | .dispatched conversation => conversation

theorem handledDispatch_formed (formed : conversation.exchange.Formed) (exn : DispatchException) :
    (handledDispatch conversation exn).left.exchange.Formed := by
  unfold handledDispatch
  dsimp only
  split
  · exact formed
  · next unsent =>
      rw [Bool.not_eq_true] at unsent
      have cleared : (if exn.type = .forward then conversation.reset else conversation).exchange =
          conversation.exchange := by
        split <;> rfl
      generalize (if exn.type = .forward then conversation.reset else conversation) = kept at cleared ⊢
      split
      · simpa [Handled.left, cleared] using formed
      · next request restored =>
          have same : (setScriptName request exn.url).response = request.response := by
            unfold setScriptName
            split <;> rfl
          simp only [Handled.left, cleared]
          refine formed.of_response unsent ?_
          rw [same]
          split at restored
          · cases restored
            exact Or.inl rfl
          · exact Or.inr (Request.restore_response restored)

theorem handled_formed (pool : RequestsThreadPool) (now : Int) (task : RequestTask γ)
    (within : task.Within ChainCall.Dated) (formed : conversation.exchange.Formed) :
    (pool.handled now task conversation).left.exchange.Formed := by
  have begins : (begun conversation).exchange.Formed := formed
  obtain ⟨calls, dated, made⟩ := chain_within task within conversation
  have chained := Conversation.run_formed begins calls dated
  rw [← made] at chained
  have ends : (FilterChain.andThen (chain task) finish conversation).1.exchange.Formed := by
    unfold FilterChain.andThen
    split
    · next after exn outcome =>
        rw [outcome] at chained
        exact chained
    · next after outcome =>
        rw [outcome] at chained
        exact finish_formed chained
  unfold handled
  split
  · exact sendError_formed formed 503
  · split
    · next outcome =>
        rw [outcome] at ends
        exact ends
    · next after raised outcome =>
        rw [outcome] at ends
        cases raised with
        | dispatch exn => exact handledDispatch_formed ends exn
        | http status => exact sendErrorUnlessSent_formed ends _ status
        | standard exn => exact sendErrorUnlessSent_formed ends _ 500
        | unknown => exact sendErrorUnlessSent_formed ends _ 500

/-- Calls that account for what filters and handlers of a task have done, with cookies that can be formatted. -/
def Accounts (task : RequestTask γ) (conversation : Conversation γ) (calls : List (ChainCall γ)) : Prop :=
  (∀ call ∈ calls, call.Dated) ∧ (chain task conversation).1 = (begun conversation).run calls

/-- What the client of a task has received when its handling ends. -/
inductive Told (pool : RequestsThreadPool) (now : Int) (task : RequestTask γ) (conversation : Conversation γ)
    (output : Bytes) : Prop where
  /-- The task is refused. -/
  | refused (early : now - task.start < milliseconds pool.delay) (page : ErrorPage 503 output)
  /-- An exception comes before any header block was sent, and is answered. -/
  | failed (raised : Raised) (thrown : (chain task conversation).2 = some raised) (final : raised.isDispatch = false)
      (unsent : (chain task conversation).1.exchange.request.headersSent = false)
      (page : ErrorPage raised.status.toNat output)
  /-- An exception comes behind a header block, and nothing is added to what was written. -/
  | broken (draft : Draft) (begins : conversation.exchange.Refines (.building draft)) (raised : Raised)
      (thrown : (chain task conversation).2 = some raised)
      (sent : (chain task conversation).1.exchange.request.headersSent = true)
      (made : ∃ calls, Accounts task conversation calls)
      (written : ∀ calls, Accounts task conversation calls →
        (Page.run conversation.method ⟨.building draft, []⟩ calls).reply.Written output)
  | completed (draft : Draft) (begins : conversation.exchange.Refines (.building draft))
      (returned : (chain task conversation).2 = none) (made : ∃ calls, Accounts task conversation calls)
      (written : ∀ calls, Accounts task conversation calls →
        ((Page.run conversation.method ⟨.building draft, []⟩ calls).complete conversation.method).Written output)

theorem sendError_page (formed : conversation.exchange.Formed)
    (unsent : conversation.exchange.request.headersSent = false) (status : UInt16) :
    ErrorPage status.toNat (conversation.exchange.sendError status.toNat).1.output := by
  obtain ⟨draft, -, refines⟩ := formed.draft unsent
  have told := Exchange.perform_refines _ _ (.sendError status) refines (formed.sendable (.respond (.sendError status)))
  exact told.written.2

theorem handledRaised_told {pool : RequestsThreadPool} {now : Int} {task : RequestTask γ} {raised : Raised}
    (thrown : (chain task conversation).2 = some raised) {last : Conversation γ} {again : Option Raised}
    (formed : (chain task conversation).1.exchange.Formed) (draft : Draft)
    (begins : conversation.exchange.Refines (.building draft)) (made : ∃ calls, Accounts task conversation calls)
    (refines : ∀ calls, Accounts task conversation calls →
      (chain task conversation).1.Refines (Page.run conversation.method ⟨.building draft, []⟩ calls))
    (outcome : handledRaised (chain task conversation).1 raised = .ended last again) :
    pool.Told now task conversation last.exchange.output := by
  cases sent : (chain task conversation).1.exchange.request.headersSent with
  | true =>
      have same : last = (chain task conversation).1 := by
        cases raised with
        | dispatch exn =>
            simp only [handledRaised, handledDispatch, sent, if_true] at outcome
            exact (Handled.ended.inj outcome).1.symm
        | http status =>
            rw [handledRaised, sendErrorUnlessSent_sent _ _ _ sent] at outcome
            exact (Handled.ended.inj outcome).1.symm
        | standard exn =>
            rw [handledRaised, sendErrorUnlessSent_sent _ _ _ sent] at outcome
            exact (Handled.ended.inj outcome).1.symm
        | unknown =>
            rw [handledRaised, sendErrorUnlessSent_sent _ _ _ sent] at outcome
            exact (Handled.ended.inj outcome).1.symm
      rw [same]
      exact .broken draft begins raised thrown sent made (fun calls account => (refines calls account).reply.written.2)
  | false =>
      have answered : ∀ status, ErrorPage status.toNat
          (sendErrorUnlessSent (chain task conversation).1 raised status).1.exchange.output :=
        fun status => (sendErrorUnlessSent_unsent _ raised status sent (formed.blank sent)).2
      cases raised with
      | dispatch exn =>
          simp only [handledRaised, handledDispatch, sent, Bool.false_eq_true, if_false] at outcome
          split at outcome <;> cases outcome
      | http status =>
          cases outcome
          exact .failed _ thrown rfl sent (answered status)
      | standard exn =>
          cases outcome
          exact .failed _ thrown rfl sent (answered 500)
      | unknown =>
          cases outcome
          exact .failed _ thrown rfl sent (answered 500)

theorem handled_told {pool : RequestsThreadPool} {now : Int} {task : RequestTask γ} {last : Conversation γ}
    {again : Option Raised} (within : task.Within ChainCall.Dated) (formed : conversation.exchange.Formed)
    (unsent : conversation.exchange.request.headersSent = false)
    (outcome : pool.handled now task conversation = .ended last again) :
    pool.Told now task conversation last.exchange.output := by
  obtain ⟨draft, dated, begins⟩ := formed.draft unsent
  have starts : (begun conversation).Refines ⟨.building draft, []⟩ := ⟨begins, rfl⟩
  have accounted : ∀ calls, Accounts task conversation calls →
      (chain task conversation).1.Refines (Page.run conversation.method ⟨.building draft, []⟩ calls) ∧
        (Page.run conversation.method ⟨.building draft, []⟩ calls).reply.Dated := by
    rintro calls ⟨fine, made⟩
    rw [made]
    exact Conversation.run_refines_dated starts dated calls fine
  have made : ∃ calls, Accounts task conversation calls := chain_within task within conversation
  have chained : (chain task conversation).1.exchange.Formed := by
    obtain ⟨calls, account⟩ := made
    obtain ⟨refines, fine⟩ := accounted calls account
    exact ⟨_, fine, refines.reply⟩
  unfold handled at outcome
  split at outcome
  · next early =>
      cases outcome
      exact .refused early (sendError_page formed unsent 503)
  · cases ran : chain task conversation with
    | mk after raised =>
        have ends : (chain task conversation).1 = after := congrArg Prod.fst ran
        cases raised with
        | some raised =>
            rw [FilterChain.andThen, ran] at outcome
            rw [← ends] at outcome
            exact handledRaised_told (congrArg Prod.snd ran) chained draft begins made
              (fun calls account => (accounted calls account).1) outcome
        | none =>
            rw [FilterChain.andThen, ran] at outcome
            have able : after.exchange.Sendable .sendHeaders := ends ▸ chained.sendable (.respond .sendHeaders)
            have method : after.method = conversation.method := by
              obtain ⟨calls, -, run⟩ := made
              rw [← ends, run]
              exact (begun conversation).run_method calls
            obtain ⟨calls, account⟩ := made
            have quiet := (finish_written after _ (ends ▸ (accounted calls account).1) able).1
            cases finished : finish after with
            | mk done thrown =>
                rw [finished] at quiet
                obtain rfl : thrown = none := quiet
                simp only [finished] at outcome
                cases outcome
                refine .completed draft begins (congrArg Prod.snd ran) ⟨calls, account⟩ ?_
                intro calls account
                have written := (finish_written after _ (ends ▸ (accounted calls account).1) able).2
                rw [finished, method] at written
                exact written

end RequestsThreadPool

end Dated

namespace Container

variable {γ η φ : Type} {container : Container γ η φ}

/-- What the client of each request has received so far can become one response. -/
def Formed (container : Container γ η φ) : Prop := ∀ conversation ∈ container.requests, conversation.exchange.Formed

theorem Formed.setConversation (formed : container.Formed) (request : Nat) {conversation : Conversation γ}
    (new : conversation.exchange.Formed) : (container.setConversation request conversation).Formed := by
  intro other member
  rcases List.mem_or_eq_of_mem_set member with before | rfl
  · exact formed other before
  · exact new

theorem Formed.append (formed : container.Formed) {new : Conversation γ} (fresh : new.exchange.Formed) :
    (container.append new).Formed := by
  intro other member
  rcases List.mem_append.mp member with before | now
  · exact formed other before
  · rw [List.mem_singleton.mp now]
    exact fresh

theorem Formed.updatePool (formed : container.Formed) (poolName : Bytes)
    (change : ThreadPool (QueuedTask η φ) → ThreadPool (QueuedTask η φ)) :
    (container.updatePool poolName change).Formed := by
  unfold Formed
  rw [updatePool_requests]
  exact formed

theorem Formed.answer (formed : container.Formed) (request : Nat) (status : UInt16) :
    (container.answer request (fun exchange => exchange.sendError status.toNat)).1.Formed := by
  unfold Container.answer
  split
  · exact formed
  · next conversation here =>
      have old := formed conversation (List.mem_of_getElem? here)
      exact formed.setConversation request (RequestsThreadPool.sendError_formed old status)

theorem Formed.addToPool (formed : container.Formed) (poolName : Bytes) (task : QueuedTask η φ) (now : Int)
    (copying : Except Exn Unit) : (container.addToPool poolName task now copying).1.Formed := by
  unfold Container.addToPool
  split
  · exact formed
  · split
    · exact formed
    · exact formed.answer task.request 503

theorem Formed.dispatch (formed : container.Formed) (request : Nat) (now : Int) (copying : Except Exn Unit) :
    (container.dispatch request now copying).1.Formed := by
  unfold Container.dispatch
  split
  · exact formed
  · split
    · exact formed
    · split
      · exact formed
      · split
        · exact formed.addToPool _ _ now copying
        · split
          · exact formed.answer request 404
          · exact formed.addToPool _ _ now copying

theorem requestTask_within {allowed : ChainCall γ → Prop} (handlers : HandlerSet η φ) (components : Components γ η φ)
    (within : components.Within allowed) (task : QueuedTask η φ)
    (dispatch : FilterChain.Action (Conversation γ) Raised) :
    (requestTask handlers components task dispatch).Within allowed := by
  refine ⟨?_, ?_, ?_⟩
  · intro filter member
    obtain ⟨name, -, rfl⟩ := List.mem_map.mp member
    exact within.2 name
  · intro handler member
    obtain ⟨name, -, rfl⟩ := List.mem_map.mp member
    exact within.1 name
  · rintro _ ⟨⟩ conversation found selected handler member
    unfold futureHandlers at selected
    split at selected
    · cases selected
    · cases selected
    · split at selected
      · cases selected
      · cases selected
        obtain ⟨name, -, rfl⟩ := List.mem_map.mp member
        exact within.1 name

theorem Formed.handle (formed : container.Formed) (poolName : Bytes) (index : Nat) (now later : Int)
    (components : Components γ η φ) (within : components.Within ChainCall.Dated) (copying : Except Exn Unit) :
    (container.handle poolName index now later components copying).Formed := by
  unfold Container.handle
  split
  · exact formed
  · next settings task conversation here =>
      obtain ⟨-, present⟩ := container.taskAt_busy here
      have handled := RequestsThreadPool.handled_formed settings now
        (requestTask container.handlers components task (fun conversation => (conversation, none)))
        (requestTask_within container.handlers components within task _)
        (formed conversation (List.mem_of_getElem? present))
      split
      · next ended raised outcome =>
          rw [outcome] at handled
          exact (formed.setConversation task.request handled).updatePool _ _
      · next broken exn outcome =>
          rw [outcome] at handled
          have told : ((container.setConversation task.request broken).drop task.request).Formed :=
            formed.setConversation task.request handled
          exact told.updatePool _ _
      · next again outcome =>
          rw [outcome] at handled
          have told : (container.setConversation task.request again).Formed :=
            formed.setConversation task.request handled
          have dispatched := told.dispatch task.request later copying
          split
          · next next passed =>
              rw [passed] at dispatched
              exact dispatched.updatePool _ _
          · next next exn broken =>
              rw [broken] at dispatched
              have dropped : (next.drop task.request).Formed := dispatched
              exact dropped.updatePool _ _

/-- The client has received one of the pages with which the container itself answers. -/
def ContainerPage (output : Bytes) : Prop :=
  ∃ status : UInt16, status ∈ [400, 404, 500, 503] ∧ ErrorPage status.toNat output

/-- Requests that were answered before have the same answer, and others are answered for a reason. -/
def Tells (why : Nat → Bytes → Prop) (before after : Container γ η φ) : Prop :=
  ∀ (request : Nat) (conversation : Conversation γ), after.requests[request]? = some conversation →
    conversation.exchange.request.headersSent = true →
    (∃ old, before.requests[request]? = some old ∧ old.exchange.request.headersSent = true ∧
      old.exchange.output = conversation.exchange.output) ∨ why request conversation.exchange.output

namespace Tells

variable {why : Nat → Bytes → Prop}

theorem of_requests {before after : Container γ η φ} (same : after.requests = before.requests) :
    Tells why before after := by
  intro request conversation here sent
  exact Or.inl ⟨conversation, same ▸ here, sent, rfl⟩

theorem trans {before middle after : Container γ η φ} (first : Tells why before middle)
    (second : Tells why middle after) : Tells why before after := by
  intro request conversation here sent
  rcases second request conversation here sent with ⟨old, known, was, same⟩ | reason
  · rw [← same]
    exact first request old known was
  · exact Or.inr reason

theorem setConversation (request : Nat) (new : Conversation γ)
    (told : new.exchange.request.headersSent = true → why request new.exchange.output) :
    Tells why container (container.setConversation request new) := by
  intro query conversation here sent
  rw [setConversation_requests, List.getElem?_set] at here
  split at here
  · next same =>
      split at here
      · cases here
        exact Or.inr (same ▸ told sent)
      · cases here
  · exact Or.inl ⟨conversation, here, sent, rfl⟩

theorem setUnsent (request : Nat) {new : Conversation γ} (unsent : new.exchange.request.headersSent = false) :
    Tells why container (container.setConversation request new) := by
  refine setConversation request new (fun sent => ?_)
  rw [unsent] at sent
  cases sent

theorem append {new : Conversation γ} (unsent : new.exchange.request.headersSent = false) :
    Tells why container (container.append new) := by
  intro query conversation here sent
  rw [Container.append, List.getElem?_append] at here
  split at here
  · exact Or.inl ⟨conversation, here, sent, rfl⟩
  · rw [List.getElem?_singleton] at here
    split at here
    · cases here
      rw [unsent] at sent
      cases sent
    · cases here

variable (formed : container.Formed) {request : Nat}
  (pages : ∀ output, ContainerPage output → why request output)

include formed pages

theorem answer (status : UInt16) (listed : status ∈ [400, 404, 500, 503]) :
    Tells why container (container.answer request (fun exchange => exchange.sendError status.toNat)).1 := by
  unfold Container.answer
  split
  · exact of_requests rfl
  · next conversation here =>
      have old := formed conversation (List.mem_of_getElem? here)
      cases sent : conversation.exchange.request.headersSent with
      | true =>
          have same : (conversation.exchange.sendError status.toNat).1 = conversation.exchange := by
            simp [Exchange.sendError, sent]
          refine of_requests ?_
          simp only [Conversation.through, same]
          exact container.requests_set_same request conversation here
      | false =>
          exact setConversation request _ (fun _ =>
            pages _ ⟨status, listed, RequestsThreadPool.sendError_page old sent status⟩)

theorem addToPool (poolName : Bytes) (task : QueuedTask η φ) (named : task.request = request) (now : Int)
    (copying : Except Exn Unit) : Tells why container (container.addToPool poolName task now copying).1 := by
  unfold Container.addToPool
  split
  · exact of_requests rfl
  · split
    · exact of_requests rfl
    · rw [named]
      exact answer formed pages 503 (by decide)

theorem dispatch (now : Int) (copying : Except Exn Unit) :
    Tells why container (container.dispatch request now copying).1 := by
  unfold Container.dispatch
  split
  · exact of_requests rfl
  · split
    · exact of_requests rfl
    · split
      · exact of_requests rfl
      · split
        · exact addToPool formed pages _ _ rfl now copying
        · split
          · exact answer formed pages 404 (by decide)
          · exact addToPool formed pages _ _ rfl now copying

end Tells

theorem handle_tells {why : Nat → Bytes → Prop} (formed : container.Formed) {poolName : Bytes} {index : Nat}
    {settings : RequestsThreadPool} {task : QueuedTask η φ} {conversation : Conversation γ}
    (here : container.taskAt poolName index = some (settings, task, conversation))
    (unsent : conversation.exchange.request.headersSent = false) (now later : Int) (components : Components γ η φ)
    (within : components.Within ChainCall.Dated) (copying : Except Exn Unit)
    (pages : ∀ output, ContainerPage output → why task.request output)
    (told : ∀ output, settings.Told now (requestTask container.handlers components task
      (fun conversation => (conversation, none))) conversation output → why task.request output) :
    Tells why container (container.handle poolName index now later components copying) := by
  obtain ⟨-, present⟩ := container.taskAt_busy here
  have old := formed conversation (List.mem_of_getElem? present)
  have only := requestTask_within container.handlers components within task (fun conversation => (conversation, none))
  have sound := settings.handled_sound now
    (requestTask container.handlers components task (fun conversation => (conversation, none))) conversation
  have kept := RequestsThreadPool.handled_formed settings now _ only old
  simp only [Container.handle, here]
  split
  · next ended raised outcome =>
      have answered : Tells why container (container.setConversation task.request ended) :=
        .setConversation task.request ended
          (fun _ => told _ (RequestsThreadPool.handled_told only old unsent outcome))
      exact answered.trans (.of_requests (updatePool_requests _ poolName _))
  · next left exn outcome =>
      rw [outcome] at sound
      have changed : Tells why container (container.setConversation task.request left) :=
        .setUnsent task.request sound
      exact changed.trans (.of_requests (updatePool_requests _ poolName _))
  · next again outcome =>
      rw [outcome] at sound kept
      have changed : Tells why container (container.setConversation task.request again) :=
        .setUnsent task.request sound
      have told : again.exchange.Formed := kept
      have dispatched := Tells.dispatch (formed.setConversation task.request told) pages later copying
      split
      · next next passed =>
          rw [passed] at dispatched
          exact (changed.trans dispatched).trans (.of_requests (updatePool_requests _ poolName _))
      · next next exn broken =>
          rw [broken] at dispatched
          exact (changed.trans dispatched).trans (.of_requests (updatePool_requests _ poolName _))

theorem newConversation_formed (heap : Heap) : (newConversation heap : Conversation γ).exchange.Formed :=
  ⟨.building ⟨200, [], []⟩, fun _ member => absurd member List.not_mem_nil,
    Exchange.Unanswered.refines Request.fresh ⟨rfl, rfl, rfl⟩⟩

theorem attach_formed {keepConnection : Bool} {incoming : Incoming} {conversation : Conversation γ}
    (done : attach keepConnection incoming = .ok conversation) : conversation.exchange.Formed := by
  have fresh := newConversation_formed (γ := γ) incoming.heap
  unfold attach at done
  split at done
  · obtain ⟨request, header, done⟩ := bind_eq_ok _ _ _ done
    cases header
    obtain ⟨⟨attached, final, heap⟩, reading, done⟩ := bind_eq_ok _ _ _ done
    cases done
    exact fresh.of_response rfl (Or.inl (Request.attach_response reading))
  · have closing := Conversation.perform_formed fresh (.respond (.setHeader (ascii "Connection") (ascii "close"))) trivial
    obtain ⟨request, header, done⟩ := bind_eq_ok _ _ _ done
    rw [Request.setHeader_unsent Request.fresh rfl] at header
    cases header
    obtain ⟨⟨attached, final, heap⟩, reading, done⟩ := bind_eq_ok _ _ _ done
    cases done
    exact closing.of_response rfl (Or.inl (Request.attach_response reading))

theorem Formed.serve (formed : container.Formed) (request : Nat) (keepConnection : Bool) (incoming : Incoming)
    (now : Int) (copying : Except Exn Unit) :
    (container.serve request keepConnection incoming now copying).Formed := by
  unfold Container.serve
  split
  · exact formed.answer request 400
  · next conversation attaching =>
      have dispatched := (formed.setConversation request (attach_formed attaching)).dispatch request now copying
      split
      · next next passed =>
          rw [passed] at dispatched
          exact dispatched
      · next next exn broken =>
          rw [broken] at dispatched
          exact dispatched.answer request 500

theorem Formed.replay (formed : container.Formed) (image : DataBuffer) (heap : Heap) (now : Int)
    (copying : Except Exn Unit) : (container.replay image heap now copying).Formed := by
  unfold Container.replay
  split
  · exact formed
  · next request parsing =>
      let new : Conversation γ := { newConversation heap with exchange := ⟨request, []⟩ }
      have fresh : new.exchange.Formed :=
        (newConversation_formed (γ := γ) heap).of_response rfl (Or.inl (Request.parse_response parsing))
      have dispatched := (formed.append fresh).dispatch container.requests.length now copying
      simp only [new, Container.append] at dispatched
      dsimp only
      split
      · next next passed =>
          rw [passed] at dispatched
          exact dispatched
      · next next exn broken =>
          rw [broken] at dispatched
          exact dispatched

theorem serve_tells {why : Nat → Bytes → Prop} (formed : container.Formed) (request : Nat) (keepConnection : Bool)
    (incoming : Incoming) (now : Int) (copying : Except Exn Unit)
    (pages : ∀ output, ContainerPage output → why request output) :
    Tells why container (container.serve request keepConnection incoming now copying) := by
  unfold Container.serve
  split
  · exact Tells.answer formed pages 400 (by decide)
  · next conversation attaching =>
      have unsent := attach_unsent attaching
      have changed : Tells why container (container.setConversation request conversation) :=
        .setUnsent request unsent
      have kept := formed.setConversation request (attach_formed attaching)
      have dispatched := Tells.dispatch kept pages now copying
      split
      · next next passed =>
          rw [passed] at dispatched
          exact changed.trans dispatched
      · next next exn broken =>
          have left := kept.dispatch request now copying
          rw [broken] at dispatched left
          exact (changed.trans dispatched).trans (Tells.answer left pages 500 (by decide))

theorem replay_tells {why : Nat → Bytes → Prop} (formed : container.Formed) (image : DataBuffer) (heap : Heap)
    (now : Int) (copying : Except Exn Unit)
    (pages : ∀ output, ContainerPage output → why container.requests.length output) :
    Tells why container (container.replay image heap now copying) := by
  unfold Container.replay
  split
  · exact Tells.of_requests rfl
  · next request parsing =>
      let new : Conversation γ := { newConversation heap with exchange := ⟨request, []⟩ }
      have unsent : new.exchange.request.headersSent = false :=
        Request.headersSent_of_response (Request.parse_response parsing)
      have fresh : new.exchange.Formed :=
        (newConversation_formed (γ := γ) heap).of_response rfl (Or.inl (Request.parse_response parsing))
      have taken : Tells why container (container.append new) := .append unsent
      have dispatched := Tells.dispatch (formed.append fresh) pages now copying
      simp only [new, Container.append] at taken dispatched
      dsimp only
      split
      · next next passed =>
          rw [passed] at dispatched
          exact taken.trans dispatched
      · next next exn broken =>
          rw [broken] at dispatched
          exact taken.trans dispatched

end Container

namespace FCGIServer

variable {γ η φ : Type}

def Action.Dated : Action γ η φ → Prop
  | .handle _ _ _ _ components _ => components.Within ChainCall.Dated
  | _ => True

theorem step_formed {server next : FCGIServer γ η φ} (formed : server.container.Formed) (action : Action γ η φ)
    (dated : action.Dated) (done : server.step action = .ok next) : next.container.Formed := by
  cases server.step_transition action next done with
  | still => exact formed
  | moves => exact formed
  | accept endpoint thread succeeds threads after here came =>
      have taken := formed.append (Container.newConversation_formed [])
      dsimp only
      split <;> exact taken
  | serve endpoint thread incoming now copying threads after request here had =>
      exact formed.serve _ _ incoming now copying
  | replay image heap now copying => exact formed.replay image heap now copying
  | acquire pool index copied => exact formed.updatePool pool _
  | handle pool index now later components copying => exact formed.handle pool index now later components dated copying
  | stop => exact formed
  | stopPool pool => exact formed.updatePool pool _

theorem run_formed {server last : FCGIServer γ η φ} (formed : server.container.Formed) (actions : List (Action γ η φ))
    (dated : ∀ action ∈ actions, action.Dated) (ran : server.run actions = .ok last) : last.container.Formed := by
  induction actions generalizing server with
  | nil =>
      cases ran
      exact formed
  | cons action rest ih =>
      obtain ⟨middle, first, later⟩ := bind_eq_ok _ _ _ ran
      exact ih (step_formed formed action (dated action List.mem_cons_self) first)
        (fun other member => dated other (List.mem_cons_of_mem _ member)) later

/-- How a step answers a request: with a page of the container, or as the handling of its task ends. -/
inductive Answers (server : FCGIServer γ η φ) (request : Nat) (output : Bytes) : Action γ η φ → Prop where
  | page (action : Action γ η φ) (page : Container.ContainerPage output) : Answers server request output action
  | task (pool : Bytes) (index : Nat) (now later : Int) (components : Components γ η φ) (copying : Except Exn Unit)
      (settings : RequestsThreadPool) (task : QueuedTask η φ) (conversation : Conversation γ)
      (here : server.container.taskAt pool index = some (settings, task, conversation))
      (named : task.request = request)
      (told : settings.Told now (Container.requestTask server.container.handlers components task
        (fun conversation => (conversation, none))) conversation output) :
      Answers server request output (.handle pool index now later components copying)

theorem step_tells {server next : FCGIServer γ η φ} (balanced : server.ledger.Balanced)
    (formed : server.container.Formed) (action : Action γ η φ) (dated : action.Dated)
    (done : server.step action = .ok next) :
    Container.Tells (fun request output => server.Answers request output action) server.container next.container := by
  cases server.step_transition action next done with
  | still => exact .of_requests rfl
  | moves => exact .of_requests rfl
  | accept endpoint thread succeeds threads after here came =>
      have unsent : (Container.newConversation [] : Conversation γ).exchange.request.headersSent = false := rfl
      have taken : Container.Tells (fun request output => server.Answers request output
          (.accept endpoint thread succeeds)) server.container server.container.accept := .append unsent
      dsimp only
      split <;> exact taken
  | serve endpoint thread incoming now copying threads after request here had =>
      exact Container.serve_tells formed _ _ incoming now copying (fun output page => .page _ page)
  | replay image heap now copying =>
      exact Container.replay_tells formed image heap now copying (fun output page => .page _ page)
  | acquire pool index copied => exact .of_requests (Container.updatePool_requests _ pool _)
  | handle pool index now later components copying =>
      cases here : server.container.taskAt pool index with
      | none =>
          refine .of_requests ?_
          simp only [Container.handle, here]
      | some found =>
          obtain ⟨settings, task, conversation⟩ := found
          obtain ⟨busy, present⟩ := server.container.taskAt_busy here
          -- a request that a thread has is not answered yet
          have held : task.request ∈ server.held := by
            refine Multiset.mem_add.mpr (Or.inr ?_)
            simp [Container.pooled, Container.requestsOf, busy.finish server.container true]
          obtain ⟨known, kept, unsent⟩ := server.container.held_unsent balanced held
          rw [present] at kept
          cases kept
          exact Container.handle_tells formed here unsent now later components dated copying
            (fun output page => .page _ page)
            (fun output told => .task pool index now later components copying settings task conversation here rfl told)
  | stop => exact .of_requests rfl
  | stopPool pool => exact .of_requests (Container.updatePool_requests _ pool _)

theorem run_tells {server last : FCGIServer γ η φ} (balanced : server.ledger.Balanced)
    (formed : server.container.Formed) (actions : List (Action γ η φ)) (dated : ∀ action ∈ actions, action.Dated)
    (ran : server.run actions = .ok last) :
    Container.Tells (fun request output => ∃ before action rest past, actions = before ++ action :: rest ∧
      server.run before = .ok past ∧ past.Answers request output action) server.container last.container := by
  induction actions generalizing server with
  | nil =>
      cases ran
      exact .of_requests rfl
  | cons action rest ih =>
      obtain ⟨middle, first, later⟩ := bind_eq_ok _ _ _ ran
      have fine := dated action List.mem_cons_self
      have told := step_tells balanced formed action fine first
      have after := ih ((server.step_steps action middle balanced first).balanced balanced)
        (step_formed formed action fine first) (fun other member => dated other (List.mem_cons_of_mem _ member)) later
      intro request conversation here sent
      rcases after request conversation here sent with
        ⟨old, known, was, same⟩ | ⟨before, other, more, past, split, went, answered⟩
      · rcases told request old known was with answered | answered
        · rw [← same]
          exact Or.inl answered
        · exact Or.inr ⟨[], action, rest, server, rfl, rfl, same ▸ answered⟩
      · refine Or.inr ⟨action :: before, other, more, past, by rw [split]; rfl, ?_, answered⟩
        rw [run, List.foldlM_cons, first]
        exact went

/-- In every run the client of a request has received nothing as long as the request is not
answered, and then what one step of the run has told it: the page of an error, or one header block
and the body that the calls of its filters and handlers amount to; provided no component sets a
cookie that cannot be formatted. -/
theorem each_client_gets_one_response (compile : Bytes → Except Exn Regex)
    (find : Bytes → Except Exn (Option (ComponentCasts η φ))) (config : HandlersConfig) (entries : List PoolEntry)
    (globals : HandlerSet η φ × Globals.ThreadPoolMap (QueuedTask η φ))
    (created : Globals.create compile find config entries = .ok globals) (endpoints : List (Nat × Bool))
    (actions : List (Action γ η φ)) (dated : ∀ action ∈ actions, action.Dated) (server : FCGIServer γ η φ)
    (ran : (start globals endpoints).run actions = .ok server) (request : Nat) (conversation : Conversation γ)
    (here : server.container.requests[request]? = some conversation) :
    (conversation.exchange.request.headersSent = false → conversation.exchange.output = []) ∧
      (conversation.exchange.request.headersSent = true →
        ∃ before action rest past, actions = before ++ action :: rest ∧
          (start globals endpoints).run before = .ok past ∧
          past.Answers request conversation.exchange.output action) := by
  have begun := start_ledger (γ := γ) globals (Globals.create_ready compile find config entries globals created) endpoints
  have balanced : (start (γ := γ) globals endpoints).ledger.Balanced := by
    rw [begun]
    exact Ledger.balanced_empty
  have empty : (start (γ := γ) globals endpoints).container.Formed :=
    fun conversation member => absurd member List.not_mem_nil
  refine ⟨(run_formed empty actions dated ran conversation (List.mem_of_getElem? here)).blank, ?_⟩
  intro sent
  exact (run_tells balanced empty actions dated ran request conversation here sent).resolve_left nofun

/-- The first of two requests was answered. -/
theorem each_client_gets_one_response_sample : ∃ globals server, sampleGlobals = .ok globals ∧
    (start globals [(1, true)]).run sampleActions = .ok server ∧
      ∃ first second, server.container.requests = [first, second] ∧ second.exchange.output = [] ∧
        ∃ before action rest past, sampleActions = before ++ action :: rest ∧
          (start globals [(1, true)]).run before = .ok past ∧ past.Answers 0 first.exchange.output action := by
  have seen : (runFrom sampleGlobals [(1, true)] sampleActions).map (fun ends => fates ends.2) =
      .ok ([true, false], []) := by
    decide +kernel
  obtain ⟨globals, server, created, ran, same⟩ := runFrom_seen _ _ _ fates _ seen
  obtain ⟨requests, -⟩ := Prod.mk.inj same
  obtain ⟨first, rest, split, sent, requests⟩ := List.map_eq_cons_iff.mp requests
  obtain ⟨second, last, rfl, unsent, requests⟩ := List.map_eq_cons_iff.mp requests
  obtain rfl := List.map_eq_nil_iff.mp requests
  have quiet : sampleComponents.Within ChainCall.Dated :=
    ⟨fun _ conversation => ⟨[], by simp, rfl⟩, fun _ next only => only⟩
  have dated : ∀ action ∈ sampleActions, action.Dated := by simp [sampleActions, Action.Dated, quiet]
  have each := each_client_gets_one_response HandlerSet.literalRegex HandlerSet.sampleCasts HandlerSet.sampleConfig
    [⟨ascii "pool", 1, 2, 0⟩] globals created [(1, true)] sampleActions dated server ran
  exact ⟨globals, server, created, ran, first, second, split, (each 1 second (by simp [split])).1 unsent,
    (each 0 first (by simp [split])).2 sent⟩

end FCGIServer

end FastcgiContainer
