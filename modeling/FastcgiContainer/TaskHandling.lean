import FastcgiContainer.RequestsThreadPool

/-! What the client receives for a task: one response, whatever filters and handlers do, and
when a task is refused because of its age. -/

namespace FastcgiContainer

open Word (Bytes)
open FilterChain (Running Behaviour)

/-- What the client is to receive, and the text that waits in the response stream. -/
structure Page where
  reply : Reply
  text : Bytes

namespace Page

def step {γ : Type} (method : Bytes) (page : Page) : ChainCall γ → Page
  | .respond call => { page with reply := page.reply.step method call }
  | .flush =>
      if page.text = [] then page
      else ⟨page.reply.step method (.write page.text), if method = ascii "HEAD" then page.text else []⟩
  | .text responseStream => { page with text := responseStream }
  | .other _ _ _ => page

def run {γ : Type} (method : Bytes) (page : Page) (calls : List (ChainCall γ)) : Page :=
  calls.foldl (step method) page

/-- The response as it is completed: its header block, what was written directly, and then
the text. -/
def complete (method : Bytes) (page : Page) : Reply :=
  match page.reply with
  | .building draft => .sent draft (Exchange.bodyOf method page.text)
  | .sent draft body => .sent draft (body ++ Exchange.bodyOf method page.text)

end Page

namespace Conversation

variable {γ : Type}

/-- A call that sends a header block finds only cookies that can be formatted. -/
def Sendable (conversation : Conversation γ) : ChainCall γ → Prop
  | .respond call => conversation.exchange.Sendable call
  | .flush => conversation.exchange.Sendable (.write conversation.responseStream)
  | .text _ => True
  | .other _ _ _ => True

def EachSendable : Conversation γ → List (ChainCall γ) → Prop
  | _, [] => True
  | conversation, call :: rest => conversation.Sendable call ∧ (conversation.perform call).EachSendable rest

def method (conversation : Conversation γ) : Bytes := conversation.exchange.request.getRequestMethod

structure Refines (conversation : Conversation γ) (page : Page) : Prop where
  reply : conversation.exchange.Refines page.reply
  text : conversation.responseStream = page.text

theorem sendHeaders_ok (exchange : Exchange) (reply : Reply) (refines : exchange.Refines reply)
    (dated : exchange.request.headersSent = false →
      ∀ entry ∈ exchange.request.outCookies.entries, entry.2.Formattable) :
    exchange.sendHeaders.2 = none := by
  cases reply with
  | building draft =>
      obtain ⟨unsent, blank, queued⟩ := refines
      obtain ⟨block, _, done⟩ := exchange.sendHeadersInternal_writes draft unsent blank queued (dated unsent)
      rw [Exchange.sendHeaders, done]
  | sent draft body =>
      have sent := refines.1
      simp [Exchange.sendHeaders, Exchange.sendHeadersInternal, sent]

theorem write_ok (exchange : Exchange) (reply : Reply) (refines : exchange.Refines reply) (data : Bytes)
    (sendable : exchange.Sendable (.write data)) : (exchange.write data).2 = none := by
  have sends := sendHeaders_ok exchange reply refines (fun unsent => sendable unsent (Or.inr ⟨data, rfl⟩))
  unfold Exchange.write
  cases outcome : exchange.sendHeaders with
  | mk sent raised =>
      rw [outcome] at sends
      obtain rfl : raised = none := sends
      rfl

theorem write_method (exchange : Exchange) (data : Bytes) :
    (exchange.write data).1.request.getRequestMethod = exchange.request.getRequestMethod :=
  exchange.perform_method (.write data)

theorem flush_refines (conversation : Conversation γ) (page : Page) (refines : conversation.Refines page)
    (sendable : conversation.exchange.Sendable (.write conversation.responseStream)) :
    conversation.flush.2 = none ∧
      conversation.flush.1.Refines (page.step conversation.method (.flush : ChainCall γ)) ∧
      conversation.flush.1.method = conversation.method := by
  have text := refines.text
  by_cases silent : conversation.responseStream = []
  · rw [silent] at text
    simp only [flush, silent, List.isEmpty_nil, if_true, Page.step, ← text]
    exact ⟨trivial, refines, trivial⟩
  · have filled : conversation.responseStream.isEmpty = false := by simpa using silent
    have wrote := write_ok _ _ refines.reply conversation.responseStream sendable
    have goes := Exchange.perform_refines _ _ (.write conversation.responseStream) refines.reply sendable
    have same := write_method conversation.exchange conversation.responseStream
    cases outcome : conversation.exchange.write conversation.responseStream with
    | mk exchange raised =>
        rw [outcome] at wrote same
        simp only [Exchange.perform, outcome] at goes
        obtain rfl : raised = none := wrote
        simp only [flush, filled, outcome, Bool.false_eq_true, if_false, Page.step, ← text, silent]
        refine ⟨trivial, ⟨goes, ?_⟩, same⟩
        simp only [same]
        rfl

theorem perform_method (conversation : Conversation γ) (call : ChainCall γ) :
    (conversation.perform call).method = conversation.method := by
  cases call with
  | respond call => exact conversation.exchange.perform_method call
  | flush =>
      simp only [perform, flush]
      split
      · rfl
      · have same := write_method conversation.exchange conversation.responseStream
        cases outcome : conversation.exchange.write conversation.responseStream with
        | mk exchange raised =>
            rw [outcome] at same
            cases raised <;> exact same
  | text responseStream => rfl
  | other request context heap => rfl

theorem perform_refines (conversation : Conversation γ) (page : Page) (call : ChainCall γ)
    (refines : conversation.Refines page) (sendable : conversation.Sendable call) :
    (conversation.perform call).Refines (page.step conversation.method call) := by
  cases call with
  | respond call =>
      exact ⟨Exchange.perform_refines _ _ call refines.reply sendable, refines.text⟩
  | flush => exact (conversation.flush_refines page refines sendable).2.1
  | text responseStream => exact ⟨refines.reply, rfl⟩
  | other request context heap =>
      refine ⟨?_, refines.text⟩
      have before := refines.reply
      cases reply : page.reply with
      | building draft =>
          rw [reply] at before
          obtain ⟨unsent, blank, queued⟩ := before
          simp only [Page.step, reply]
          exact ⟨unsent, blank, queued.status, queued.headers, queued.cookies⟩
      | sent draft body =>
          rw [reply] at before
          simp only [Page.step, reply]
          exact before

theorem run_refines (conversation : Conversation γ) (page : Page) (calls : List (ChainCall γ))
    (refines : conversation.Refines page) (sendable : conversation.EachSendable calls) :
    (conversation.run calls).Refines (page.run conversation.method calls) := by
  induction calls generalizing conversation page with
  | nil => exact refines
  | cons call rest ih =>
      have stepped := perform_refines conversation page call refines sendable.1
      have later := ih (conversation.perform call) _ stepped sendable.2
      rw [perform_method] at later
      exact later

theorem run_method (conversation : Conversation γ) (calls : List (ChainCall γ)) :
    (conversation.run calls).method = conversation.method := by
  induction calls generalizing conversation with
  | nil => rfl
  | cons call rest ih =>
      have later := ih (conversation.perform call)
      rw [perform_method] at later
      exact later

theorem run_append (conversation : Conversation γ) (first second : List (ChainCall γ)) :
    conversation.run (first ++ second) = (conversation.run first).run second :=
  List.foldl_append

end Conversation

namespace RequestsThreadPool

variable {γ : Type} (task : RequestTask γ)

theorem handleEach_calls (list : List (Handler γ)) (conversation : Conversation γ) :
    ∃ calls, (FilterChain.handleEach (behaviour task) list conversation).1 = conversation.run calls := by
  induction list generalizing conversation with
  | nil => exact ⟨[], rfl⟩
  | cons handler rest ih =>
      unfold FilterChain.handleEach
      split
      · exact ⟨[], rfl⟩
      · obtain ⟨first, made⟩ := handler.calls conversation
        have same : (behaviour task).handleRequest handler conversation = handler.handleRequest conversation := rfl
        rw [same]
        cases outcome : handler.handleRequest conversation with
        | mk after raised =>
            rw [outcome] at made
            cases raised with
            | some exn => exact ⟨first, made⟩
            | none =>
                obtain ⟨second, later⟩ := ih after
                refine ⟨first ++ second, ?_⟩
                rw [Conversation.run_append, ← made]
                exact later

theorem handleAll_calls : CallsOnly (FilterChain.handleAll (behaviour task)) := by
  intro running
  exact handleEach_calls task running.handlers running.world

theorem handlers_calls : CallsOnly (FilterChain.handlers (behaviour task)) := by
  intro running
  unfold FilterChain.handlers
  cases future : task.futureHandlers with
  | none =>
      have absent : (behaviour task).futureHandlers = none := by simp [behaviour, future]
      rw [absent]
      cases running.handlers.isEmpty <;> exact handleAll_calls task running
  | some futureHandlers =>
      have present : (behaviour task).futureHandlers =
          some (fun conversation => (conversation, futureHandlers conversation)) := by
        simp [behaviour, future]
      rw [present]
      cases running.handlers.isEmpty with
      | false => exact handleAll_calls task running
      | true =>
          simp only
          cases futureHandlers running.world with
          | error exn => exact ⟨[], rfl⟩
          | ok found => exact handleAll_calls task ⟨running.world, found⟩

theorem nested_calls (filters : List (Filter γ))
    {inner : FilterChain.Action (Running (Conversation γ) (Handler γ)) Raised} (only : CallsOnly inner) :
    CallsOnly (FilterChain.nested (behaviour task) filters inner) := by
  induction filters with
  | nil => exact only
  | cons filter rest ih => exact filter.calls _ ih

theorem chain_calls (conversation : Conversation γ) :
    ∃ calls, (chain task conversation).1 = (begun conversation).run calls := by
  have only := nested_calls task task.filters (handlers_calls task)
  rw [← FilterChain.execute_nested] at only
  exact only ⟨begun conversation, task.handlers⟩

section Answer

variable (conversation : Conversation γ)

theorem sendErrorUnlessSent_sent (raised : Raised) (status : UInt16)
    (sent : conversation.exchange.request.headersSent = true) :
    sendErrorUnlessSent conversation raised status = (conversation, some raised) := by
  simp [sendErrorUnlessSent, Request.setStatus, sent]

theorem sendErrorUnlessSent_unsent (raised : Raised) (status : UInt16)
    (unsent : conversation.exchange.request.headersSent = false) (blank : conversation.exchange.output = []) :
    (sendErrorUnlessSent conversation raised status).2 = none ∧
      (Reply.sent (Draft.error status.toNat) (Exchange.errorBody status.toNat)).Written
        (sendErrorUnlessSent conversation raised status).1.exchange.output := by
  let probed := { conversation.exchange.request with status := 500 }
  obtain ⟨block, shaped, done⟩ := Exchange.sendHeadersInternal_writes
    ⟨Exchange.errorPage probed status.toNat, conversation.exchange.output⟩ _ unsent blank
    (Exchange.queued_error probed status.toNat) (by simp [Exchange.errorPage])
  have answered : Exchange.sendError ⟨probed, conversation.exchange.output⟩ status.toNat =
      (⟨{ Exchange.withStatus (Exchange.errorPage probed status.toNat) with headersSent := true },
        block ++ Exchange.errorBody status.toNat⟩, none) := by
    have fresh : probed.headersSent = false := unsent
    simp only [Exchange.sendError, fresh, done, Exchange.emit, Bool.false_eq_true, if_false]
  simp only [sendErrorUnlessSent, Request.setStatus_unsent _ unsent, Conversation.through]
  simp only [probed] at answered
  rw [answered]
  exact ⟨rfl, block, shaped, rfl⟩

theorem complete_eq (method : Bytes) (page : Page) :
    (page.step method (.flush : ChainCall γ)).reply.step method .sendHeaders = page.complete method := by
  have nothing : Exchange.bodyOf method [] = [] := by
    unfold Exchange.bodyOf
    split <;> rfl
  cases page with
  | mk reply text =>
      by_cases silent : text = []
      · cases reply with
        | building draft => simp [Page.step, Page.complete, Reply.step, silent, nothing]
        | sent draft body => simp [Page.step, Page.complete, Reply.step, silent, nothing]
      · cases reply with
        | building draft => simp [Page.step, Page.complete, Reply.step, silent]
        | sent draft body => simp [Page.step, Page.complete, Reply.step, silent]

theorem flush_sendable (sendable : conversation.exchange.Sendable .sendHeaders) (page : Page)
    (refines : conversation.Refines page) : conversation.flush.1.exchange.Sendable .sendHeaders := by
  have writes : conversation.exchange.Sendable (.write conversation.responseStream) :=
    fun unsent _ => sendable unsent (Or.inl rfl)
  have flushed := (conversation.flush_refines page refines writes).2.1.reply
  by_cases silent : conversation.responseStream = []
  · have same : conversation.flush.1 = conversation := by simp [Conversation.flush, silent]
    rw [same]
    exact sendable
  · intro unsent
    have text := refines.text
    rw [text] at silent
    simp only [Page.step, silent, if_false] at flushed
    have sent : conversation.flush.1.exchange.request.headersSent = true := by
      cases reply : page.reply with
      | building draft =>
          rw [reply] at flushed
          exact flushed.1
      | sent draft body =>
          rw [reply] at flushed
          exact flushed.1
    rw [sent] at unsent
    cases unsent

theorem finish_written (page : Page) (refines : conversation.Refines page)
    (sendable : conversation.exchange.Sendable .sendHeaders) :
    (finish conversation).2 = none ∧
      (page.complete conversation.method).Written (finish conversation).1.exchange.output := by
  obtain ⟨quiet, flushed, same⟩ := conversation.flush_refines page refines
    (fun unsent _ => sendable unsent (Or.inl rfl))
  have able := flush_sendable conversation sendable page refines
  have sends := Conversation.sendHeaders_ok _ _ flushed.reply (fun unsent => able unsent (Or.inl rfl))
  have goes := Exchange.perform_refines _ _ .sendHeaders flushed.reply able
  have whole : conversation.flush.1.exchange.request.getRequestMethod = conversation.method := same
  rw [whole, complete_eq] at goes
  cases outcome : conversation.flush with
  | mk after raised =>
      rw [outcome] at quiet sends goes
      obtain rfl : raised = none := quiet
      simp only [finish, outcome, Conversation.through, sends, Option.map_none]
      exact ⟨trivial, goes.written.2⟩

end Answer

end RequestsThreadPool

namespace Raised

def isDispatch : Raised → Bool
  | dispatch _ => true
  | _ => false

def status : Raised → UInt16
  | http status => status
  | _ => 500

end Raised

namespace RequestsThreadPool

variable {γ : Type}

theorem caught_eq (task : RequestTask γ) (conversation : Conversation γ) (raised : Raised)
    (other : raised.isDispatch = false) :
    caught task conversation raised = sendErrorUnlessSent conversation raised raised.status := by
  cases raised with
  | dispatch exn => cases other
  | http status => rfl
  | standard exn => rfl
  | unknown => rfl

section Handle

variable (pool : RequestsThreadPool) (now : Int) (task : RequestTask γ) (conversation : Conversation γ)
  (waited : milliseconds pool.delay ≤ now - task.start)

include waited

theorem handleTask_raised (raised : Raised) (thrown : (chain task conversation).2 = some raised) :
    pool.handleTask now task conversation = caught task (chain task conversation).1 raised := by
  have ran : chain task conversation = ((chain task conversation).1, some raised) := by
    rw [← thrown]
  rw [handleTask, if_neg (not_lt.mpr waited), FilterChain.andThen, ran]

theorem handleTask_returned (returned : (chain task conversation).2 = none)
    (finishes : (finish (chain task conversation).1).2 = none) :
    pool.handleTask now task conversation = ((finish (chain task conversation).1).1, none) := by
  have ran : chain task conversation = ((chain task conversation).1, none) := by
    rw [← returned]
  rw [handleTask, if_neg (not_lt.mpr waited), FilterChain.andThen, ran]
  cases ends : finish (chain task conversation).1 with
  | mk left raised =>
      rw [ends] at finishes
      obtain rfl : raised = none := finishes
      simp only [ends]

/-- A task that is not refused gets one response, if the header blocks of what is queued can
be formatted. An exception is answered by the page of its status alone, unless headers were
sent: then it is thrown again and nothing is added. Otherwise the response is completed with
the text of the response stream. -/
theorem task_gets_one_response (draft : Draft) (begins : conversation.exchange.Refines (.building draft)) :
    (∃ calls, (chain task conversation).1 = (begun conversation).run calls) ∧
      ∀ calls, (chain task conversation).1 = (begun conversation).run calls →
        (begun conversation).EachSendable calls →
        (∀ raised, (chain task conversation).2 = some raised → raised.isDispatch = false →
          (chain task conversation).1.exchange.request.headersSent = false →
          (pool.handleTask now task conversation).2 = none ∧
            (Reply.sent (Draft.error raised.status.toNat) (Exchange.errorBody raised.status.toNat)).Written
              (pool.handleTask now task conversation).1.exchange.output) ∧
        (∀ raised, (chain task conversation).2 = some raised → raised.isDispatch = false →
          (chain task conversation).1.exchange.request.headersSent = true →
          pool.handleTask now task conversation = ((chain task conversation).1, some raised)) ∧
        ((chain task conversation).2 = none →
          (chain task conversation).1.exchange.Sendable .sendHeaders →
          (pool.handleTask now task conversation).2 = none ∧
            ((Page.run conversation.method ⟨.building draft, []⟩ calls).complete conversation.method).Written
              (pool.handleTask now task conversation).1.exchange.output) := by
  refine ⟨chain_calls task conversation, ?_⟩
  intro calls made sendable
  have starts : (begun conversation).Refines ⟨.building draft, []⟩ := ⟨begins, rfl⟩
  have refines := (begun conversation).run_refines _ calls starts sendable
  have method := (begun conversation).run_method calls
  rw [← made] at refines method
  refine ⟨?_, ?_, ?_⟩
  · intro raised thrown other unsent
    have blank : (chain task conversation).1.exchange.output = [] := by
      have reply := refines.reply
      cases page : (Page.run (begun conversation).method ⟨.building draft, []⟩ calls).reply with
      | building draft =>
          rw [page] at reply
          exact reply.2.1
      | sent draft body =>
          rw [page] at reply
          rw [reply.1] at unsent
          cases unsent
    rw [handleTask_raised pool now task conversation waited raised thrown, caught_eq _ _ _ other]
    exact sendErrorUnlessSent_unsent _ raised raised.status unsent blank
  · intro raised thrown other sent
    rw [handleTask_raised pool now task conversation waited raised thrown, caught_eq _ _ _ other]
    exact sendErrorUnlessSent_sent _ raised raised.status sent
  · intro returned dated
    obtain ⟨quiet, written⟩ := finish_written _ _ refines dated
    rw [handleTask_returned pool now task conversation waited returned quiet]
    rw [method] at written
    exact ⟨rfl, written⟩

end Handle

def newConversation : Conversation Unit := ⟨⟨Request.fresh, []⟩, [], .empty, []⟩

def scripted (script : List (ChainCall Unit)) (raised : Option Raised) : Handler Unit where
  handleRequest conversation := (conversation.run script, raised)
  calls _ := ⟨script, rfl⟩

def scriptedTask (script : List (ChainCall Unit)) (raised : Option Raised) : RequestTask Unit :=
  ⟨[], [scripted script raised], none, none, 0⟩

def missingPage : List (ChainCall Unit) :=
  [.respond (.setHeader (ascii "x-one") (ascii "1")), .respond (.setCookie Exchange.sampleCookie),
    .text (ascii "page")]

theorem task_gets_one_response_missing :
    (Reply.sent (Draft.error 404) (Exchange.errorBody 404)).Written
        (handleTask ⟨0⟩ 1 (scriptedTask missingPage (some (.http 404))) newConversation).1.exchange.output ∧
      (Reply.sent (((⟨200, [], []⟩ : Draft).setHeader (ascii "x-one") (ascii "1")).setCookie
          Exchange.sampleCookie) (ascii "page")).Written
        (handleTask ⟨0⟩ 1 (scriptedTask missingPage none) newConversation).1.exchange.output := by
  have begins : newConversation.exchange.Refines (.building ⟨200, [], []⟩) :=
    Exchange.Unanswered.refines Request.fresh ⟨rfl, rfl, rfl⟩
  have sendable : (begun newConversation).EachSendable missingPage :=
    ⟨Exchange.sendable_silent _ nofun nofun, Exchange.sendable_silent _ nofun nofun, trivial, trivial⟩
  constructor
  · exact ((task_gets_one_response ⟨0⟩ 1 (scriptedTask missingPage (some (.http 404))) newConversation
      (by decide) _ begins).2 missingPage rfl sendable).1 (.http 404) rfl rfl rfl |>.2
  · exact ((task_gets_one_response ⟨0⟩ 1 (scriptedTask missingPage none) newConversation
      (by decide) _ begins).2 missingPage rfl sendable).2.2 rfl (by intro _ _; decide +kernel) |>.2

/-- A handler sets a cookie that cannot be formatted and returns. The header block breaks off
at the cookie, and the page of an error follows it. -/
theorem late_cookie_breaks_answer :
    let task := scriptedTask [.respond (.setCookie Exchange.lateCookie)] none
    let answer := handleTask ⟨0⟩ 1 task newConversation
    let page := Page.run newConversation.method ⟨.building ⟨200, [], []⟩, []⟩
      ([.respond (.setCookie Exchange.lateCookie)] : List (ChainCall Unit))
    (chain task newConversation).2.isNone = true ∧
      answer.1.exchange.output =
        ascii ("Status: 200 OK\r\nSet-Cookie: Content-type: text/html\r\n" ++
          "Status: 500 Internal Error\r\n\r\n" ++
          "<html><body><h1>500 Internal Error</h1></body></html>") ∧
      ¬(page.complete newConversation.method).Written answer.1.exchange.output := by
  refine ⟨rfl, by decide +kernel, ?_⟩
  rintro ⟨block, ⟨headers, cookies, -, -, -, -, listed, formatted⟩, -⟩
  have queued := (listed Exchange.lateCookie).mpr (by decide +kernel)
  obtain ⟨entry, member, named⟩ := List.mem_map.mp queued
  have text := formatted entry member
  rw [named, Exchange.lateCookie.toString_error (by decide +kernel)] at text
  cases text

section Delay

/-- Whatever its filters and handlers are, a task that is added at one time and handled at
another is answered with 503 and they are not called. -/
def Refuses (pool : RequestsThreadPool) (added handled : Int) : Prop :=
  ∀ (filters : List (Filter Unit)) (handlers : List (Handler Unit)) (task queued : RequestTask Unit)
    (conversation : Conversation Unit),
    Server.handleRequestInternal pool added filters handlers task = some queued ∨
      Server.handleRequestByFilters pool added filters task = queued →
    pool.handleTask handled queued conversation =
      conversation.through (conversation.exchange.sendError 503)

theorem refuses_iff (pool : RequestsThreadPool) (added handled : Int) :
    pool.Refuses added handled ↔ handled - added < 2 * milliseconds pool.delay := by
  constructor
  · intro refuses
    by_contra late
    have answer := refuses [] [scripted [] none] (scriptedTask [] none) _ newConversation (Or.inl rfl)
    rw [handleTask_returned pool handled _ newConversation (by simp only; omega) rfl rfl] at answer
    have output : (finish (begun newConversation)).1.exchange.output =
        (newConversation.through (newConversation.exchange.sendError 503)).1.exchange.output :=
      congrArg (fun result => result.1.exchange.output) answer
    revert output
    decide +kernel
  · intro early filters handlers task queued conversation prepared
    have start : queued.start = added + milliseconds pool.delay := by
      rcases prepared with byHandlers | rfl
      · unfold Server.handleRequestInternal at byHandlers
        split at byHandlers
        · cases byHandlers
        · cases byHandlers
          rfl
      · rfl
    rw [handleTask, if_pos (by omega)]

/-- A task is refused for having waited longer than the delay exactly if it has, provided it has
not waited twice as long: the delay is added to the time at which the task is added, and
the comparison then takes what is too young. -/
theorem refused_when_delayed_iff (pool : RequestsThreadPool) (added handled : Int)
    (delays : 0 < pool.delay) :
    (pool.Refuses added handled ↔ handled - added > milliseconds pool.delay) ↔
      milliseconds pool.delay < handled - added ∧ handled - added < 2 * milliseconds pool.delay := by
  have positive : 0 < milliseconds pool.delay := by
    unfold milliseconds
    omega
  rw [refuses_iff]
  omega

theorem refused_when_delayed_iff_second :
    (RequestsThreadPool.Refuses ⟨1000⟩ 0 1500000000 ↔ 1500000000 - 0 > milliseconds 1000) :=
  (refused_when_delayed_iff ⟨1000⟩ 0 1500000000 (by decide)).mpr (by decide)

/-- With a delay of one second a task that is handled at once is refused, and one that has
waited for an hour is not. -/
theorem young_task_is_refused :
    (RequestsThreadPool.Refuses ⟨1000⟩ 0 0 ∧ ¬((0 : Int) - 0 > milliseconds 1000)) ∧
      ¬RequestsThreadPool.Refuses ⟨1000⟩ 0 3600000000000 ∧ (3600000000000 : Int) - 0 > milliseconds 1000 := by
  refine ⟨⟨(refuses_iff ⟨1000⟩ 0 0).mpr (by decide), by decide⟩, ?_, by decide⟩
  rw [refuses_iff]
  decide

end Delay

end RequestsThreadPool

end FastcgiContainer
