import FastcgiContainer.Response

/-! Every order of calls that build and send a response. `Reply` says what the client
should receive; the request refines it while its cookies can be formatted. -/

namespace FastcgiContainer

open Word (Bytes)

inductive ResponseCall where
  | setStatus (status : UInt16)
  | setHeader (name value : Bytes)
  | setCookie (cookie : Cookie)
  | deleteCookie (name : Bytes)
  | redirectToPath (path : Bytes)
  | sendError (status : UInt16)
  | sendHeaders
  | write (data : Bytes)

namespace Exchange

def perform (state : Exchange) : ResponseCall → Outcome
  | .setStatus status => state.update (state.request.setStatus status.toNat)
  | .setHeader name value => state.update (state.request.setHeader name value)
  | .setCookie cookie => state.update (state.request.setCookie cookie)
  | .deleteCookie name => state.update (state.request.deleteCookie name)
  | .redirectToPath path => state.update (state.request.redirectToPath path)
  | .sendError status => state.sendError status.toNat
  | .sendHeaders => state.sendHeaders
  | .write data => state.write data

/-- A run of calls; the caller goes on after an exception. -/
def run (state : Exchange) (calls : List ResponseCall) : Exchange :=
  calls.foldl (fun current call => (current.perform call).1) state

end Exchange

/-- What was asked for so far: the status, and the headers and cookies in the order
in which they were set. -/
structure Draft where
  status : Nat
  headers : List (Bytes × Bytes)
  cookies : List Cookie

namespace Draft

def setHeader (draft : Draft) (name value : Bytes) : Draft :=
  { draft with headers := draft.headers ++ [(Parser.normalizeOutputHeaderName name, value)] }

def setCookie (draft : Draft) (cookie : Cookie) : Draft :=
  { draft with cookies := draft.cookies ++ [cookie] }

/-- The last value set for a header, whatever the case of its name. -/
def lastHeader (draft : Draft) (name : Bytes) : Option Bytes :=
  (draft.headers.reverse.find? (fun entry =>
    OrderedMap.equivalent stringCILess entry.1 name)).map Prod.snd

def lastCookie (draft : Draft) (name : Bytes) : Option Cookie :=
  draft.cookies.reverse.find? (fun cookie => cookie.name = name)

/-- The page of an error replaces everything set before. -/
def error (status : Nat) : Draft := ⟨status, [(ascii "Content-type", ascii "text/html")], []⟩

theorem lastHeader_setHeader (draft : Draft) (name value query : Bytes) :
    (draft.setHeader name value).lastHeader query =
      if OrderedMap.equivalent stringCILess (Parser.normalizeOutputHeaderName name) query = true
      then some value else draft.lastHeader query := by
  simp only [lastHeader, setHeader, List.reverse_append, List.reverse_cons, List.reverse_nil,
    List.nil_append, List.cons_append, List.find?_cons]
  split <;> simp_all

theorem lastCookie_setCookie (draft : Draft) (cookie : Cookie) (query : Bytes) :
    (draft.setCookie cookie).lastCookie query =
      if cookie.name = query then some cookie else draft.lastCookie query := by
  simp only [lastCookie, setCookie, List.reverse_append, List.reverse_cons, List.reverse_nil,
    List.nil_append, List.cons_append, List.find?_cons]
  split <;> simp_all

end Draft

/-- A response is being built, or its header block was sent and a body follows it. -/
inductive Reply where
  | building (draft : Draft)
  | sent (draft : Draft) (body : Bytes)

namespace Reply

def isSent : Reply → Bool
  | building _ => false
  | sent _ _ => true

def step (method : Bytes) : Reply → ResponseCall → Reply
  | building draft, .setStatus status => building { draft with status := status.toNat }
  | building draft, .setHeader name value => building (draft.setHeader name value)
  | building draft, .setCookie cookie => building (draft.setCookie cookie)
  | building draft, .deleteCookie name => building (draft.setCookie (Cookie.create name []))
  | building draft, .redirectToPath path =>
      building ({ draft with status := 302 }.setHeader (ascii "Location") path)
  | building _, .sendError status =>
      sent (Draft.error status.toNat) (Exchange.errorBody status.toNat)
  | building draft, .sendHeaders => sent draft []
  | building draft, .write data => sent draft (Exchange.bodyOf method data)
  | sent draft body, .write data => sent draft (body ++ Exchange.bodyOf method data)
  | sent draft body, _ => sent draft body

def run (method : Bytes) (reply : Reply) (calls : List ResponseCall) : Reply :=
  calls.foldl (step method) reply

end Reply

/-- One header block: an entry for each header name and for each cookie name, with the
last value set, then an empty line. -/
def HeaderBlock (draft : Draft) (block : Bytes) : Prop :=
  ∃ (headers : List (Bytes × Bytes)) (cookies : List (Cookie × Bytes)),
    block = headers.flatMap Exchange.headerLine ++
      cookies.flatMap (fun entry => Exchange.cookieLine entry.2) ++ crlf ∧
    headers.Pairwise (fun left right =>
      OrderedMap.equivalent stringCILess left.1 right.1 = false) ∧
    (∀ name, OrderedMap.lookup stringCILess headers name =
      if OrderedMap.equivalent stringCILess (ascii "Status") name = true
      then some (Exchange.statusLine draft.status) else draft.lastHeader name) ∧
    (cookies.map Prod.fst).Pairwise (fun left right => left.name ≠ right.name) ∧
    (∀ cookie, cookie ∈ cookies.map Prod.fst ↔ draft.lastCookie cookie.name = some cookie) ∧
    ∀ entry ∈ cookies, entry.1.toString = .ok entry.2

/-- The bytes on the stream are nothing, or one header block and a body. -/
def Reply.Written : Reply → Bytes → Prop
  | .building _, output => output = []
  | .sent draft body, output => ∃ block, HeaderBlock draft block ∧ output = block ++ body

namespace Exchange

/-- The calls that may send the header block of what is queued, rather than of an
error page, find only cookies that can be formatted. -/
def Sendable (state : Exchange) (call : ResponseCall) : Prop :=
  state.request.headersSent = false → (call = .sendHeaders ∨ ∃ data, call = .write data) →
    ∀ entry ∈ state.request.outCookies.entries, entry.2.Formattable

theorem sendable_silent (state : Exchange) {call : ResponseCall} (silent : call ≠ .sendHeaders)
    (wordless : ∀ data, call ≠ .write data) : state.Sendable call := by
  rintro _ (sends | ⟨data, writes⟩)
  · exact absurd sends silent
  · exact absurd writes (wordless data)

def EachSendable : Exchange → List ResponseCall → Prop
  | _, [] => True
  | state, call :: rest => state.Sendable call ∧ (state.perform call).1.EachSendable rest

structure Queued (draft : Draft) (request : Request) : Prop where
  status : request.status = draft.status
  headers : ∀ name, request.outHeaders.find? name = draft.lastHeader name
  cookies : ∀ name, request.outCookies.find? name = draft.lastCookie name

/-- A request and its stream carry out a response. -/
def Refines (state : Exchange) : Reply → Prop
  | .building draft => state.request.headersSent = false ∧ state.output = [] ∧
      Queued draft state.request
  | .sent draft body => state.request.headersSent = true ∧
      (Reply.sent draft body).Written state.output

theorem sendCookies_eq (cookies : List Cookie) (output : Bytes)
    (dated : ∀ cookie ∈ cookies, cookie.Formattable) :
    ∃ lines : List (Cookie × Bytes), lines.map Prod.fst = cookies ∧
      (∀ entry ∈ lines, entry.1.toString = .ok entry.2) ∧
      sendCookies cookies output = (output ++ lines.flatMap (fun entry => cookieLine entry.2), none) := by
  induction cookies generalizing output with
  | nil => exact ⟨[], rfl, by simp, by simp [sendCookies]⟩
  | cons cookie rest ih =>
      obtain ⟨text, written⟩ := cookie.toString_eq (dated cookie (by simp))
      obtain ⟨lines, names, texts, done⟩ := ih (output ++ cookieLine text)
        (fun later member => dated later (by simp [member]))
      refine ⟨(cookie, text) :: lines, by simp [names], ?_, ?_⟩
      · intro entry member
        rcases List.mem_cons.mp member with rfl | later
        · exact written
        · exact texts entry later
      · simp [sendCookies, written, done]

theorem headers_differ (headers : HeaderMap) : headers.entries.Pairwise (fun left right =>
    OrderedMap.equivalent stringCILess left.1 right.1 = false) := by
  apply headers.sorted.imp
  intro left right before
  simp [OrderedMap.equivalent, before]

theorem cookies_differ (draft : Draft) (request : Request) (queued : Queued draft request) :
    (request.outCookies.entries.map Prod.snd).Pairwise (fun left right => left.name ≠ right.name) ∧
      ∀ cookie, cookie ∈ request.outCookies.entries.map Prod.snd ↔
        draft.lastCookie cookie.name = some cookie := by
  have listed : ∀ entry, entry ∈ request.outCookies.entries ↔
      draft.lastCookie entry.1 = some entry.2 := by
    intro entry
    rw [← queued.cookies, OrderedMap.find?_eq_some stringLess_exact]
  have named : ∀ entry ∈ request.outCookies.entries, entry.2.name = entry.1 := by
    intro entry member
    have found := List.find?_some ((listed entry).mp member)
    exact of_decide_eq_true found
  constructor
  · rw [List.pairwise_map]
    apply request.outCookies.sorted.imp_of_mem
    intro left right first second before same
    rw [named left first, named right second] at same
    have irrefl : stringLess right.1 right.1 = false := KeyOrder.irrefl right.1
    rw [same, irrefl] at before
    cases before
  · intro cookie
    rw [List.mem_map]
    constructor
    · rintro ⟨entry, member, rfl⟩
      rw [named entry member]
      exact (listed entry).mp member
    · intro last
      exact ⟨(cookie.name, cookie), (listed _).mpr last, rfl⟩

theorem Queued.withStatus {draft : Draft} {request : Request} (queued : Queued draft request) (name : Bytes) :
    (withStatus request).outHeaders.find? name =
      if OrderedMap.equivalent stringCILess (ascii "Status") name = true
      then some (statusLine draft.status) else draft.lastHeader name := by
  rw [← queued.headers, ← queued.status]
  exact find?_assign_CI _ _ _ _

theorem sendHeadersInternal_writes (state : Exchange) (draft : Draft)
    (unsent : state.request.headersSent = false) (blank : state.output = [])
    (queued : Queued draft state.request)
    (dated : ∀ entry ∈ state.request.outCookies.entries, entry.2.Formattable) :
    ∃ block, HeaderBlock draft block ∧ state.sendHeadersInternal =
      (⟨{ withStatus state.request with headersSent := true }, block⟩, none) := by
  obtain ⟨lines, names, texts, done⟩ :=
    sendCookies_eq (state.request.outCookies.entries.map Prod.snd)
      ((withStatus state.request).outHeaders.entries.flatMap headerLine) (by
        intro cookie member
        obtain ⟨entry, listed, rfl⟩ := List.mem_map.mp member
        exact dated entry listed)
  have differ := cookies_differ draft state.request queued
  refine ⟨(withStatus state.request).outHeaders.entries.flatMap headerLine ++
    lines.flatMap (fun entry => cookieLine entry.2) ++ crlf, ?_, ?_⟩
  · refine ⟨(withStatus state.request).outHeaders.entries, lines, rfl, headers_differ _, queued.withStatus, ?_, ?_,
      texts⟩
    · rw [names]
      exact differ.1
    · rw [names]
      exact differ.2
  · have same : (withStatus state.request).outCookies = state.request.outCookies := rfl
    simp [sendHeadersInternal, unsent, blank, same, done]

section Step

variable (state : Exchange) (draft : Draft)

theorem queued_setStatus (request : Request) (queued : Queued draft request) (status : Nat) :
    Queued { draft with status := status } { request with status := status } :=
  ⟨rfl, queued.headers, queued.cookies⟩

theorem queued_setHeader (request : Request) (queued : Queued draft request) (name value : Bytes) :
    Queued (draft.setHeader name value) { request with
      outHeaders := request.outHeaders.assign (Parser.normalizeOutputHeaderName name) value } := by
  refine ⟨queued.status, ?_, queued.cookies⟩
  intro query
  rw [Draft.lastHeader_setHeader, ← queued.headers]
  exact find?_assign_CI _ _ _ _

theorem queued_setCookie (request : Request) (queued : Queued draft request) (cookie : Cookie) :
    Queued (draft.setCookie cookie) { request with
      outCookies := request.outCookies.assign cookie.name cookie } := by
  refine ⟨queued.status, queued.headers, ?_⟩
  intro query
  rw [Draft.lastCookie_setCookie, ← queued.cookies]
  exact find?_assign _ _ _ _

theorem queued_error (request : Request) (status : Nat) :
    Queued (Draft.error status) (errorPage request status) := by
  refine ⟨rfl, ?_, fun _ => rfl⟩
  intro query
  rfl

theorem perform_refused (call : ResponseCall) (sent : state.request.headersSent = true)
    (changes : call ≠ .sendHeaders ∧ ∀ data, call ≠ .write data) :
    ∃ exn, state.perform call = (state, some exn) := by
  cases call with
  | setStatus status => simp [perform, update, Request.setStatus, sent]
  | setHeader name value => simp [perform, update, Request.setHeader, sent]
  | setCookie cookie => simp [perform, update, Request.setCookie, sent]
  | deleteCookie name => simp [perform, update, Request.deleteCookie, Request.setCookie, sent]
  | redirectToPath path =>
      simp [perform, update, Request.redirectToPath, Request.setStatus, sent, bind, Except.bind]
  | sendError status => simp [perform, sendError, sent]
  | sendHeaders => exact absurd rfl changes.1
  | write data => exact absurd rfl (changes.2 data)

theorem perform_building (call : ResponseCall) (unsent : state.request.headersSent = false)
    (blank : state.output = []) (queued : Queued draft state.request)
    (sendable : state.Sendable call) :
    (state.perform call).1.Refines (Reply.step state.request.getRequestMethod (.building draft) call) := by
  cases call with
  | setStatus status =>
      rw [perform, state.request.setStatus_unsent unsent]
      exact ⟨unsent, blank, queued_setStatus draft _ queued _⟩
  | setHeader name value =>
      rw [perform, state.request.setHeader_unsent unsent]
      exact ⟨unsent, blank, queued_setHeader draft _ queued name value⟩
  | setCookie cookie =>
      rw [perform, state.request.setCookie_unsent unsent]
      exact ⟨unsent, blank, queued_setCookie draft _ queued cookie⟩
  | deleteCookie name =>
      rw [perform, Request.deleteCookie, state.request.setCookie_unsent unsent]
      exact ⟨unsent, blank, queued_setCookie draft _ queued (Cookie.create name [])⟩
  | redirectToPath path =>
      have moved := queued_setStatus draft _ queued 302
      rw [perform, state.request.redirectToPath_unsent unsent]
      exact ⟨unsent, blank, queued_setHeader _ _ moved _ path⟩
  | sendError status =>
      obtain ⟨block, shaped, done⟩ := sendHeadersInternal_writes
        ⟨errorPage state.request status.toNat, state.output⟩ _ unsent blank
        (queued_error state.request status.toNat) (by simp [errorPage])
      rw [perform, sendError, if_neg (by simp [unsent]), done]
      exact ⟨rfl, block, shaped, rfl⟩
  | sendHeaders =>
      obtain ⟨block, shaped, done⟩ := sendHeadersInternal_writes state draft unsent blank queued
        (sendable unsent (Or.inl rfl))
      simp only [perform, sendHeaders, done]
      exact ⟨rfl, block, shaped, by simp⟩
  | write data =>
      obtain ⟨block, shaped, done⟩ := sendHeadersInternal_writes state draft unsent blank queued
        (sendable unsent (Or.inr ⟨data, rfl⟩))
      simp only [perform, write, sendHeaders, done]
      exact ⟨rfl, block, shaped, rfl⟩

theorem perform_sent (body : Bytes) (call : ResponseCall)
    (refines : state.Refines (.sent draft body)) :
    (state.perform call).1.Refines (Reply.step state.request.getRequestMethod (.sent draft body) call) := by
  obtain ⟨sent, block, shaped, written⟩ := refines
  by_cases changes : call ≠ .sendHeaders ∧ ∀ data, call ≠ .write data
  · obtain ⟨exn, refused⟩ := perform_refused state call sent changes
    have kept : Reply.step state.request.getRequestMethod (.sent draft body) call = .sent draft body := by
      cases call with
      | write data => exact absurd rfl (changes.2 data)
      | _ => rfl
    rw [refused, kept]
    exact ⟨sent, block, shaped, written⟩
  · cases call with
    | sendHeaders =>
        simp only [perform, sendHeaders, sendHeadersInternal, sent, if_true]
        exact ⟨sent, block, shaped, written⟩
    | write data =>
        simp only [perform, write, sendHeaders, sendHeadersInternal, sent, if_true]
        exact ⟨sent, block, shaped, by simp [emit, written]⟩
    | _ => simp at changes

theorem sendHeadersInternal_method : state.sendHeadersInternal.1.request.getRequestMethod =
    state.request.getRequestMethod := by
  unfold sendHeadersInternal
  split
  · rfl
  · dsimp only
    split <;> rfl

theorem perform_method (call : ResponseCall) :
    (state.perform call).1.request.getRequestMethod = state.request.getRequestMethod := by
  have sends := state.sendHeadersInternal_method
  by_cases sent : state.request.headersSent = true
  · by_cases changes : call ≠ .sendHeaders ∧ ∀ data, call ≠ .write data
    · obtain ⟨exn, refused⟩ := perform_refused state call sent changes
      rw [refused]
    · cases call with
      | sendHeaders => exact sends
      | write data => simp [perform, write, sendHeaders, sendHeadersInternal, sent, emit]
      | _ => simp at changes
  · have unsent : state.request.headersSent = false := by simpa using sent
    cases call with
    | setStatus status => rw [perform, state.request.setStatus_unsent unsent]; rfl
    | setHeader name value => rw [perform, state.request.setHeader_unsent unsent]; rfl
    | setCookie cookie => rw [perform, state.request.setCookie_unsent unsent]; rfl
    | deleteCookie name =>
        rw [perform, Request.deleteCookie, state.request.setCookie_unsent unsent]
        rfl
    | redirectToPath path => rw [perform, state.request.redirectToPath_unsent unsent]; rfl
    | sendError status =>
        have page := sendHeadersInternal_method ⟨errorPage state.request status.toNat, state.output⟩
        rw [perform, sendError, if_neg sent]
        split <;> simp_all [emit, errorPage, Request.getRequestMethod, Request.getEnvVariable]
    | sendHeaders => exact sends
    | write data =>
        rw [perform, write, sendHeaders]
        split <;> simp_all [emit]

end Step

theorem perform_refines (state : Exchange) (reply : Reply) (call : ResponseCall)
    (refines : state.Refines reply) (sendable : state.Sendable call) :
    (state.perform call).1.Refines (reply.step state.request.getRequestMethod call) := by
  cases reply with
  | building draft =>
      obtain ⟨unsent, blank, queued⟩ := refines
      exact perform_building state draft call unsent blank queued sendable
  | sent draft body => exact perform_sent state draft body call refines

theorem run_refines (state : Exchange) (reply : Reply) (calls : List ResponseCall)
    (refines : state.Refines reply) (sendable : state.EachSendable calls) :
    (state.run calls).Refines (reply.run state.request.getRequestMethod calls) := by
  induction calls generalizing state reply with
  | nil => exact refines
  | cons call rest ih =>
      have stepped := perform_refines state reply call refines sendable.1
      have later := ih (state.perform call).1 _ stepped sendable.2
      rw [perform_method] at later
      exact later

theorem Refines.written (state : Exchange) (reply : Reply) (refines : state.Refines reply) :
    state.request.headersSent = reply.isSent ∧ reply.Written state.output := by
  cases reply with
  | building draft => exact ⟨refines.1, refines.2.1⟩
  | sent draft body => exact refines

structure Unanswered (request : Request) : Prop where
  unsent : request.headersSent = false
  headers : request.outHeaders = .empty
  cookies : request.outCookies = .empty

theorem Unanswered.refines (request : Request) (unanswered : Unanswered request) :
    Exchange.Refines ⟨request, []⟩ (.building ⟨request.status, [], []⟩) := by
  refine ⟨unanswered.unsent, rfl, rfl, ?_, ?_⟩
  · intro name
    rw [unanswered.headers]
    rfl
  · intro name
    rw [unanswered.cookies]
    rfl

/-- Whatever the order of the calls, the stream carries nothing or one header block,
taken from what was set when it was first sent, followed by the body; and once it
was sent nothing it contains can be changed. -/
theorem stream_is_one_response (request : Request) (unanswered : Unanswered request)
    (calls : List ResponseCall) (sendable : EachSendable ⟨request, []⟩ calls) :
    let final := Exchange.run ⟨request, []⟩ calls
    let reply := (Reply.building ⟨request.status, [], []⟩).run request.getRequestMethod calls
    reply.Written final.output ∧ final.request.headersSent = reply.isSent ∧
      ∀ call, call ≠ .sendHeaders → (∀ data, call ≠ .write data) →
        final.request.headersSent = true → ∃ exn, final.perform call = (final, some exn) := by
  intro final reply
  have refines := run_refines ⟨request, []⟩ _ calls unanswered.refines sendable
  have written := refines.written
  refine ⟨written.2, written.1, ?_⟩
  intro call silent wordless sent
  exact perform_refused final call sent ⟨silent, wordless⟩

def sampleCookie : Cookie := { Cookie.create (ascii "SID") (ascii "7") with expires := 784111777 }

def samplePage : List ResponseCall :=
  [.setHeader (ascii "x-one") (ascii "1"), .setCookie sampleCookie, .setHeader (ascii "X-ONE") (ascii "2"),
    .write (ascii "page")]

theorem stream_is_one_response_page :
    (Exchange.run ⟨Request.fresh, []⟩ samplePage).output =
      ascii ("Status: 200 OK\r\nX-One: 2\r\n" ++
        "Set-Cookie: SID=7; path=/; expires=Sun, 06 Nov 1994 08:49:37 GMT\r\n\r\npage") ∧
    ((Reply.building ⟨200, [], []⟩).run (ascii "") samplePage).Written
      (Exchange.run ⟨Request.fresh, []⟩ samplePage).output := by
  constructor
  · decide +kernel
  · refine (stream_is_one_response Request.fresh ⟨rfl, rfl, rfl⟩ samplePage ?_).1
    refine ⟨sendable_silent _ nofun nofun, sendable_silent _ nofun nofun, sendable_silent _ nofun nofun, ?_,
      trivial⟩
    intro _ _
    decide +kernel

/-- A cookie that expires in a year that `struct tm` cannot hold. -/
def lateCookie : Cookie := { Cookie.create (ascii "SID") (ascii "7") with expires := 2 ^ 62 }

/-- The block breaks off at the cookie and is not marked as sent, so that an error
page can still be sent after it. -/
theorem late_cookie_breaks_stream :
    let calls : List ResponseCall := [.setCookie lateCookie, .sendHeaders, .sendError 500]
    (Exchange.run ⟨Request.fresh, []⟩ calls).output =
      ascii ("Status: 200 OK\r\nSet-Cookie: Content-type: text/html\r\n" ++
        "Status: 500 Internal Error\r\n\r\n" ++
        "<html><body><h1>500 Internal Error</h1></body></html>") ∧
    ¬ ((Reply.building ⟨200, [], []⟩).run (ascii "") calls).Written
      (Exchange.run ⟨Request.fresh, []⟩ calls).output := by
  constructor
  · decide +kernel
  · rintro ⟨block, ⟨headers, cookies, -, -, -, -, listed, formatted⟩, -⟩
    have queued := (listed lateCookie).mpr (by decide +kernel)
    obtain ⟨entry, member, named⟩ := List.mem_map.mp queued
    have text := formatted entry member
    rw [named, lateCookie.toString_error (by decide +kernel)] at text
    cases text

end Exchange

end FastcgiContainer
