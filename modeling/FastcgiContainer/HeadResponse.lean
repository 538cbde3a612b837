import FastcgiContainer.ResponseRuns

/-! The response to a HEAD request: both overloads of `Request::write` leave the body out,
`Request::sendError` does not. -/

namespace FastcgiContainer

open Word (Bytes)

namespace Reply

def Bodiless : Reply → Prop
  | building _ => True
  | sent _ body => body = []

end Reply

namespace Exchange

/-- Nothing was written, or one header block and nothing after it. -/
def Bare (output : Bytes) : Prop := output = [] ∨ ∃ draft, HeaderBlock draft output

/-- While nothing was sent, no error page is asked for, and what is sent can be formatted. -/
structure Quiet (state : Exchange) (call : ResponseCall) : Prop where
  sendable : state.Sendable call
  pageless : state.request.headersSent = false → ∀ status, call ≠ .sendError status

def EachQuiet : Exchange → List ResponseCall → Prop
  | _, [] => True
  | state, call :: rest => state.Quiet call ∧ (state.perform call).1.EachQuiet rest

theorem block_last {draft : Draft} {block : Bytes} (shaped : HeaderBlock draft block) :
    block.getLast? = some 10 := by
  obtain ⟨headers, cookies, rfl, _⟩ := shaped
  rw [List.getLast?_append]
  rfl

theorem not_bare {output : Bytes} {symbol : UInt8} (last : output.getLast? = some symbol)
    (other : symbol ≠ 10) : ¬ Bare output := by
  rintro (blank | ⟨draft, shaped⟩)
  · rw [blank] at last
    cases last
  · rw [block_last shaped] at last
    exact other (Option.some.inj last).symm

theorem errorBody_last (block : Bytes) (status : Nat) :
    (block ++ errorBody status).getLast? = some 62 := by
  have closing : (errorBody status).getLast? = some 62 := by
    unfold errorBody
    rw [List.getLast?_append]
    rfl
  rw [List.getLast?_append, closing]
  rfl

theorem sendCookies_last (cookies : List Cookie) (output : Bytes)
    (undated : ¬ ∀ cookie ∈ cookies, cookie.Formattable) :
    ∃ exn, (sendCookies cookies output).2 = some exn ∧
      (sendCookies cookies output).1.getLast? = some 32 := by
  induction cookies generalizing output with
  | nil => exact absurd (by simp) undated
  | cons cookie rest ih =>
      unfold sendCookies
      by_cases dated : cookie.Formattable
      · obtain ⟨text, written⟩ := cookie.toString_eq dated
        rw [written]
        apply ih
        intro others
        apply undated
        intro other member
        rcases List.mem_cons.mp member with rfl | later
        · exact dated
        · exact others other later
      · rw [cookie.toString_error dated]
        refine ⟨_, rfl, ?_⟩
        dsimp only
        rw [List.getLast?_append]
        rfl

theorem sendHeadersInternal_last (state : Exchange) (unsent : state.request.headersSent = false)
    (undated : ¬ ∀ entry ∈ state.request.outCookies.entries, entry.2.Formattable) :
    ∃ exn, state.sendHeadersInternal.2 = some exn ∧
      state.sendHeadersInternal.1.output.getLast? = some 32 := by
  have some : ¬ ∀ cookie ∈ (withStatus state.request).outCookies.entries.map Prod.snd,
      cookie.Formattable := by
    intro dated
    exact undated (fun entry member => dated entry.2 (List.mem_map_of_mem member))
  obtain ⟨exn, failed, last⟩ := sendCookies_last _
    (state.output ++ (withStatus state.request).outHeaders.entries.flatMap headerLine) some
  simp only [sendHeadersInternal, unsent, Bool.false_eq_true, if_false]
  generalize sendCookies _ _ = sent at failed last ⊢
  obtain ⟨output, outcome⟩ := sent
  simp only at failed last
  subst failed
  exact ⟨exn, rfl, last⟩

section Step

variable {state : Exchange} {reply : Reply} (refines : state.Refines reply)

include refines

theorem Refines.bare (bodiless : reply.Bodiless) : Bare state.output := by
  have written := refines.written.2
  cases reply with
  | building draft => exact Or.inl written
  | sent draft body =>
      obtain ⟨block, shaped, output⟩ := written
      simp only [Reply.Bodiless] at bodiless
      rw [bodiless, List.append_nil] at output
      exact Or.inr ⟨draft, output ▸ shaped⟩

variable (call : ResponseCall)

theorem step_bodiless (bodiless : reply.Bodiless) (quiet : state.Quiet call) :
    (reply.step (ascii "HEAD") call).Bodiless := by
  cases reply with
  | building draft =>
      cases call with
      | sendError status => exact absurd rfl (quiet.pageless refines.1 status)
      | sendHeaders => rfl
      | write data => rfl
      | _ => trivial
  | sent draft body =>
      cases call with
      | write data => simpa [Reply.step, Reply.Bodiless, bodyOf] using bodiless
      | _ => exact bodiless

theorem perform_loud (loud : ¬ state.Quiet call) : ¬ Bare (state.perform call).1.output := by
  by_cases unsent : state.request.headersSent = false
  · by_cases page : ∃ status, call = .sendError status
    · obtain ⟨status, rfl⟩ := page
      cases reply with
      | sent draft body =>
          rw [refines.1] at unsent
          cases unsent
      | building draft =>
          obtain ⟨block, shaped, done⟩ := sendHeadersInternal_writes
            ⟨errorPage state.request status.toNat, state.output⟩ _ unsent refines.2.1
            (queued_error state.request status.toNat) (by simp [errorPage])
          rw [perform, sendError, if_neg (by simp [unsent]), done]
          exact not_bare (errorBody_last block status.toNat) (by decide)
    · have pageless : ∀ status, call ≠ .sendError status := fun status same => page ⟨status, same⟩
      have undated : ¬ state.Sendable call := fun sendable => loud ⟨sendable, fun _ => pageless⟩
      simp only [Sendable, Classical.not_imp] at undated
      obtain ⟨_, sends, undated⟩ := undated
      obtain ⟨exn, failed, last⟩ := sendHeadersInternal_last state unsent (by simpa using undated)
      rcases sends with rfl | ⟨data, rfl⟩
      · exact not_bare last (by decide)
      · simp only [perform, write, sendHeaders]
        generalize state.sendHeadersInternal = sent at failed last ⊢
        obtain ⟨sent, outcome⟩ := sent
        simp only at failed last
        subst failed
        exact not_bare last (by decide)
  · exact absurd ⟨fun early => absurd early unsent, fun early => absurd early unsent⟩ loud

end Step

/-- A run on a HEAD request never writes more than a header block exactly when all its
steps are quiet. -/
theorem run_bare_iff (state : Exchange) (reply : Reply) (refines : state.Refines reply)
    (bodiless : reply.Bodiless) (head : state.request.getRequestMethod = ascii "HEAD")
    (calls : List ResponseCall) :
    (∀ done, done <+: calls → Bare (state.run done).output) ↔ state.EachQuiet calls := by
  induction calls generalizing state reply with
  | nil =>
      constructor
      · exact fun _ => trivial
      · rintro _ done within
        rw [List.prefix_nil.mp within]
        exact refines.bare bodiless
  | cons call rest ih =>
      have whole : (∀ done, done <+: call :: rest → Bare (state.run done).output) ↔
          ∀ done, done <+: rest → Bare ((state.perform call).1.run done).output := by
        constructor
        · intro bare done within
          exact bare (call :: done) (List.cons_prefix_cons.mpr ⟨rfl, within⟩)
        · intro bare done within
          cases done with
          | nil => exact refines.bare bodiless
          | cons first others =>
              obtain ⟨rfl, later⟩ := List.cons_prefix_cons.mp within
              exact bare others later
      rw [whole, EachQuiet]
      by_cases quiet : state.Quiet call
      · have stepped := perform_refines state reply call refines quiet.sendable
        have method := perform_method state call
        rw [head] at stepped
        rw [ih (state.perform call).1 _ stepped (step_bodiless refines call bodiless quiet)
          (method.trans head)]
        exact ⟨fun later => ⟨quiet, later⟩, fun both => both.2⟩
      · constructor
        · intro bare
          exact absurd (bare [] List.nil_prefix) (perform_loud refines call quiet)
        · exact fun both => absurd both.1 quiet

/-- The bytes that are written for a HEAD request are at most one header block, at every
time, exactly when no error page is sent and no cookie fails to be formatted. -/
theorem head_response_bare_iff (request : Request) (unanswered : Unanswered request)
    (head : request.getRequestMethod = ascii "HEAD") (calls : List ResponseCall) :
    (∀ done, done <+: calls → Bare (Exchange.run ⟨request, []⟩ done).output) ↔
      EachQuiet ⟨request, []⟩ calls :=
  run_bare_iff ⟨request, []⟩ _ unanswered.refines trivial head calls

def sampleHead : Request :=
  { Request.fresh with vars := OrderedMap.empty.assign (ascii "REQUEST_METHOD") (ascii "HEAD") }

theorem head_response_bare_iff_page :
    EachQuiet ⟨sampleHead, []⟩ samplePage ∧
      ∀ done, done <+: samplePage → Bare (Exchange.run ⟨sampleHead, []⟩ done).output := by
  have quiet : EachQuiet ⟨sampleHead, []⟩ samplePage := by
    refine ⟨⟨sendable_silent _ nofun nofun, by simp⟩, ⟨sendable_silent _ nofun nofun, by simp⟩,
      ⟨sendable_silent _ nofun nofun, by simp⟩, ⟨?_, by simp⟩, trivial⟩
    intro _ _
    decide +kernel
  exact ⟨quiet, (head_response_bare_iff sampleHead ⟨rfl, rfl, rfl⟩ (by decide +kernel) samplePage).mpr quiet⟩

/-- What the server answers where no handler is found. -/
theorem head_response_error_page :
    (Exchange.run ⟨sampleHead, []⟩ [.sendError 404]).output =
        ascii "Content-type: text/html\r\nStatus: 404 Not found\r\n\r\n" ++
          ascii "<html><body><h1>404 Not found</h1></body></html>" ∧
      ¬ Bare (Exchange.run ⟨sampleHead, []⟩ [.sendError 404]).output := by
  have written : (Exchange.run ⟨sampleHead, []⟩ [.sendError 404]).output =
      ascii "Content-type: text/html\r\nStatus: 404 Not found\r\n\r\n" ++
        ascii "<html><body><h1>404 Not found</h1></body></html>" := by decide +kernel
  refine ⟨written, ?_⟩
  rw [written]
  exact @not_bare _ 62 (by decide +kernel) (by decide)

end Exchange

end FastcgiContainer
