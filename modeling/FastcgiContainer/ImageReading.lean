import FastcgiContainer.Finishing
import FastcgiContainer.ImageRanges

/-! Reading an image comes to an end, whatever its bytes: a turn of a loop starts
before the end of the section, so that at least one byte is there to be read, and
no position passes the end of the buffer. -/

namespace FastcgiContainer.Request

open Word (Bytes)

def Stuck (exn : Exn) : Prop := ∃ what, exn = .undefined what

def Endless (exn : Exn) : Prop :=
  exn = .undefined "parse does not return" ∨ exn = .undefined "parseFiles does not return"

theorem endless_stuck (exn : Exn) (endless : Endless exn) : Stuck exn := by
  rcases endless with same | same
  · exact ⟨_, same⟩
  · exact ⟨_, same⟩

theorem intEnd_bounds (text : Bytes) (pos : Nat) (inside : pos ≤ text.length) :
    pos ≤ intEnd text pos ∧ intEnd text pos ≤ text.length ∧ (pos < text.length → pos < intEnd text pos) := by
  simp only [intEnd, bytesAt, List.length_take, List.length_drop]
  omega

theorem stringEnd_bounds (text : Bytes) (pos : Nat) (inside : pos ≤ text.length) :
    pos ≤ stringEnd text pos ∧ stringEnd text pos ≤ text.length ∧
      (pos < text.length → pos < stringEnd text pos) := by
  obtain ⟨after, within, more⟩ := intEnd_bounds text pos inside
  have short : (bytesAt text (intEnd text pos) (intAt text pos)).length ≤
      text.length - intEnd text pos := by
    simp only [bytesAt, List.length_take, List.length_drop]
    omega
  unfold stringEnd
  refine ⟨by omega, by omega, ?_⟩
  intro before
  have start := more before
  omega

theorem recordEnd_bounds (text : Bytes) (pos : Nat) (inside : pos ≤ text.length) :
    recordEnd text pos ≤ text.length ∧ (pos < text.length → pos < recordEnd text pos) := by
  obtain ⟨nameAfter, nameWithin, more⟩ := stringEnd_bounds text pos inside
  obtain ⟨remoteAfter, remoteWithin, _⟩ := stringEnd_bounds text _ nameWithin
  obtain ⟨typeAfter, typeWithin, _⟩ := stringEnd_bounds text _ remoteWithin
  obtain ⟨offsetAfter, offsetWithin, _⟩ := intEnd_bounds text _ typeWithin
  obtain ⟨lengthAfter, lengthWithin, _⟩ := intEnd_bounds text _ offsetWithin
  unfold recordEnd offsetAt typeAt
  refine ⟨lengthWithin, ?_⟩
  intro before
  have start := more before
  omega

theorem view_finishes {stuck : Exn → Prop} (harmless : ∀ exn, stuck exn → Stuck exn)
    {buffer : DataBuffer} {heap : Heap} {impl : DataBufferImpl} (live : buffer.impl heap = .ok impl)
    (first last : Nat) :
    Finishes stuck (fun part => part.data = buffer.data) (buffer.view heap first last) := by
  simp only [DataBuffer.view, live, ok_bind]
  apply Finishes.branch
  · intro _ bad
    obtain ⟨_, same⟩ := harmless _ bad
    cases same
  · intro _
    rfl

section Read

variable {heap : Heap} {buffer : DataBuffer} {ref : Nat} {storage : DataBufferImpl}
  (shown : buffer.Shows heap ref storage) {stuck : Exn → Prop}

include shown

theorem parsePairs_finishes {σ : Type} (add : σ → Bytes → Bytes → σ) (posEnd fuel pos : Nat)
    (found : σ) (inside : pos ≤ buffer.size) (last : posEnd ≤ buffer.size) (enough : posEnd ≤ pos + fuel) :
    Finishes stuck (fun read => read.1 ≤ buffer.size)
      (parsePairs buffer heap add posEnd fuel pos found) := by
  have length := shown.text_length
  induction fuel generalizing pos found with
  | zero =>
      unfold parsePairs
      rw [if_neg (by omega)]
      exact inside
  | succ fuel ih =>
      unfold parsePairs
      apply Finishes.branch
      · intro more
        obtain ⟨nameAfter, nameWithin, step⟩ :=
          stringEnd_bounds (buffer.text storage) pos (by omega)
        obtain ⟨valueAfter, valueWithin, _⟩ :=
          stringEnd_bounds (buffer.text storage) (stringEnd (buffer.text storage) pos) nameWithin
        have started := step (by omega)
        simp only [parseString_eq shown, ok_bind]
        exact ih _ _ (by omega) (by omega)
      · intro _
        exact inside

variable (harmless : ∀ exn, stuck exn → Stuck exn)

include harmless

theorem parseLength_finishes (pos : Nat) (what : String) (inside : pos ≤ buffer.size) :
    Finishes stuck (fun ends => ends.1 ≤ buffer.size ∧ ends.2 ≤ buffer.size)
      (parseLength buffer heap pos what) := by
  have length := shown.text_length
  have start := intEnd_bounds (buffer.text storage) pos (by omega)
  rw [parseLength_eq shown]
  apply Finishes.branch
  · intro _ bad
    obtain ⟨_, same⟩ := harmless _ bad
    cases same
  · intro fits
    exact ⟨by omega, by omega⟩

theorem parseSection_finishes {σ : Type} (add : σ → Bytes → Bytes → σ) (what : String) (pos : Nat)
    (found : σ) (inside : pos ≤ buffer.size) :
    Finishes stuck (fun read => read.1 ≤ buffer.size) (parseSection buffer heap add what pos found) := by
  apply (parseLength_finishes shown harmless pos what inside).bind
  rintro ⟨start, posEnd⟩ ⟨startFits, endFits⟩
  exact parsePairs_finishes shown add posEnd posEnd start found startFits endFits (by omega)

theorem parseInto_finishes {σ : Type} (add : σ → Bytes → Bytes → σ) (what : String) (pos : Nat)
    (found : σ) (into : σ → Request) (inside : pos ≤ buffer.size) :
    Finishes stuck (fun read => read.1 ≤ buffer.size) (do
      let (pos, found) ← parseSection buffer heap add what pos found
      .ok (pos, into found)) := by
  apply (parseSection_finishes shown harmless add what pos found inside).bind
  intro read fits
  exact fits

theorem parseHeaders_finishes (request : Request) (pos : Nat) (inside : pos ≤ buffer.size) :
    Finishes stuck (fun read => read.1 ≤ buffer.size) (parseHeaders request buffer heap pos) :=
  parseInto_finishes shown harmless _ _ pos _ (fun headers => { request with headers }) inside

theorem parseCookies_finishes (request : Request) (pos : Nat) (inside : pos ≤ buffer.size) :
    Finishes stuck (fun read => read.1 ≤ buffer.size) (parseCookies request buffer heap pos) :=
  parseInto_finishes shown harmless _ _ pos _ (fun cookies => { request with cookies }) inside

theorem parseVars_finishes (request : Request) (pos : Nat) (inside : pos ≤ buffer.size) :
    Finishes stuck (fun read => read.1 ≤ buffer.size) (parseVars request buffer heap pos) :=
  parseInto_finishes shown harmless _ _ pos _ (fun vars => { request with vars }) inside

theorem parseArgs_finishes (request : Request) (pos : Nat) (inside : pos ≤ buffer.size) :
    Finishes stuck (fun read => read.1 ≤ buffer.size) (parseArgs request buffer heap pos) :=
  parseInto_finishes shown harmless _ _ pos _ (fun args => { request with args }) inside

theorem parseBody_finishes (request : Request) (pos : Nat) (inside : pos ≤ buffer.size) :
    Finishes stuck (fun read => read.1 ≤ buffer.size ∧ read.2.body.data = buffer.data)
      (parseBody request buffer heap pos) := by
  apply (parseLength_finishes shown harmless pos _ inside).bind
  rintro ⟨start, posEnd⟩ ⟨_, fits⟩
  apply (view_finishes harmless shown.impl_eq _ _).bind
  intro body same
  exact ⟨fits, same⟩

variable {body : DataBuffer}
  (viewing : ∀ first last, Finishes stuck (fun _ => True) (body.view heap first last))

include viewing

theorem parseFile_finishes (pos : Nat) :
    Finishes stuck (fun read => read.1 = recordEnd (buffer.text storage) pos)
      (parseFile body buffer heap pos) := by
  simp only [parseFile, parseString_eq shown, parseInt_eq shown, ok_bind]
  apply (viewing _ _).bind
  intro content _
  apply @Finishes.bind _ _ _ _ (fun _ => True)
  · unfold File.create
    split
    · trivial
    · intro bad
      obtain ⟨_, same⟩ := harmless _ bad
      cases same
  · intro file _
    rfl

theorem parseEachFile_finishes (posEnd fuel pos : Nat) (found : OrderedMap Bytes File stringLess)
    (inside : pos ≤ buffer.size) (last : posEnd ≤ buffer.size) (enough : posEnd ≤ pos + fuel) :
    Finishes stuck (fun read => read.1 ≤ buffer.size)
      (parseEachFile body buffer heap posEnd fuel pos found) := by
  have length := shown.text_length
  induction fuel generalizing pos found with
  | zero =>
      unfold parseEachFile
      rw [if_neg (by omega)]
      exact inside
  | succ fuel ih =>
      unfold parseEachFile
      apply Finishes.branch
      · intro more
        obtain ⟨within, step⟩ := recordEnd_bounds (buffer.text storage) pos (by omega)
        have started := step (by omega)
        apply (parseFile_finishes shown harmless viewing pos).bind
        rintro ⟨next, name, file⟩ stop
        simp only at stop
        exact ih next _ (by omega) (by omega)
      · intro _
        exact inside

omit viewing in
theorem parseFiles_finishes (request : Request) (pos : Nat) (inside : pos ≤ buffer.size)
    (viewing : ∀ first last, Finishes stuck (fun _ => True) (request.body.view heap first last)) :
    Finishes stuck (fun read => read.1 ≤ buffer.size) (parseFiles request buffer heap pos) := by
  apply (parseLength_finishes shown harmless pos _ inside).bind
  rintro ⟨start, posEnd⟩ ⟨startFits, endFits⟩
  apply (parseEachFile_finishes shown harmless viewing posEnd posEnd start request.files startFits
    endFits (by omega)).bind
  intro read fits
  exact fits

end Read

theorem parse_not_stuck {heap : Heap} {buffer : DataBuffer} {ref : Nat} {storage : DataBufferImpl}
    (shown : buffer.Shows heap ref storage) (request : Request) :
    Finishes Stuck (fun _ => True) (request.parse heap buffer) := by
  have harmless : ∀ exn, Stuck exn → Stuck exn := fun _ bad => bad
  apply (parseHeaders_finishes shown harmless request 0 (Nat.zero_le _)).bind
  rintro ⟨pos, afterHeaders⟩ inside
  apply (parseCookies_finishes shown harmless afterHeaders pos inside).bind
  rintro ⟨pos, afterCookies⟩ inside
  apply (parseVars_finishes shown harmless afterCookies pos inside).bind
  rintro ⟨pos, afterVars⟩ inside
  apply (parseBody_finishes shown harmless afterVars pos inside).bind
  rintro ⟨pos, afterBody⟩ ⟨inside, same⟩
  have live : afterBody.body.impl heap = .ok storage := by
    simp only at same
    rw [DataBuffer.impl, same]
    exact shown.impl_eq
  have viewing := fun first last =>
    (view_finishes harmless live first last).mono (fun _ _ => trivial)
  apply (parseFiles_finishes shown harmless afterBody pos inside viewing).bind
  rintro ⟨pos, afterFiles⟩ inside
  apply (parseArgs_finishes shown harmless afterFiles pos inside).bind
  intro _ _
  trivial

theorem view_not_endless (body : DataBuffer) (heap : Heap) (first last : Nat) :
    Finishes Endless (fun _ => True) (body.view heap first last) := by
  apply @Finishes.bind _ _ _ _ (fun _ => True)
  · unfold DataBuffer.impl Endless
    split
    · simp [Finishes]
    · split
      · trivial
      · simp [Finishes]
  · intro impl _
    apply Finishes.branch
    · intro _ bad
      obtain ⟨_, same⟩ := endless_stuck _ bad
      cases same
    · intro _
      trivial

def sectionParsers : List (Request → DataBuffer → Heap → Nat → Except Exn (Nat × Request)) :=
  [parseHeaders, parseCookies, parseVars, parseBody, parseFiles, parseArgs]

theorem sectionParsers_finish {heap : Heap} {buffer : DataBuffer} {ref : Nat}
    {storage : DataBufferImpl} (shown : buffer.Shows heap ref storage) (request : Request) (pos : Nat)
    (inside : pos ≤ buffer.size) : ∀ parser ∈ sectionParsers,
    Finishes Endless (fun read => read.1 ≤ buffer.size) (parser request buffer heap pos) := by
  simp only [sectionParsers, List.forall_mem_cons]
  refine ⟨parseHeaders_finishes shown endless_stuck request pos inside,
    parseCookies_finishes shown endless_stuck request pos inside,
    parseVars_finishes shown endless_stuck request pos inside, ?_,
    parseFiles_finishes shown endless_stuck request pos inside (view_not_endless request.body heap),
    parseArgs_finishes shown endless_stuck request pos inside, ?_⟩
  · exact (parseBody_finishes shown endless_stuck request pos inside).mono (fun _ ends => ends.1)
  · intro parser none
    cases none

/-- Any image is read to an answer or an exception, and no section past its buffer. -/
theorem image_reading_ends (request : Request) (heap : Heap) (buffer : DataBuffer) (ref : Nat)
    (storage : DataBufferImpl) (shown : buffer.Shows heap ref storage) :
    (∀ what, request.parse heap buffer ≠ .error (.undefined what)) ∧
    (∀ what, request.restore heap buffer ≠ .error (.undefined what)) ∧
    ∀ parser ∈ sectionParsers, ∀ pos ≤ buffer.size,
      Finishes Endless (fun read => read.1 ≤ buffer.size) (parser request buffer heap pos) := by
  refine ⟨?_, ?_, ?_⟩
  · intro what
    exact (parse_not_stuck shown request).ne_error ⟨what, rfl⟩
  · intro what
    exact (parse_not_stuck shown _).ne_error ⟨what, rfl⟩
  · intro parser member pos inside
    exact sectionParsers_finish shown request pos inside parser member

theorem image_reading_ends_wrapped :
    (∀ what, fresh.parse (imageHeap wrappedImage) (imageBuffer wrappedImage) ≠
      .error (.undefined what)) ∧
    (∀ what, fresh.restore (imageHeap wrappedImage) (imageBuffer wrappedImage) ≠
      .error (.undefined what)) ∧
    ∀ parser ∈ sectionParsers, ∀ pos ≤ (imageBuffer wrappedImage).size,
      Finishes Endless (fun read => read.1 ≤ (imageBuffer wrappedImage).size)
        (parser fresh (imageBuffer wrappedImage) (imageHeap wrappedImage) pos) :=
  image_reading_ends fresh _ _ 0 (.string ⟨wrappedImage⟩) (imageBuffer_shows wrappedImage (by decide))

end FastcgiContainer.Request
