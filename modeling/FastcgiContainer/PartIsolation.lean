import FastcgiContainer.MultipartStorage
import FastcgiContainer.TwoRuns

/-! What a part of a form is read as does not depend on the bytes around it, unless its first
header line is a folded one: that line is taken from the beginning of the storage on. Nor does it
depend on the storage, where that trims the pieces of the header lines by their bytes. -/

namespace FastcgiContainer

open Word (Bytes)

namespace Parser

inductive Field where
  | name
  | filename
  | type
  deriving DecidableEq, Repr

abbrev Value := Field × DataBuffer

def PartHeaders.set (found : PartHeaders) (value : Value) : PartHeaders :=
  match value.1 with
  | .name => { found with name := value.2 }
  | .filename => { found with filename := value.2 }
  | .type => { found with type := value.2 }

def parameterValue (heap : Heap) (head : DataBuffer) : Except Exn (List Value) := do
  let (_, key, value) ← head.split heap [61]
  if ← keyIs key heap (ascii "name") then .ok [(.name, value.trimn 1 1)]
  else if ← keyIs key heap (ascii "filename") then .ok [(.filename, value.trimn 1 1)]
  else if ← keyIsCI key heap (ascii "CONTENT_TYPE") then do
    .ok [(.type, ← value.trim heap)]
  else .ok []

/-- All that `parseLine` takes out of a line, also what it then replaces. -/
def lineValues (heap : Heap) : Nat → DataBuffer → Except Exn (List Value)
  | 0, line =>
      if line.empty then .ok [] else .error (.undefined "parseLine does not return")
  | fuel + 1, line =>
      if line.empty then .ok []
      else do
        let (_, head, tail) ← line.split heap [59]
        let values ← parameterValue heap head
        let rest ← tail.trim heap
        let others ← lineValues heap fuel rest
        .ok (values ++ others)

def headerValues (part : DataBuffer) (heap : Heap) : Nat → DataBuffer → Except Exn (List Value)
  | 0, headers =>
      if headers.empty then .ok [] else .error (.undefined "parsePart does not return")
  | fuel + 1, headers =>
      if headers.empty then .ok []
      else do
        let (line, tail) ← foldLine part heap headers.size .nil headers false
        let values ← lineValues heap line.size line
        let others ← headerValues part heap fuel tail
        .ok (values ++ others)

def extracted (heap : Heap) (part : DataBuffer) : Except Exn (List Value) := do
  let (headers, _) ← splitEither part heap emptyLineRNRN emptyLineNN
  headerValues part heap headers.size headers

theorem parseParameter_eq (heap : Heap) (head : DataBuffer) (found : PartHeaders) :
    parseParameter heap head found =
      (parameterValue heap head).map (fun values => values.foldl PartHeaders.set found) := by
  unfold parseParameter parameterValue
  cases head.split heap [61] with
  | error exn => rfl
  | ok halves =>
      obtain ⟨_, key, value⟩ := halves
      simp only [ok_bind]
      cases keyIs key heap (ascii "name") with
      | error exn => rfl
      | ok isName =>
          cases isName with
          | true => rfl
          | false =>
              simp only [ok_bind]
              cases keyIs key heap (ascii "filename") with
              | error exn => rfl
              | ok isFilename =>
                  cases isFilename with
                  | true => rfl
                  | false =>
                      simp only [ok_bind]
                      cases keyIsCI key heap (ascii "CONTENT_TYPE") with
                      | error exn => rfl
                      | ok isType =>
                          cases isType with
                          | false => rfl
                          | true =>
                              simp only [ok_bind]
                              cases value.trim heap with
                              | error exn => rfl
                              | ok trimmed => rfl

theorem parseLine_eq (heap : Heap) (fuel : Nat) (line : DataBuffer) (found : PartHeaders) :
    parseLine heap fuel line found =
      (lineValues heap fuel line).map (fun values => values.foldl PartHeaders.set found) := by
  induction fuel generalizing line found with
  | zero =>
      simp only [parseLine, lineValues]
      split <;> rfl
  | succ fuel ih =>
      simp only [parseLine, lineValues]
      split
      · rfl
      · cases line.split heap [59] with
        | error exn => rfl
        | ok halves =>
            obtain ⟨_, head, tail⟩ := halves
            simp only [ok_bind, parseParameter_eq, ih]
            cases parameterValue heap head with
            | error exn => rfl
            | ok values =>
                cases tail.trim heap with
                | error exn => rfl
                | ok rest =>
                    cases known : lineValues heap fuel rest with
                    | error exn => simp [Except.map, known]
                    | ok others => simp [Except.map, known]

theorem parseHeaders_eq (part : DataBuffer) (heap : Heap) (fuel : Nat) (headers : DataBuffer)
    (found : PartHeaders) :
    parseHeaders part heap fuel headers found =
      (headerValues part heap fuel headers).map (fun values => values.foldl PartHeaders.set found) := by
  induction fuel generalizing headers found with
  | zero =>
      simp only [parseHeaders, headerValues]
      split <;> rfl
  | succ fuel ih =>
      simp only [parseHeaders, headerValues]
      split
      · rfl
      · cases foldLine part heap headers.size .nil headers false with
        | error exn => rfl
        | ok halves =>
            obtain ⟨line, tail⟩ := halves
            simp only [ok_bind, parseLine_eq, ih]
            cases lineValues heap line.size line with
            | error exn => rfl
            | ok values =>
                cases headerValues part heap fuel tail with
                | error exn => simp [Except.map]
                | ok others => simp [Except.map]

end Parser

/-- Two heaps with storages in one place, with the same bytes in a range. -/
structure Surroundings (first second : Heap) (ref lo hi : Nat) (one other : DataBufferImpl) : Prop where
  live : first[ref]? = some one
  otherLive : second[ref]? = some other
  inv : one.Inv
  otherInv : other.Inv
  inside : hi ≤ one.bytes.length
  otherInside : hi ≤ other.bytes.length
  same : Range.slice one.bytes lo hi = Range.slice other.bytes lo hi

open DataBuffer (Denotes TrimsAlike trimmed_alike lead_trimmed_le)

/-- A buffer in a range of a storage; what is not found is at its beginning. -/
structure Within (ref lo hi : Nat) (buffer : DataBuffer) : Prop where
  data : buffer.data = some ref
  order : buffer.beginIndex ≤ buffer.endIndex
  upper : buffer.endIndex ≤ hi
  lower : lo ≤ buffer.beginIndex ∨ buffer.endIndex = 0

structure Halves (ref lo hi : Nat) (buffer head tail : DataBuffer) : Prop where
  first : Within ref lo hi head
  second : Within ref lo hi tail
  start : head.beginIndex = buffer.beginIndex
  after : ¬tail.empty = true → head.endIndex ≤ tail.beginIndex
  shorter : ¬buffer.empty = true → tail.endIndex - tail.beginIndex < buffer.endIndex - buffer.beginIndex

open TwoRuns (Agree)

def TrimsTogether (first second : Heap) (ref lo hi : Nat) (buffer : DataBuffer) : Prop :=
  Agree first second (fun heap => buffer.trim heap) (fun trimmed => Within ref lo hi trimmed ∧
    trimmed.endIndex - trimmed.beginIndex ≤ buffer.endIndex - buffer.beginIndex)

theorem trims_itself {heap : Heap} {ref lo hi : Nat} {storage : DataBufferImpl} {buffer : DataBuffer}
    (shown : buffer.Shows heap ref storage) (within : Within ref lo hi buffer) :
    TrimsTogether heap heap ref lo hi buffer := by
  have denotes := shown.denotes
  by_cases blank : buffer.text storage = []
  · have none := denotes.empty_iff.mpr blank
    have kept : buffer.trim heap = .ok buffer := by simp [DataBuffer.trim, none]
    exact ⟨buffer, kept, kept, within, le_refl _⟩
  · have done := denotes.trim_eq blank
    have bound := lead_trimmed_le storage buffer.beginIndex (buffer.text storage)
    have stop := denotes.endIndex_eq blank
    have filled : ¬buffer.empty = true := fun none => blank (denotes.empty_iff.mp none)
    have upper := within.upper
    have lower : lo ≤ buffer.beginIndex := by
      rcases within.lower with lower | none
      · exact lower
      · have positive := List.length_pos_of_ne_nil blank
        omega
    exact ⟨_, done, done, ⟨within.data, by simp only; omega, by simp only; omega, Or.inl (by simp only; omega)⟩,
      by simp only; omega⟩

section Steps

variable {first second : Heap} {ref lo hi : Nat} {one other : DataBufferImpl}
  (around : Surroundings first second ref lo hi one other) {buffer : DataBuffer}

theorem Within.lower_of_filled (within : Within ref lo hi buffer) (filled : ¬buffer.empty = true) :
    lo ≤ buffer.beginIndex ∧ buffer.beginIndex < buffer.endIndex := by
  have order := within.order
  have differ : buffer.beginIndex ≠ buffer.endIndex := by
    intro same
    exact filled (by simp [DataBuffer.empty, same])
  rcases within.lower with lower | none
  · exact ⟨lower, by omega⟩
  · omega

theorem Within.at (within : Within ref lo hi buffer) (start stop : Nat) (lower : lo ≤ start)
    (order : start ≤ stop) (upper : stop ≤ hi) :
    Within ref lo hi { buffer with beginIndex := start, endIndex := stop } :=
  ⟨within.data, order, upper, Or.inl lower⟩

include around

theorem Surroundings.shows (within : Within ref lo hi buffer) :
    buffer.Shows first ref one ∧ buffer.Shows second ref other := by
  have upper := within.upper
  have inside := around.inside
  have otherInside := around.otherInside
  exact ⟨⟨within.data, around.live, around.inv, within.order, by omega⟩,
    ⟨within.data, around.otherLive, around.otherInv, within.order, by omega⟩⟩

theorem Surroundings.text_eq (within : Within ref lo hi buffer) : buffer.text one = buffer.text other := by
  have order := within.order
  have upper := within.upper
  rcases within.lower with lower | none
  · have cut : ∀ bytes : Bytes, Range.slice bytes buffer.beginIndex buffer.endIndex =
        Range.slice (Range.slice bytes lo hi) (buffer.beginIndex - lo) (buffer.endIndex - lo) := by
      intro bytes
      rw [Range.slice_slice _ _ _ _ _ (by omega) (by omega), Nat.add_sub_cancel' lower,
        Nat.add_sub_cancel' (by omega)]
    rw [DataBuffer.text, DataBuffer.text, cut, cut, around.same]
  · have start : buffer.beginIndex = 0 := by omega
    simp [DataBuffer.text, none, start]

theorem Surroundings.size_eq (within : Within ref lo hi buffer) :
    buffer.size = buffer.endIndex - buffer.beginIndex :=
  (around.shows within).1.size_eq

theorem Surroundings.startsWithFold (fold : UInt8 → UInt8) (within : Within ref lo hi buffer) (data : Bytes) :
    Agree first second (fun heap => buffer.startsWithFold fold heap data) (fun _ => True) := by
  obtain ⟨shown, otherShown⟩ := around.shows within
  refine ⟨_, DataBuffer.startsWithFold_spec fold shown data, ?_, trivial⟩
  rw [around.text_eq within]
  exact DataBuffer.startsWithFold_spec fold otherShown data

theorem Surroundings.toBytes (within : Within ref lo hi buffer) :
    Agree first second (fun heap => buffer.toBytes heap) (fun bytes => bytes = [] → buffer.empty = true) := by
  obtain ⟨shown, otherShown⟩ := around.shows within
  refine ⟨_, DataBuffer.toBytes_spec shown, ?_, shown.empty_iff.mpr⟩
  rw [around.text_eq within]
  exact DataBuffer.toBytes_spec otherShown

theorem Surroundings.split (within : Within ref lo hi buffer) (delim : Bytes) (nonempty : delim ≠ []) :
    Agree first second (fun heap => buffer.split heap delim)
      (fun halves => Halves ref lo hi buffer halves.2.1 halves.2.2) := by
  obtain ⟨shown, otherShown⟩ := around.shows within
  have cut := DataBuffer.split_spec shown delim nonempty
  have otherCut := DataBuffer.split_spec otherShown delim nonempty
  rw [← around.text_eq within] at otherCut
  refine ⟨_, cut, otherCut, ?_⟩
  have length := shown.text_length
  rw [shown.size_eq] at length
  have upper := within.upper
  split
  · refine ⟨within, ⟨within.data, le_refl _, Nat.zero_le _, Or.inr rfl⟩, rfl, ?_, ?_⟩
    · intro filled
      simp [DataBuffer.empty] at filled
    · intro filled
      have bounds := within.lower_of_filled filled
      simp only
      omega
  · next found =>
      have short := Search.search_le delim (buffer.text one)
      have room := Search.search_bound delim (buffer.text one) nonempty (by omega)
      have positive := List.length_pos_of_ne_nil nonempty
      have filled : ¬buffer.empty = true := by
        intro blank
        rw [shown.empty_iff.mp blank] at room
        simp only [List.length_nil] at room
        omega
      have bounds := within.lower_of_filled filled
      exact ⟨within.at _ _ bounds.1 (by omega) (by omega), within.at _ _ (by omega) (by omega) upper, rfl,
        fun _ => by simp only; omega, fun _ => by simp only; omega⟩

theorem Surroundings.trim (within : Within ref lo hi buffer) {pos : Nat} {text : Bytes}
    (denotes : Denotes first buffer ref one pos text) (trims : TrimsAlike one pos text)
    (otherTrims : TrimsAlike other pos text) : TrimsTogether first second ref lo hi buffer := by
  by_cases blank : text = []
  · have none := denotes.empty_iff.mpr blank
    have kept : ∀ heap, buffer.trim heap = .ok buffer := by
      intro heap
      simp [DataBuffer.trim, none]
    exact ⟨buffer, kept first, kept second, within, le_refl _⟩
  · have otherDenotes : Denotes second buffer ref other pos text :=
      ⟨(around.shows within).2, (around.text_eq within).symm.trans denotes.same, denotes.start⟩
    have done := denotes.trim_eq blank
    have otherDone := otherDenotes.trim_eq blank
    rw [trimmed_alike trims] at done
    rw [trimmed_alike otherTrims] at otherDone
    have bound := Range.lead_trim_le text
    have stop := denotes.endIndex_eq blank
    have start := denotes.start blank
    have lower := (within.lower_of_filled (fun none => blank (denotes.empty_iff.mp none))).1
    have upper := within.upper
    exact ⟨_, done, otherDone, within.at _ _ (by omega) (by omega) (by omega), by simp only; omega⟩

theorem Surroundings.view (within : Within ref lo hi buffer) (start stop : Nat) (upper : stop ≤ hi) :
    Agree first second (fun heap => buffer.view heap start stop)
      (fun joined => joined = { buffer with beginIndex := start, endIndex := stop }) := by
  obtain ⟨shown, otherShown⟩ := around.shows within
  exact ⟨_, DataBuffer.view_spec shown start stop (le_trans upper around.inside),
    DataBuffer.view_spec otherShown start stop (le_trans upper around.otherInside), rfl⟩

theorem Surroundings.trimn (within : Within ref lo hi buffer) : Within ref lo hi (buffer.trimn 1 1) := by
  unfold DataBuffer.trimn
  split
  · exact within
  · next filled =>
      have bounds := within.lower_of_filled filled
      have upper := within.upper
      have fits := around.inv.fits
      have inside := around.inside
      rw [Word.add_eq _ _ (by omega), Word.sub_eq _ _ (by omega) (by omega)]
      simp only
      split
      · exact within.at _ _ (by omega) (le_refl _) upper
      · exact within.at _ _ (by omega) (by omega) (by omega)

end Steps

namespace Parser

def ValuesWithin (ref lo hi : Nat) (values : List Value) : Prop := ∀ value ∈ values, Within ref lo hi value.2

theorem valuesWithin_nil (ref lo hi : Nat) : ValuesWithin ref lo hi [] := by
  intro value member
  cases member

theorem valuesWithin_singleton {ref lo hi : Nat} {buffer : DataBuffer} (field : Field)
    (within : Within ref lo hi buffer) : ValuesWithin ref lo hi [(field, buffer)] := by
  intro value member
  rw [List.mem_singleton.mp member]
  exact within

theorem ValuesWithin.append {ref lo hi : Nat} {values others : List Value} (front : ValuesWithin ref lo hi values)
    (back : ValuesWithin ref lo hi others) : ValuesWithin ref lo hi (values ++ others) := by
  intro value member
  rcases List.mem_append.mp member with inside | inside
  · exact front value inside
  · exact back value inside

/-- The first line of the headers is no folded one. -/
def Unfolded (heap : Heap) (headers : DataBuffer) : Prop :=
  ∀ subline subtail, splitEither headers heap returnRN returnN = .ok (subline, subtail) →
    isFolded subline heap = .ok false

structure Joined (heap : Heap) (ref lo hi : Nat) (line tail joined rest : DataBuffer) : Prop where
  inside : Within ref lo hi joined
  start : joined.beginIndex = line.beginIndex
  stop : line.endIndex ≤ joined.endIndex
  later : Within ref lo hi rest
  shorter : rest.endIndex - rest.beginIndex ≤ tail.endIndex - tail.beginIndex
  unfolded : ¬rest.empty = true → Unfolded heap rest

/-- The line that the loop has after its first turn. A folded one begins where the storage does. -/
def firstLine (part subline : DataBuffer) (more : Bool) : DataBuffer :=
  if more then { part with beginIndex := 0, endIndex := subline.endIndex } else subline

structure Begun (heap : Heap) (ref lo hi : Nat) (part headers joined rest : DataBuffer) : Prop where
  turn : ∃ subline subtail more, splitEither headers heap returnRN returnN = .ok (subline, subtail) ∧
    isFolded subline heap = .ok more ∧ Halves ref lo hi headers subline subtail ∧
    Joined heap ref lo hi (firstLine part subline more) subtail joined rest

def ParameterTogether (first second : Heap) (ref lo hi : Nat) (head : DataBuffer) : Prop :=
  ∀ found key value, head.split first [61] = .ok (found, key, value) →
    keyIsCI key first (ascii "CONTENT_TYPE") = .ok true → Within ref lo hi value →
    TrimsTogether first second ref lo hi value

def LineTogether (first second : Heap) (ref lo hi : Nat) : Nat → DataBuffer → Prop
  | 0, _ => True
  | fuel + 1, line => ¬line.empty = true → ∀ found head tail, line.split first [59] = .ok (found, head, tail) →
      ParameterTogether first second ref lo hi head ∧
      (Within ref lo hi tail → TrimsTogether first second ref lo hi tail) ∧
      ∀ rest, tail.trim first = .ok rest → LineTogether first second ref lo hi fuel rest

def HeadersTogether (first second : Heap) (ref lo hi : Nat) (part : DataBuffer) : Nat → DataBuffer → Prop
  | 0, _ => True
  | fuel + 1, headers => ¬headers.empty = true → ∀ line tail,
      foldLine part first headers.size .nil headers false = .ok (line, tail) →
      LineTogether first second ref lo hi line.size line ∧ HeadersTogether first second ref lo hi part fuel tail

section Everywhere

variable {first second : Heap} {ref lo hi : Nat}
  (everywhere : ∀ buffer, Within ref lo hi buffer → TrimsTogether first second ref lo hi buffer)

include everywhere

theorem lineTogether_everywhere (fuel : Nat) (line : DataBuffer) : LineTogether first second ref lo hi fuel line := by
  induction fuel generalizing line with
  | zero => trivial
  | succ fuel ih =>
      intro _ found head tail _
      exact ⟨fun _ _ value _ _ within => everywhere value within, everywhere tail, fun rest _ => ih rest⟩

theorem headersTogether_everywhere (part : DataBuffer) (fuel : Nat) (headers : DataBuffer) :
    HeadersTogether first second ref lo hi part fuel headers := by
  induction fuel generalizing headers with
  | zero => trivial
  | succ fuel ih =>
      intro _ line tail _
      exact ⟨lineTogether_everywhere everywhere line.size line, ih tail⟩

end Everywhere

section Runs

variable {first second : Heap} {ref lo hi : Nat} {one other : DataBufferImpl}
  (around : Surroundings first second ref lo hi one other) {buffer : DataBuffer}

include around

theorem keyIs_agree (within : Within ref lo hi buffer) (data : Bytes) :
    Agree first second (fun heap => keyIs buffer heap data) (fun _ => True) := by
  unfold keyIs
  apply Agree.branch
  · intro _
    exact around.startsWithFold id within data
  · intro _
    exact Agree.pure trivial

theorem keyIsCI_agree (within : Within ref lo hi buffer) (data : Bytes) :
    Agree first second (fun heap => keyIsCI buffer heap data) (fun _ => True) := by
  unfold keyIsCI
  apply Agree.branch
  · intro _
    exact around.startsWithFold tolower within data
  · intro _
    exact Agree.pure trivial

theorem parameterValue_agree (within : Within ref lo hi buffer)
    (together : ParameterTogether first second ref lo hi buffer) :
    Agree first second (fun heap => parameterValue heap buffer) (ValuesWithin ref lo hi) := by
  unfold parameterValue
  refine (around.split within [61] (by simp)).known.bind ?_
  rintro ⟨found, key, value⟩ ⟨halves, cut⟩
  refine (keyIs_agree around halves.first (ascii "name")).bind ?_
  intro isName _
  apply Agree.branch
  · intro _
    exact Agree.pure (valuesWithin_singleton .name (around.trimn halves.second))
  · intro _
    refine (keyIs_agree around halves.first (ascii "filename")).bind ?_
    intro isFilename _
    apply Agree.branch
    · intro _
      exact Agree.pure (valuesWithin_singleton .filename (around.trimn halves.second))
    · intro _
      refine (keyIsCI_agree around halves.first (ascii "CONTENT_TYPE")).known.bind ?_
      rintro isType ⟨_, tested⟩
      apply Agree.branch
      · intro typed
        subst typed
        refine (together found key value cut tested halves.second).bind ?_
        intro trimmed inside
        exact Agree.pure (valuesWithin_singleton .type inside.1)
      · intro _
        exact Agree.pure (valuesWithin_nil ref lo hi)

theorem lineValues_agree (fuel : Nat) {line : DataBuffer} (within : Within ref lo hi line)
    (enough : line.endIndex - line.beginIndex ≤ fuel) (together : LineTogether first second ref lo hi fuel line) :
    Agree first second (fun heap => lineValues heap fuel line) (ValuesWithin ref lo hi) := by
  induction fuel generalizing line with
  | zero =>
      have blank : line.empty = true := by
        by_contra filled
        have bounds := within.lower_of_filled filled
        omega
      simp only [lineValues, blank, if_true]
      exact Agree.pure (valuesWithin_nil ref lo hi)
  | succ fuel ih =>
      unfold lineValues
      apply Agree.branch
      · intro _
        exact Agree.pure (valuesWithin_nil ref lo hi)
      · intro filled
        refine (around.split within [59] (by simp)).known.bind ?_
        rintro ⟨found, head, tail⟩ ⟨halves, cut⟩
        obtain ⟨parameter, trims, later⟩ := together filled found head tail cut
        refine (parameterValue_agree around halves.first parameter).bind ?_
        intro values front
        refine (trims halves.second).known.bind ?_
        rintro rest ⟨⟨inside, smaller⟩, trimmed⟩
        have shorter := halves.shorter filled
        simp only at shorter smaller
        refine (ih inside (by omega) (later rest trimmed)).bind ?_
        intro others back
        exact Agree.pure (front.append back)

theorem splitEither_agree (within : Within ref lo hi buffer) (delim otherDelim : Bytes) (nonempty : delim ≠ [])
    (otherNonempty : otherDelim ≠ []) :
    Agree first second (fun heap => splitEither buffer heap delim otherDelim)
      (fun halves => Halves ref lo hi buffer halves.1 halves.2) := by
  unfold splitEither
  refine (around.split within delim nonempty).bind ?_
  rintro ⟨found, head, tail⟩ halves
  apply Agree.branch
  · intro _
    exact Agree.pure halves
  · intro _
    refine (around.split within otherDelim otherNonempty).bind ?_
    rintro ⟨_, front, back⟩ others
    exact Agree.pure others

theorem isFolded_agree (within : Within ref lo hi buffer) :
    Agree first second (fun heap => isFolded buffer heap) (fun _ => True) := by
  unfold isFolded
  refine (around.startsWithFold id within (ascii " ")).bind ?_
  intro space _
  apply Agree.branch
  · intro _
    exact Agree.pure trivial
  · intro _
    exact around.startsWithFold id within [9]

theorem nextLine_agree {tail : DataBuffer} (within : Within ref lo hi tail) :
    Agree first second (fun heap => splitEither tail heap returnRN returnN)
      (fun halves => Halves ref lo hi tail halves.1 halves.2) :=
  splitEither_agree around within returnRN returnN (by simp [returnRN]) (by simp [returnN])

theorem foldLine_agree (fuel : Nat) {part line tail : DataBuffer} (whole : Within ref lo hi part)
    (inside : Within ref lo hi line) (lower : lo ≤ line.beginIndex) (later : Within ref lo hi tail)
    (after : ¬tail.empty = true → line.endIndex ≤ tail.beginIndex)
    (enough : tail.endIndex - tail.beginIndex ≤ fuel) :
    Agree first second (fun heap => foldLine part heap fuel line tail true)
      (fun result => Joined first ref lo hi line tail result.1 result.2) := by
  induction fuel generalizing line tail with
  | zero =>
      have blank : tail.empty = true := by
        by_contra filled
        have bounds := later.lower_of_filled filled
        omega
      simp only [foldLine, blank, if_true]
      exact Agree.pure ⟨inside, rfl, le_refl _, later, le_refl _, fun filled => absurd blank filled⟩
  | succ fuel ih =>
      unfold foldLine
      apply Agree.branch
      · intro blank
        exact Agree.pure ⟨inside, rfl, le_refl _, later, le_refl _, fun filled => absurd blank filled⟩
      · intro filled
        refine (nextLine_agree around later).known.bind ?_
        rintro ⟨subline, subtail⟩ ⟨halves, cut⟩
        refine (isFolded_agree around halves.first).known.bind ?_
        rintro more ⟨_, tested⟩
        have order := inside.order
        have subOrder := halves.first.order
        have start := halves.start
        have behind := after filled
        have shorter := halves.shorter filled
        simp only at start shorter subOrder cut
        apply Agree.branch
        · intro _
          refine (around.view whole line.beginIndex subline.endIndex halves.first.upper).bind ?_
          rintro joined rfl
          have wider := whole.at line.beginIndex subline.endIndex lower (by omega) halves.first.upper
          refine (@ih _ subtail wider lower halves.second halves.after (by omega)).mono ?_
          rintro ⟨result, rest⟩ joins
          have stop := joins.stop
          have smaller := joins.shorter
          simp only at stop smaller
          exact ⟨joins.inside, joins.start, by simp only; omega, joins.later, by simp only; omega, joins.unfolded⟩
        · intro plain
          apply Agree.pure
          refine ⟨inside, rfl, le_refl _, later, le_refl _, ?_⟩
          intro _ front back again
          obtain ⟨rfl, rfl⟩ := Prod.mk.inj (Except.ok.inj (cut.symm.trans again))
          rw [tested]
          simpa using plain

theorem foldLine_begun (fuel : Nat) {part headers : DataBuffer} (whole : Within ref lo hi part)
    (within : Within ref lo hi headers) (filled : ¬headers.empty = true)
    (start : lo = 0 ∨ Unfolded first headers) (enough : headers.endIndex - headers.beginIndex ≤ fuel) :
    Agree first second (fun heap => foldLine part heap fuel .nil headers false)
      (fun result => Begun first ref lo hi part headers result.1 result.2) := by
  have bounds := within.lower_of_filled filled
  obtain ⟨less, rfl⟩ := Nat.exists_eq_add_of_le' (by omega : 1 ≤ fuel)
  simp only [foldLine, if_neg filled]
  refine (nextLine_agree around within).known.bind ?_
  rintro ⟨subline, subtail⟩ ⟨halves, cut⟩
  refine (isFolded_agree around halves.first).known.bind ?_
  rintro more ⟨_, tested⟩
  have shorter := halves.shorter filled
  have order := halves.first.order
  have begins := halves.start
  simp only at shorter order begins cut
  apply Agree.branch
  · intro folds
    subst folds
    have bottom : lo = 0 := by
      rcases start with bottom | plain
      · exact bottom
      · have same := plain subline subtail cut
        rw [tested] at same
        cases same
    subst bottom
    refine (around.view whole DataBuffer.nil.beginIndex subline.endIndex halves.first.upper).bind ?_
    rintro joined rfl
    have wider := whole.at 0 subline.endIndex (le_refl 0) (Nat.zero_le _) halves.first.upper
    refine (foldLine_agree around less whole wider (le_refl 0) halves.second halves.after
      (by simp only; omega)).mono ?_
    intro result joins
    exact ⟨subline, subtail, true, cut, tested, halves, joins⟩
  · intro plain
    simp only [Bool.not_eq_true] at plain
    subst plain
    simp only [Bool.false_eq_true, if_false]
    refine (foldLine_agree around less whole halves.first (by simp only; omega) halves.second halves.after
      (by simp only; omega)).mono ?_
    intro result joins
    exact ⟨subline, subtail, false, cut, tested, halves, joins⟩

theorem headerValues_agree (fuel : Nat) {part headers : DataBuffer} (whole : Within ref lo hi part)
    (within : Within ref lo hi headers)
    (plain : lo = 0 ∨ (¬headers.empty = true → Unfolded first headers))
    (enough : headers.endIndex - headers.beginIndex ≤ fuel)
    (together : HeadersTogether first second ref lo hi part fuel headers) :
    Agree first second (fun heap => headerValues part heap fuel headers) (ValuesWithin ref lo hi) := by
  induction fuel generalizing headers with
  | zero =>
      have blank : headers.empty = true := by
        by_contra filled
        have bounds := within.lower_of_filled filled
        omega
      simp only [headerValues, blank, if_true]
      exact Agree.pure (valuesWithin_nil ref lo hi)
  | succ fuel ih =>
      unfold headerValues
      apply Agree.branch
      · intro _
        exact Agree.pure (valuesWithin_nil ref lo hi)
      · intro filled
        have size := around.size_eq within
        refine (foldLine_begun around headers.size whole within filled
          (plain.imp_right (fun starts => starts filled)) (by omega)).known.bind ?_
        rintro ⟨line, tail⟩ ⟨⟨subline, subtail, more, cut, tested, halves, joins⟩, folding⟩
        obtain ⟨lineTrims, later⟩ := together filled line tail folding
        have shorter := halves.shorter filled
        have smaller := joins.shorter
        have lineSize := around.size_eq joins.inside
        simp only at shorter smaller lineSize
        refine (lineValues_agree around line.size joins.inside (by simp only; omega) lineTrims).bind ?_
        intro values front
        refine (ih joins.later (Or.inr joins.unfolded) (by simp only; omega) later).bind ?_
        intro others back
        exact Agree.pure (front.append back)

theorem headers_agree {part : DataBuffer} (whole : Within ref lo hi part)
    (plain : lo = 0 ∨ ∀ headers content, splitEither part first emptyLineRNRN emptyLineNN =
      .ok (headers, content) → Unfolded first headers)
    (together : ∀ headers content, splitEither part first emptyLineRNRN emptyLineNN = .ok (headers, content) →
      HeadersTogether first second ref lo hi part headers.size headers) :
    Agree first second (fun heap => splitEither part heap emptyLineRNRN emptyLineNN)
      (fun halves => Halves ref lo hi part halves.1 halves.2 ∧
        Agree first second (fun heap => headerValues part heap halves.1.size halves.1)
          (ValuesWithin ref lo hi)) := by
  have cut := splitEither_agree around whole emptyLineRNRN emptyLineNN (by simp [emptyLineRNRN])
    (by simp [emptyLineNN])
  refine cut.known.mono ?_
  rintro ⟨headers, content⟩ ⟨halves, known⟩
  have size := around.size_eq halves.first
  exact ⟨halves, headerValues_agree around headers.size whole halves.first
    (plain.imp_right (fun starts _ => starts headers content known)) (by simp only at size ⊢; omega)
    (together headers content known)⟩

theorem extracted_agree {part : DataBuffer} (whole : Within ref lo hi part)
    (plain : ∀ headers content, splitEither part first emptyLineRNRN emptyLineNN = .ok (headers, content) →
      Unfolded first headers)
    (together : ∀ headers content, splitEither part first emptyLineRNRN emptyLineNN = .ok (headers, content) →
      HeadersTogether first second ref lo hi part headers.size headers) :
    Agree first second (fun heap => extracted heap part) (ValuesWithin ref lo hi) := by
  unfold extracted
  refine (headers_agree around whole (Or.inr plain) together).bind ?_
  rintro ⟨headers, content⟩ ⟨_, values⟩
  exact values

end Runs

def FieldWithin (ref lo hi : Nat) (buffer : DataBuffer) : Prop := buffer = .nil ∨ Within ref lo hi buffer

structure FoundWithin (ref lo hi : Nat) (found : PartHeaders) : Prop where
  name : FieldWithin ref lo hi found.name
  filename : FieldWithin ref lo hi found.filename
  type : FieldWithin ref lo hi found.type

theorem foundWithin_nil (ref lo hi : Nat) : FoundWithin ref lo hi ⟨.nil, .nil, .nil⟩ :=
  ⟨Or.inl rfl, Or.inl rfl, Or.inl rfl⟩

theorem FoundWithin.set {ref lo hi : Nat} {found : PartHeaders} (inside : FoundWithin ref lo hi found)
    {value : Value} (within : Within ref lo hi value.2) : FoundWithin ref lo hi (found.set value) := by
  obtain ⟨field, buffer⟩ := value
  cases field with
  | name => exact ⟨Or.inr within, inside.filename, inside.type⟩
  | filename => exact ⟨inside.name, Or.inr within, inside.type⟩
  | type => exact ⟨inside.name, inside.filename, Or.inr within⟩

theorem FoundWithin.foldl {ref lo hi : Nat} (values : List Value) (listed : ValuesWithin ref lo hi values)
    {found : PartHeaders} (inside : FoundWithin ref lo hi found) :
    FoundWithin ref lo hi (values.foldl PartHeaders.set found) := by
  induction values generalizing found with
  | nil => exact inside
  | cons value rest ih =>
      exact ih (fun later member => listed later (List.mem_cons_of_mem value member))
        (inside.set (listed value List.mem_cons_self))

section Effect

open Multipart (readForm readFile readForm_ok readFile_placed)

variable {first second : Heap} {ref lo hi : Nat} {one other : DataBufferImpl}
  (around : Surroundings first second ref lo hi one other)

include around

theorem field_agree {buffer : DataBuffer} (field : FieldWithin ref lo hi buffer) :
    Agree first second (fun heap => buffer.toBytes heap) (fun bytes => bytes = [] → buffer.empty = true) := by
  rcases field with rfl | within
  · exact ⟨[], rfl, rfl, fun _ => rfl⟩
  · exact around.toBytes within

theorem ofBuffers_agree {filename type content : DataBuffer} (filenameField : FieldWithin ref lo hi filename)
    (typeField : FieldWithin ref lo hi type) (named : ¬filename.empty = true) :
    Agree first second (fun heap => File.ofBuffers heap filename type content)
      (fun file => file.data = content) := by
  have created : ∀ kind, Agree first second (fun heap => do
      let remote ← filename.toBytes heap
      File.create remote kind content) (fun file => file.data = content) := by
    intro kind
    refine (field_agree around filenameField).bind ?_
    intro remote blank
    have filled : remote ≠ [] := fun none => named (blank none)
    simp only [File.create, dif_pos filled]
    exact Agree.pure rfl
  simp only [File.ofBuffers, if_neg named, ok_bind]
  apply Agree.branch
  · intro _
    exact created []
  · intro _
    exact (field_agree around typeField).bind (fun kind _ => created kind)

/-- A handler reads the same out of a request in both heaps. -/
def SameForm (first second : Heap) (request : Request) : Prop :=
  ∃ form, readForm first request = .ok form ∧ readForm second request = .ok form

theorem sameForm_insert {request : Request} (same : SameForm first second request) (name : Bytes) {file : File}
    (within : Within ref lo hi file.data) :
    SameForm first second { request with files := request.files.insert name file } := by
  obtain ⟨form, here, there⟩ := same
  obtain ⟨args, files⟩ := readForm_ok here
  obtain ⟨_, otherFiles⟩ := readForm_ok there
  obtain ⟨content, read, otherRead, _⟩ := around.toBytes within
  have entry : readFile first (name, file) = .ok (name, ⟨file.name, file.type, content⟩) := by
    simp only [readFile, read, ok_bind]
  have otherEntry : readFile second (name, file) = .ok (name, ⟨file.name, file.type, content⟩) := by
    simp only [readFile, otherRead, ok_bind]
  have placed := readFile_placed first request.files.entries form.files name file _ files entry
  have otherPlaced := readFile_placed second request.files.entries form.files name file _ otherFiles otherEntry
  refine ⟨⟨request.args, OrderedMap.placeEntry stringLess false name ⟨file.name, file.type, content⟩ form.files⟩,
    ?_, ?_⟩
  · simp only [readForm, OrderedMap.insert, placed, ok_bind]
  · simp only [readForm, OrderedMap.insert, otherPlaced, ok_bind]

theorem parsePart_agree {part : DataBuffer} (whole : Within ref lo hi part)
    (plain : lo = 0 ∨ ∀ headers content, splitEither part first emptyLineRNRN emptyLineNN =
      .ok (headers, content) → Unfolded first headers)
    (together : ∀ headers content, splitEither part first emptyLineRNRN emptyLineNN = .ok (headers, content) →
      HeadersTogether first second ref lo hi part headers.size headers)
    {request : Request} (same : SameForm first second request) :
    Agree first second (fun heap => parsePart request heap part) (SameForm first second) := by
  unfold parsePart
  refine (headers_agree around whole plain together).bind ?_
  rintro ⟨headers, content⟩ ⟨halves, values⟩
  have found : Agree first second (fun heap => parseHeaders part heap headers.size headers ⟨.nil, .nil, .nil⟩)
      (FoundWithin ref lo hi) := by
    obtain ⟨list, here, there, listed⟩ := values
    refine ⟨list.foldl PartHeaders.set ⟨.nil, .nil, .nil⟩, ?_, ?_,
      FoundWithin.foldl list listed (foundWithin_nil ref lo hi)⟩
    · simp only [parseHeaders_eq, here, Except.map]
    · simp only [parseHeaders_eq, there, Except.map]
  refine found.bind ?_
  intro found inside
  apply Agree.branch
  · intro _
    exact Agree.pure same
  · intro _
    refine (field_agree around inside.name).bind ?_
    intro name _
    apply Agree.branch
    · intro _
      refine (around.toBytes halves.second).bind ?_
      intro arg _
      apply Agree.pure
      obtain ⟨form, here, there⟩ := same
      obtain ⟨args, files⟩ := readForm_ok here
      obtain ⟨_, otherFiles⟩ := readForm_ok there
      exact ⟨⟨request.args ++ [(name, arg)], form.files⟩, by simp only [readForm, files, ok_bind],
        by simp only [readForm, otherFiles, ok_bind]⟩
    · intro upload
      refine (ofBuffers_agree around inside.filename inside.type upload).bind ?_
      rintro file rfl
      exact Agree.pure (sameForm_insert around same name halves.second)

end Effect

/-- No part makes `parsePart` throw: within its whole storage a part is read from any line on. -/
theorem parsePart_returns {heap : Heap} {ref : Nat} {storage : DataBufferImpl} {part : DataBuffer}
    (shown : part.Shows heap ref storage) : ∃ next, parsePart .fresh heap part = .ok next := by
  have around : Surroundings heap heap ref 0 storage.bytes.length storage storage :=
    ⟨shown.live, shown.live, shown.inv, shown.inv, le_refl _, le_refl _, rfl⟩
  have whole : Within ref 0 storage.bytes.length part :=
    ⟨shown.data, shown.order, shown.inside, Or.inl (Nat.zero_le _)⟩
  have blank : SameForm heap heap .fresh := ⟨⟨[], []⟩, rfl, rfl⟩
  have everywhere : ∀ buffer, Within ref 0 storage.bytes.length buffer →
      TrimsTogether heap heap ref 0 storage.bytes.length buffer :=
    fun buffer within => trims_itself (around.shows within).1 within
  obtain ⟨next, done, _⟩ := parsePart_agree around whole (Or.inl rfl)
    (fun headers _ _ => headersTogether_everywhere everywhere part headers.size headers) blank
  exact ⟨next, done⟩

/-- A value in the range of its part; an empty one may stand anywhere. -/
def InsidePart (part value : DataBuffer) : Prop :=
  value.empty = true ∨ value.data = part.data ∧ part.beginIndex ≤ value.beginIndex ∧ value.endIndex ≤ part.endIndex

theorem insidePart_of_within {ref : Nat} {part value : DataBuffer} (data : part.data = some ref)
    (within : Within ref part.beginIndex part.endIndex value) : InsidePart part value := by
  by_cases filled : value.empty = true
  · exact Or.inl filled
  · exact Or.inr ⟨within.data.trans data.symm, (within.lower_of_filled filled).1, within.upper⟩

/-- A part is read alike in two heaps: what is extracted from it is the same and lies in it, and it
changes every request in the same way. -/
def ReadAlike (first second : Heap) (part : DataBuffer) : Prop :=
  (∃ values, extracted first part = .ok values ∧ extracted second part = .ok values ∧
    ∀ value ∈ values, InsidePart part value.2) ∧
  ∀ request, SameForm first second request →
    ∃ next, parsePart request first part = .ok next ∧ parsePart request second part = .ok next ∧
      SameForm first second next

section OwnBytes

open Multipart (folded splitLine splitPart splitEither_refines isFolded_spec foldLine_bounds foldLine_refines
  rangeAt_denotes headerLines lineTrims partLines partTrims keyIsCI_spec isTypeKey)

/-- A storage has the text of a part in its range, and trims the pieces of its header lines by their
bytes. -/
structure Placed (text : Bytes) (heap : Heap) (ref : Nat) (storage : DataBufferImpl) (part : DataBuffer) : Prop where
  shown : part.Shows heap ref storage
  same : part.text storage = text
  trims : ∀ piece ∈ partTrims ⟨part.beginIndex, text⟩, TrimsAlike storage piece.pos piece.bytes

/-- A part with this text is read from its own bytes, in storages of any class and whatever
surrounds it there. -/
def OwnBytes (text : Bytes) : Prop :=
  ∀ (first second : Heap) (ref : Nat) (one other : DataBufferImpl) (part : DataBuffer),
    Placed text first ref one part → Placed text second ref other part → ReadAlike first second part

section Together

variable {first second : Heap} {ref lo hi : Nat} {one other : DataBufferImpl}
  (around : Surroundings first second ref lo hi one other)

include around

theorem lineTogether_of_trims (fuel : Nat) {line : DataBuffer} {pos : Nat} {text : Bytes}
    (denotes : Denotes first line ref one pos text)
    (trims : ∀ piece ∈ lineTrims fuel ⟨pos, text⟩,
      TrimsAlike one piece.pos piece.bytes ∧ TrimsAlike other piece.pos piece.bytes) :
    LineTogether first second ref lo hi fuel line := by
  induction fuel generalizing line pos text with
  | zero => trivial
  | succ fuel ih =>
      intro filled found head tail cut
      have visible : ¬text.isEmpty = true := by
        intro none
        exact filled (denotes.empty_iff.mpr (List.isEmpty_iff.mp none))
      unfold lineTrims at trims
      rw [if_neg visible] at trims
      simp only [List.mem_append, List.mem_cons] at trims
      obtain ⟨_, _, halved, headDenotes, tailDenotes, _⟩ := denotes.split [59] (by simp)
      obtain ⟨_, rfl, rfl⟩ := by simpa using halved.symm.trans cut
      simp only [List.length_singleton] at tailDenotes
      obtain ⟨rest, otherRest⟩ := trims ⟨_, _⟩ (Or.inr (Or.inl rfl))
      refine ⟨?_, fun within => around.trim within tailDenotes rest otherRest, ?_⟩
      · intro _ key value headCut typed within
        obtain ⟨_, _, headHalved, keyDenotes, valueDenotes, _⟩ := headDenotes.split [61] (by simp)
        obtain ⟨_, rfl, rfl⟩ := by simpa using headHalved.symm.trans headCut
        rw [keyIsCI_spec keyDenotes] at typed
        have isType := Except.ok.inj typed
        simp only [List.length_singleton] at valueDenotes
        obtain ⟨here, there⟩ := trims ⟨_, _⟩ (Or.inl (by
          rw [if_pos isType]
          exact List.mem_singleton.mpr rfl))
        exact around.trim within valueDenotes here there
      · intro shorter trimmed
        obtain ⟨_, done, restDenotes⟩ := tailDenotes.trim
        obtain rfl := Except.ok.inj (done.symm.trans trimmed)
        rw [trimmed_alike rest] at restDenotes
        exact ih restDenotes (fun piece member => trims piece (Or.inr (Or.inr member)))

theorem headersTogether_of_trims (fuel : Nat) {part headers : DataBuffer} (partShown : part.Shows first ref one)
    {pos : Nat} {text : Bytes} (denotes : Denotes first headers ref one pos text) (enough : text.length ≤ fuel)
    (plain : text = [] ∨ folded (splitLine text).1 = false)
    (trims : ∀ line ∈ headerLines fuel ⟨pos, text⟩, ∀ piece ∈ lineTrims line.bytes.length line,
      TrimsAlike one piece.pos piece.bytes ∧ TrimsAlike other piece.pos piece.bytes) :
    HeadersTogether first second ref lo hi part fuel headers := by
  induction fuel generalizing headers pos text with
  | zero => trivial
  | succ fuel ih =>
      intro filled line tail folding
      have some : text ≠ [] := fun none => filled (denotes.empty_iff.mpr none)
      have visible : ¬text.isEmpty = true := by simpa using some
      have positive := List.length_pos_of_ne_nil some
      obtain ⟨_, _, folded, restDenotes, lineAt⟩ := @foldLine_refines first ref one text.length part .nil
        headers partShown pos text 0 0 false denotes (Nat.zero_le _) (by simp)
        (fun _ => ⟨rfl, plain.resolve_left some⟩) (by omega)
      rw [denotes.size_eq, folded] at folding
      obtain ⟨rfl, rfl⟩ := Prod.mk.inj (Except.ok.inj folding)
      obtain ⟨short, _, _, forward, nextPlain⟩ := foldLine_bounds text text.length 0 0 false
        (Nat.zero_le _) (Nat.zero_le _) (by omega)
      simp only [headerLines, if_neg visible, List.mem_cons] at trims
      generalize Multipart.foldLine text text.length 0 0 false = bounds at *
      obtain ⟨length, next⟩ := bounds
      simp only at *
      have lineDenotes := rangeAt_denotes denotes some short (lineAt (Or.inr (by simpa using some)))
      constructor
      · rw [lineDenotes.size_eq]
        exact lineTogether_of_trims around (text.take length).length lineDenotes (trims _ (Or.inl rfl))
      · apply ih restDenotes _ nextPlain (fun line member => trims line (Or.inr member))
        rw [List.length_drop]
        have := forward trivial positive
        omega

end Together

theorem unfolded_of_text {heap : Heap} {ref : Nat} {storage : DataBufferImpl} {part : DataBuffer}
    (shown : part.Shows heap ref storage)
    (plain : folded (splitLine (splitPart (part.text storage)).1).1 = false) (headers content : DataBuffer)
    (cut : splitEither part heap emptyLineRNRN emptyLineNN = .ok (headers, content)) : Unfolded heap headers := by
  have denotes := shown.denotes
  obtain ⟨head, tail, halved, headDenotes, _, _⟩ := splitEither_refines denotes emptyLineRNRN emptyLineNN
    (by simp [emptyLineRNRN]) (by simp [emptyLineNN])
  obtain ⟨rfl, rfl⟩ := Prod.mk.inj (Except.ok.inj (cut.symm.trans halved))
  intro subline subtail lineCut
  obtain ⟨line, rest, lineHalved, lineDenotes, _, _⟩ := splitEither_refines headDenotes returnRN returnN
    (by simp [returnRN]) (by simp [returnN])
  obtain ⟨rfl, rfl⟩ := Prod.mk.inj (Except.ok.inj (lineCut.symm.trans lineHalved))
  rw [isFolded_spec lineDenotes]
  exact congrArg _ plain

theorem ownBytes_of_unfolded (text : Bytes) (plain : folded (splitLine (splitPart text).1).1 = false) :
    OwnBytes text := by
  intro first second ref one other part here there
  have around : Surroundings first second ref part.beginIndex part.endIndex one other :=
    ⟨here.shown.live, there.shown.live, here.shown.inv, there.shown.inv, here.shown.inside, there.shown.inside,
      here.same.trans there.same.symm⟩
  have whole : Within ref part.beginIndex part.endIndex part :=
    ⟨here.shown.data, here.shown.order, le_refl _, Or.inl (le_refl _)⟩
  have start := unfolded_of_text here.shown (by rw [here.same]; exact plain)
  have together : ∀ headers content, splitEither part first emptyLineRNRN emptyLineNN = .ok (headers, content) →
      HeadersTogether first second ref part.beginIndex part.endIndex part headers.size headers := by
    intro headers content cut
    have denotes := here.shown.denotes
    rw [here.same] at denotes
    obtain ⟨_, _, halved, headersDenotes, _, _⟩ := splitEither_refines denotes emptyLineRNRN emptyLineNN
      (by simp [emptyLineRNRN]) (by simp [emptyLineNN])
    obtain ⟨rfl, rfl⟩ := Prod.mk.inj (Except.ok.inj (halved.symm.trans cut))
    change Denotes first _ ref one _ (splitPart text).1 at headersDenotes
    rw [headersDenotes.size_eq]
    apply headersTogether_of_trims around _ here.shown headersDenotes (le_refl _) (Or.inr plain)
    intro line member piece inside
    have listed : piece ∈ partTrims ⟨part.beginIndex, text⟩ := List.mem_flatMap.mpr ⟨line, member, inside⟩
    exact ⟨here.trims piece listed, there.trims piece listed⟩
  constructor
  · obtain ⟨values, done, otherDone, listed⟩ := extracted_agree around whole start together
    exact ⟨values, done, otherDone, fun value member => insidePart_of_within here.shown.data (listed value member)⟩
  · intro request same
    exact parsePart_agree around whole (Or.inr start) together same

def leak : Bytes := ascii "name=\"a"

theorem split_leak (symbol : UInt8) (rest : Bytes) (blank : symbol = 32 ∨ symbol = 9) :
    ∃ front, (Range.split (leak ++ symbol :: rest) [59]).2.1 = leak ++ symbol :: front ∧
      Range.split (leak ++ symbol :: front) [61] = (true, ascii "name", 34 :: 97 :: symbol :: front) := by
  have plain : (59 : UInt8) ∉ leak := by decide
  have other : (59 : UInt8) ≠ symbol := by rcases blank with rfl | rfl <;> decide
  have equals : ∀ front, Range.split (leak ++ symbol :: front) [61] =
      (true, ascii "name", 34 :: 97 :: symbol :: front) :=
    fun front => Range.split_symbol (ascii "name") 61 (34 :: 97 :: symbol :: front) (by decide)
  by_cases inside : (59 : UInt8) ∈ rest
  · obtain ⟨front, back, rfl, absent⟩ := List.eq_append_cons_of_mem inside
    refine ⟨front, ?_, equals front⟩
    have cut := Range.split_symbol (leak ++ symbol :: front) 59 back (by simp [plain, other, absent])
    rw [List.append_assoc, List.cons_append] at cut
    rw [cut]
  · refine ⟨rest, ?_, equals rest⟩
    rw [Range.split_missing 59 [] _ (by simp [plain, other, inside])]

theorem lineValues_leak {heap : Heap} {ref : Nat} {storage : DataBufferImpl} {line : DataBuffer} {symbol : UInt8}
    {rest : Bytes} (blank : symbol = 32 ∨ symbol = 9)
    (denotes : Denotes heap line ref storage 0 (leak ++ symbol :: rest)) (fuel : Nat) (values : List Value)
    (done : lineValues heap fuel line = .ok values) :
    ∃ value ∈ values, value.2.empty = false ∧ value.2.beginIndex = 6 := by
  have filled : ¬line.empty = true := fun none => by simpa using denotes.empty_iff.mp none
  obtain ⟨front, whole, halves⟩ := split_leak symbol rest blank
  obtain ⟨head, tail, cut, headDenotes, _, _⟩ := denotes.split [59] (by simp)
  rw [whole] at headDenotes
  obtain ⟨key, value, halved, keyDenotes, valueDenotes, _⟩ := headDenotes.split [61] (by simp)
  rw [halves] at keyDenotes valueDenotes
  have named : parameterValue heap head = .ok [(.name, value.trimn 1 1)] := by
    simp only [parameterValue, halved, ok_bind, Multipart.keyIs_spec keyDenotes, decide_true, if_true]
  have trimmed := valueDenotes.trimn 1 1 (Or.inr (by simp)) (Or.inr (by simp))
  have kept : Range.trimn (34 :: 97 :: symbol :: front) 1 1 ≠ [] := by simp [Range.trimn]
  cases fuel with
  | zero => simp [lineValues, filled] at done
  | succ less =>
      simp only [lineValues, if_neg filled, cut, ok_bind, named] at done
      obtain ⟨_, _, done⟩ := bind_eq_ok _ _ _ done
      obtain ⟨others, _, done⟩ := bind_eq_ok _ _ _ done
      obtain rfl := Except.ok.inj done
      refine ⟨(.name, value.trimn 1 1), List.mem_append_left _ List.mem_cons_self, ?_, ?_⟩
      · exact Bool.eq_false_iff.mpr (fun none => kept (trimmed.empty_iff.mp none))
      · exact trimmed.start kept

theorem folded_cons (line : Bytes) (folds : folded line = true) :
    ∃ symbol rest, line = symbol :: rest ∧ (symbol = 32 ∨ symbol = 9) := by
  cases line with
  | nil => exact absurd folds (by decide)
  | cons symbol rest =>
      refine ⟨symbol, rest, rfl, ?_⟩
      simpa [folded, Range.startsWith, ascii] using folds

def leaking (text : Bytes) : DataBufferImpl := .string ⟨leak ++ text⟩

def behindLeak (text : Bytes) : DataBuffer := ⟨some 0, 7, 7 + text.length⟩

theorem behindLeak_shows (text : Bytes) (room : text.length + 7 < Word.base) :
    (behindLeak text).Shows [leaking text] 0 (leaking text) ∧ (behindLeak text).text (leaking text) = text := by
  have length : (leaking text).bytes.length = 7 + text.length := by
    simp [leaking, DataBufferImpl.bytes, leak, ascii]
    omega
  refine ⟨⟨rfl, rfl, ?_, by simp [behindLeak], by rw [length]; exact le_refl _⟩, ?_⟩
  · change (leaking text).bytes.length < Word.base
    omega
  · have before : leak.length = 7 := rfl
    simp only [DataBuffer.text, behindLeak, leaking, DataBufferImpl.bytes, Range.slice]
    rw [List.drop_append_of_le_length (by omega), List.drop_of_length_le (by omega), List.nil_append,
      Nat.add_sub_cancel_left, List.take_length]

theorem foldLine_leak (text : Bytes) (room : text.length + 7 < Word.base) {headers : DataBuffer} {bytes : Bytes}
    (denotes : Denotes [leaking text] headers 0 (leaking text) 7 bytes)
    (folds : folded (splitLine bytes).1 = true) {line tail : DataBuffer}
    (done : foldLine (behindLeak text) [leaking text] headers.size .nil headers false = .ok (line, tail)) :
    ∃ symbol rest, (symbol = 32 ∨ symbol = 9) ∧
      Denotes [leaking text] line 0 (leaking text) 0 (leak ++ symbol :: rest) := by
  obtain ⟨shown, _⟩ := behindLeak_shows text room
  have around : Surroundings [leaking text] [leaking text] 0 0 (leaking text).bytes.length (leaking text)
      (leaking text) :=
    ⟨rfl, rfl, shown.inv, shown.inv, le_refl _, le_refl _, rfl⟩
  have whole : Within 0 0 (leaking text).bytes.length (behindLeak text) :=
    ⟨rfl, shown.order, shown.inside, Or.inl (Nat.zero_le _)⟩
  have within : Within 0 0 (leaking text).bytes.length headers :=
    ⟨denotes.shown.data, denotes.shown.order, denotes.shown.inside, Or.inl (Nat.zero_le _)⟩
  have some : bytes ≠ [] := by
    rintro rfl
    exact absurd folds (by decide)
  have filled : ¬headers.empty = true := fun none => some (denotes.empty_iff.mp none)
  obtain ⟨front, back, cut, frontDenotes, _, _⟩ := splitEither_refines denotes returnRN returnN
    (by simp [returnRN]) (by simp [returnN])
  change Denotes [leaking text] front 0 (leaking text) 7 (splitLine bytes).1 at frontDenotes
  have size := around.size_eq within
  obtain ⟨result, joined, _, begun⟩ := foldLine_begun around headers.size whole within filled (Or.inl rfl) (by omega)
  obtain rfl := Except.ok.inj (joined.symm.trans done)
  obtain ⟨subline, subtail, more, lineCut, tested, _, joins⟩ := begun.turn
  obtain ⟨rfl, rfl⟩ := Prod.mk.inj (Except.ok.inj (lineCut.symm.trans cut))
  rw [isFolded_spec frontDenotes, folds] at tested
  obtain rfl := Except.ok.inj tested
  obtain ⟨symbol, rest, split, blank⟩ := folded_cons _ folds
  have start : line.beginIndex = 0 := joins.start
  have stop : subline.endIndex ≤ line.endIndex := joins.stop
  have first := frontDenotes.start (by simp [split])
  have order := frontDenotes.shown.order
  refine ⟨symbol, rest ++ Range.slice (leaking text).bytes subline.endIndex line.endIndex, blank,
    (around.shows joins.inside).1, ?_, fun _ => start⟩
  have same := frontDenotes.same
  rw [DataBuffer.text, first, split] at same
  rw [DataBuffer.text, start, ← Range.slice_append _ 0 7 line.endIndex (by omega) (by omega),
    ← Range.slice_append _ 7 subline.endIndex line.endIndex (by omega) stop, same]
  rfl

theorem unfolded_of_ownBytes (text : Bytes) (room : text.length + 7 < Word.base) (own : OwnBytes text) :
    folded (splitLine (splitPart text).1).1 = false := by
  by_contra other
  have folds : folded (splitLine (splitPart text).1).1 = true := by simpa using other
  obtain ⟨shown, same⟩ := behindLeak_shows text room
  obtain ⟨⟨values, done, _, inside⟩, _⟩ := own [leaking text] [leaking text] 0 (leaking text) (leaking text)
    (behindLeak text) ⟨shown, same, fun _ _ => trivial⟩ ⟨shown, same, fun _ _ => trivial⟩
  have denotes : Denotes [leaking text] (behindLeak text) 0 (leaking text) 7 text := ⟨shown, same, fun _ => rfl⟩
  obtain ⟨headers, content, cut, headersDenotes, _, _⟩ := splitEither_refines denotes emptyLineRNRN emptyLineNN
    (by simp [emptyLineRNRN]) (by simp [emptyLineNN])
  change Denotes _ headers 0 _ 7 (splitPart text).1 at headersDenotes
  have some : (splitPart text).1 ≠ [] := by
    intro none
    rw [none] at folds
    exact absurd folds (by decide)
  have filled : ¬headers.empty = true := fun none => some (headersDenotes.empty_iff.mp none)
  have length : 1 ≤ headers.size := by
    rw [headersDenotes.size_eq]
    exact List.length_pos_of_ne_nil some
  obtain ⟨less, size⟩ := Nat.exists_eq_add_of_le' length
  -- the values of the first line come first
  simp only [extracted, cut, ok_bind] at done
  rw [size] at done
  simp only [headerValues, if_neg filled] at done
  obtain ⟨⟨line, tail⟩, folding, done⟩ := bind_eq_ok _ _ _ done
  obtain ⟨symbol, rest, blank, lineDenotes⟩ := foldLine_leak text room headersDenotes folds folding
  obtain ⟨front, taken, done⟩ := bind_eq_ok _ _ _ done
  obtain ⟨others, _, done⟩ := bind_eq_ok _ _ _ done
  obtain rfl := Except.ok.inj done
  obtain ⟨value, member, nonempty, begins⟩ := lineValues_leak blank lineDenotes _ front taken
  rcases inside value (List.mem_append_left _ member) with none | ⟨_, lower, _⟩
  · rw [nonempty] at none
    cases none
  · rw [begins] at lower
    exact absurd lower (by simp [behindLeak])

/-- A part is read from its own bytes wherever it lies, as long as its header lines are trimmed by
their bytes, if and only if its first header line is no folded one. -/
theorem ownBytes_iff (text : Bytes) (room : text.length + 7 < Word.base) :
    OwnBytes text ↔ folded (splitLine (splitPart text).1).1 = false :=
  ⟨unfolded_of_ownBytes text room, ownBytes_of_unfolded text⟩

theorem ownBytes_iff_field :
    OwnBytes (ascii "Content-Disposition: form-data;\r\n name=\"a\"\r\n\r\nx") ↔
      folded (splitLine (splitPart
        (ascii "Content-Disposition: form-data;\r\n name=\"a\"\r\n\r\nx")).1).1 = false :=
  ownBytes_iff (ascii "Content-Disposition: form-data;\r\n name=\"a\"\r\n\r\nx") (by decide +kernel)

/-- The same part, with a folded first line, after different bytes: two different arguments. And one
with a space at the end of its line, in a string and in a file. -/
theorem part_reads_before_itself :
    let text := ascii " x\r\n\r\ny"
    let first : Heap := [.string ⟨ascii ";name=\"a\";" ++ text⟩]
    let second : Heap := [.string ⟨ascii ";name=\"b\";" ++ text⟩]
    let part : DataBuffer := ⟨some 0, 10, 17⟩
    let spaced := ascii ";name=\"abcdef\" \r\n\r\ny"
    let whole : DataBuffer := ⟨some 0, 0, 20⟩
    ((parsePart .fresh first part).toOption.map Request.args = some [(ascii "a", ascii "y")] ∧
        (parsePart .fresh second part).toOption.map Request.args = some [(ascii "b", ascii "y")] ∧
        ¬OwnBytes text) ∧
      (parsePart .fresh [.string ⟨spaced⟩] whole).toOption.map Request.args = some [(ascii "abcdef", ascii "y")] ∧
      (parsePart .fresh [DataBufferImpl.pageFile spaced] whole).toOption.map Request.args =
        some [(ascii "abcdef\"", ascii "y")] := by
  intro text first second part spaced whole
  have here : (parsePart .fresh first part).toOption.map Request.args = some [(ascii "a", ascii "y")] := by
    decide +kernel
  have there : (parsePart .fresh second part).toOption.map Request.args = some [(ascii "b", ascii "y")] := by
    decide +kernel
  refine ⟨⟨here, there, ?_⟩, by decide +kernel, by decide +kernel⟩
  intro own
  have shown : part.Shows first 0 (.string ⟨ascii ";name=\"a\";" ++ text⟩) :=
    ⟨rfl, rfl, by change _ < Word.base; decide +kernel, by decide, by decide +kernel⟩
  have otherShown : part.Shows second 0 (.string ⟨ascii ";name=\"b\";" ++ text⟩) :=
    ⟨rfl, rfl, by change _ < Word.base; decide +kernel, by decide, by decide +kernel⟩
  obtain ⟨_, effect⟩ := own first second 0 _ _ part ⟨shown, rfl, fun _ _ => trivial⟩
    ⟨otherShown, rfl, fun _ _ => trivial⟩
  obtain ⟨next, parsed, otherParsed, _⟩ := effect .fresh ⟨⟨[], []⟩, rfl, rfl⟩
  rw [parsed] at here
  rw [otherParsed] at there
  have same := here.symm.trans there
  exact absurd same (by decide)

end OwnBytes

end Parser

end FastcgiContainer
