import FastcgiContainer.Multipart

/-! Multipart parsing of a buffer follows multipart parsing of its bytes, in every
storage that trims the header parameters of the body as `Range::trim` does. -/

namespace FastcgiContainer

open Word (Bytes)

namespace DataBuffer

/-- A buffer shows a text of a storage; an empty one may stand anywhere. -/
structure Denotes (heap : Heap) (buffer : DataBuffer) (ref : Nat) (storage : DataBufferImpl)
    (pos : Nat) (text : Bytes) : Prop where
  shown : buffer.Shows heap ref storage
  same : buffer.text storage = text
  start : text ≠ [] → buffer.beginIndex = pos

section Denotes

variable {heap : Heap} {buffer : DataBuffer} {ref : Nat} {storage : DataBufferImpl} {pos : Nat}
  {text : Bytes}

theorem Shows.denotes (shown : buffer.Shows heap ref storage) :
    Denotes heap buffer ref storage buffer.beginIndex (buffer.text storage) := ⟨shown, rfl, fun _ => rfl⟩

theorem Denotes.empty_iff (denotes : Denotes heap buffer ref storage pos text) :
    buffer.empty = true ↔ text = [] := by
  rw [denotes.shown.empty_iff, denotes.same]

theorem Denotes.size_eq (denotes : Denotes heap buffer ref storage pos text) :
    buffer.size = text.length := by
  rw [← denotes.shown.text_length, denotes.same]

theorem Denotes.endIndex_eq (denotes : Denotes heap buffer ref storage pos text)
    (filled : text ≠ []) : buffer.endIndex = pos + text.length := by
  have length := denotes.size_eq
  have order := denotes.shown.order
  rw [denotes.shown.size_eq, denotes.start filled] at length
  rw [denotes.start filled] at order
  omega

theorem Denotes.split (denotes : Denotes heap buffer ref storage pos text) (delim : Bytes)
    (nonempty : delim ≠ []) :
    ∃ head tail, buffer.split heap delim = .ok ((Range.split text delim).1, head, tail) ∧
      Denotes heap head ref storage pos (Range.split text delim).2.1 ∧
      Denotes heap tail ref storage (pos + (Range.split text delim).2.1.length + delim.length)
        (Range.split text delim).2.2 ∧
      head.beginIndex = buffer.beginIndex := by
  obtain ⟨found, head, tail, cut, headShown, tailShown, same, headBegin, tailRange⟩ :=
    split_refines denotes.shown delim nonempty
  rw [denotes.same] at same
  have inside := Range.split_inside text delim nonempty
  have absent := Range.split_absent text delim
  simp only [same] at inside absent ⊢
  refine ⟨head, tail, cut, ⟨headShown, rfl, ?_⟩, ⟨tailShown, rfl, ?_⟩, headBegin⟩
  · intro filled
    rw [headBegin]
    apply denotes.start
    rintro rfl
    have bound := inside.1
    exact filled (List.eq_nil_of_length_eq_zero (Nat.le_zero.mp bound))
  · intro filled
    have hit : found = true := by
      cases found with
      | true => rfl
      | false => exact absurd (absent rfl) filled
    have room := inside.2.resolve_left filled
    have start : buffer.beginIndex = pos := by
      apply denotes.start
      rintro rfl
      have positive := List.length_pos_of_ne_nil nonempty
      simp only [List.length_nil] at room
      omega
    have length := headShown.text_length
    have order := headShown.order
    rw [headShown.size_eq, headBegin, start] at length
    rw [headBegin, start] at order
    rw [(tailRange hit).1]
    omega

theorem Denotes.startsWith (denotes : Denotes heap buffer ref storage pos text) (data : Bytes) :
    buffer.startsWith heap data = .ok (Range.startsWith text data) := by
  rw [startsWith_spec denotes.shown, denotes.same]

theorem Denotes.endsWith (denotes : Denotes heap buffer ref storage pos text) (data : Bytes) :
    buffer.endsWith heap data = .ok (Range.endsWith text data) := by
  rw [endsWith_spec denotes.shown, denotes.same]

theorem Denotes.trimn (denotes : Denotes heap buffer ref storage pos text) (b e : Nat)
    (front : text = [] ∨ b ≤ text.length) (back : text = [] ∨ e ≤ text.length) :
    Denotes heap (buffer.trimn b e) ref storage (pos + b) (Range.trimn text b e) := by
  by_cases filled : text = []
  · have none := denotes.empty_iff.mpr filled
    have kept : buffer.trimn b e = buffer := by simp [DataBuffer.trimn, none]
    rw [kept, filled]
    refine ⟨denotes.shown, by simp [denotes.same, filled, Range.trimn], ?_⟩
    intro some
    simp [Range.trimn] at some
  · have stop := denotes.endIndex_eq filled
    have start := denotes.start filled
    have fits := denotes.shown.inv.fits
    have inside := denotes.shown.inside
    have width := front.resolve_left filled
    have depth := back.resolve_left filled
    obtain ⟨shown, same⟩ := trimn_spec denotes.shown b e (by omega) (by omega)
    rw [denotes.same] at same
    refine ⟨shown, same, ?_⟩
    intro some
    have notNil : ¬ buffer.empty = true := fun none => filled (denotes.empty_iff.mp none)
    have shift : Word.add buffer.beginIndex b = pos + b := by
      rw [start]
      exact Word.add_eq _ _ (by omega)
    unfold DataBuffer.trimn at same ⊢
    rw [if_neg notNil] at same ⊢
    simp only [shift] at same ⊢
    split
    · next past =>
        rw [if_pos past] at same
        exfalso
        apply some
        rw [← same]
        simp [DataBuffer.text]
    · rfl

def trimmed : DataBufferImpl → Nat → Bytes → Bytes
  | .string _, _, text => Range.trim text
  | .file buffer, pos, text =>
      (text.dropWhile isspace).take
        (FileBuffer.trimBack buffer.wide (text.dropWhile isspace).length (pos + text.length) -
          (pos + Range.lead text))

/-- A trim by the storage takes away what a trim of the bytes takes away. -/
def TrimsAlike : DataBufferImpl → Nat → Bytes → Prop
  | .string _, _, _ => True
  | .file buffer, pos, text =>
      FileBuffer.trimBack buffer.wide (text.dropWhile isspace).length (pos + text.length) =
        pos + Range.lead text + (Range.trim text).length

instance : (storage : DataBufferImpl) → (pos : Nat) → (text : Bytes) →
    Decidable (TrimsAlike storage pos text)
  | .string _, _, _ => isTrue trivial
  | .file _, _, _ => inferInstanceAs (Decidable (_ = _))

theorem trimmed_alike (alike : TrimsAlike storage pos text) :
    trimmed storage pos text = Range.trim text := by
  cases storage with
  | string buffer => rfl
  | file buffer =>
      simp only [TrimsAlike] at alike
      have front := List.prefix_iff_eq_take.mp
        (List.rdropWhile_prefix isspace (l := text.dropWhile isspace))
      rw [trimmed, alike, Nat.add_sub_cancel_left]
      exact front.symm

theorem trimmed_front (storage : DataBufferImpl) (pos : Nat) (text : Bytes) :
    trimmed storage pos text <+: text.dropWhile isspace := by
  cases storage with
  | string buffer => exact List.rdropWhile_prefix isspace _
  | file buffer => exact List.take_prefix _ _

@[simp] theorem trimmed_nil (storage : DataBufferImpl) (pos : Nat) : trimmed storage pos [] = [] :=
  List.prefix_nil.mp (trimmed_front storage pos [])

theorem lead_trimmed_le (storage : DataBufferImpl) (pos : Nat) (text : Bytes) :
    Range.lead text + (trimmed storage pos text).length ≤ text.length := by
  have short := (trimmed_front storage pos text).length_le
  have shorter := List.length_dropWhile_le isspace text
  unfold Range.lead
  omega

theorem impl_trim (inv : storage.Inv) (inside : pos + text.length ≤ storage.bytes.length)
    (same : Range.slice storage.bytes pos (pos + text.length) = text) :
    ∃ next, storage.trim pos (pos + text.length) =
      .ok ((pos + Range.lead text, pos + Range.lead text + (trimmed storage pos text).length), next) := by
  cases storage with
  | string buffer =>
      change Range.slice buffer.data _ _ = _ at same
      refine ⟨.string buffer, ?_⟩
      simp only [DataBufferImpl.trim, StringBuffer.trim, same]
      rfl
  | file buffer =>
      change Range.slice buffer.bytes _ _ = _ at same
      obtain ⟨next, done, _, _⟩ := buffer.trim_spec inv pos (pos + text.length) (by omega) inside
      have shorter := List.length_dropWhile_le isspace text
      have start : pos + text.length - (text.dropWhile isspace).length = pos + Range.lead text := by
        unfold Range.lead
        omega
      have bounds := FileBuffer.trimBack_bounds buffer.wide (text.dropWhile isspace).length
        (pos + text.length)
      rw [start] at bounds
      have stop : pos + Range.lead text + (trimmed (.file buffer) pos text).length =
          FileBuffer.trimBack buffer.wide (text.dropWhile isspace).length (pos + text.length) := by
        rw [trimmed, List.length_take]
        omega
      refine ⟨.file next, ?_⟩
      simp only [DataBufferImpl.trim, done, same, ok_bind, start, stop]

theorem Denotes.trim_eq (denotes : Denotes heap buffer ref storage pos text) (filled : text ≠ []) :
    buffer.trim heap = .ok { buffer with
      beginIndex := pos + Range.lead text,
      endIndex := pos + Range.lead text + (trimmed storage pos text).length } := by
  have notNil : ¬ buffer.empty = true := fun none => filled (denotes.empty_iff.mp none)
  have stop := denotes.endIndex_eq filled
  have start := denotes.start filled
  have inside := denotes.shown.inside
  have same := denotes.same
  rw [DataBuffer.text, start, stop] at same
  obtain ⟨next, done⟩ := impl_trim denotes.shown.inv (by omega) same
  simp only [DataBuffer.trim, if_neg notNil, denotes.shown.impl_eq, ok_bind, start, stop, done]

theorem Denotes.trim (denotes : Denotes heap buffer ref storage pos text) :
    ∃ part, buffer.trim heap = .ok part ∧
      Denotes heap part ref storage (pos + Range.lead text) (trimmed storage pos text) := by
  have front := trimmed_front storage pos text
  by_cases filled : text = []
  · have none := denotes.empty_iff.mpr filled
    have blank : trimmed storage pos text = [] := by rw [filled, trimmed_nil]
    rw [blank]
    refine ⟨buffer, by simp [DataBuffer.trim, none], denotes.shown, denotes.same.trans filled, ?_⟩
    intro some
    exact absurd rfl some
  · have stop := denotes.endIndex_eq filled
    have start := denotes.start filled
    have inside := denotes.shown.inside
    have same := denotes.same
    rw [DataBuffer.text, start, stop] at same
    have bound := lead_trimmed_le storage pos text
    refine ⟨_, denotes.trim_eq filled, denotes.shown.narrow _ _ (by omega) (by omega), ?_, fun _ => rfl⟩
    have cut := Range.slice_slice storage.bytes pos (pos + text.length) (Range.lead text)
      (Range.lead text + (trimmed storage pos text).length) (by omega) (by omega)
    have dropped : text.drop (Range.lead text) = text.dropWhile isspace :=
      (List.suffix_iff_eq_drop.mp (List.dropWhile_suffix isspace)).symm
    rw [same, ← Nat.add_assoc] at cut
    rw [DataBuffer.text, ← cut, Range.slice, dropped, Nat.add_sub_cancel_left]
    exact (List.prefix_iff_eq_take.mp front).symm

theorem Denotes.toBytes (denotes : Denotes heap buffer ref storage pos text) :
    buffer.toBytes heap = .ok text := by
  rw [toBytes_spec denotes.shown, denotes.same]

end Denotes

end DataBuffer

namespace Multipart

open DataBuffer (Denotes TrimsAlike trimmed trimmed_alike)
open FastcgiContainer.Parser (returnRN returnN emptyLineRNRN emptyLineNN minusPair malformed)

structure Reads (heap : Heap) (buffer : DataBuffer) (text : Bytes) : Prop where
  content : buffer.toBytes heap = .ok text
  empty : buffer.empty = true ↔ text = []

structure ReadsNames (heap : Heap) (found : Parser.PartHeaders) (names : PartNames) : Prop where
  name : Reads heap found.name names.name
  filename : Reads heap found.filename names.filename
  type : Reads heap found.type names.type

def parameterOn (storage : DataBufferImpl) (head : Piece) (found : PartNames) : PartNames :=
  let (_, key, value) := Range.split head.bytes [61]
  if key = ascii "name" then { found with name := Range.trimn value 1 1 }
  else if key = ascii "filename" then { found with filename := Range.trimn value 1 1 }
  else if isTypeKey key then
    { found with type := trimmed storage (head.pos + key.length + 1) value }
  else found

def lineOn (storage : DataBufferImpl) : Nat → Piece → PartNames → PartNames
  | 0, _, found => found
  | fuel + 1, line, found =>
      if line.bytes.isEmpty then found
      else
        let (_, head, tail) := Range.split line.bytes [59]
        let pos := line.pos + head.length + 1
        lineOn storage fuel ⟨pos + Range.lead tail, trimmed storage pos tail⟩
          (parameterOn storage ⟨line.pos, head⟩ found)

def namesOn (storage : DataBufferImpl) (part : Piece) : PartNames :=
  (partLines part).foldl (fun found line => lineOn storage line.bytes.length line found) ⟨[], [], []⟩

theorem reads_nil (heap : Heap) : Reads heap .nil [] := ⟨rfl, by simp [DataBuffer.nil, DataBuffer.empty,
  DataBuffer.isNil]⟩

section Refinement

variable {heap : Heap} {ref : Nat} {storage : DataBufferImpl}

theorem reads_of_denotes {buffer : DataBuffer} {pos : Nat} {text : Bytes}
    (denotes : Denotes heap buffer ref storage pos text) : Reads heap buffer text :=
  ⟨denotes.toBytes, denotes.empty_iff⟩

theorem take_of_length {text data : Bytes} (same : text.length = data.length) :
    text.take data.length = text := by
  rw [← same, List.take_length]

theorem keyIs_spec {buffer : DataBuffer} {pos : Nat} {text : Bytes}
    (denotes : Denotes heap buffer ref storage pos text) (data : Bytes) :
    Parser.keyIs buffer heap data = .ok (decide (text = data)) := by
  rw [Parser.keyIs, denotes.size_eq, denotes.startsWith]
  split
  · next same =>
      rw [Range.startsWith, take_of_length same.symm]
      simp [same]
  · next other =>
      have differ : text ≠ data := by
        rintro rfl
        exact other rfl
      simp [differ]

theorem keyIsCI_spec {buffer : DataBuffer} {pos : Nat} {text : Bytes}
    (denotes : Denotes heap buffer ref storage pos text) :
    Parser.keyIsCI buffer heap (ascii "CONTENT_TYPE") = .ok (isTypeKey text) := by
  have folded := DataBuffer.startsWithFold_spec tolower denotes.shown (ascii "CONTENT_TYPE")
  rw [denotes.same] at folded
  rw [Parser.keyIsCI, denotes.size_eq, DataBuffer.startsWithCI, folded]
  unfold isTypeKey
  split
  · next same =>
      rw [take_of_length same.symm, same]
      simp only [le_refl, decide_true, Bool.true_and, beq_eq_decide]
  · next other =>
      congr 1
      symm
      rw [beq_eq_false_iff_ne]
      intro same
      have lengths := congrArg List.length same
      rw [List.length_map, List.length_map] at lengths
      exact other lengths.symm

theorem parseParameter_refines {head : DataBuffer} {pos : Nat} {text : Bytes}
    (denotes : Denotes heap head ref storage pos text) {found : Parser.PartHeaders}
    {names : PartNames} (reads : ReadsNames heap found names) :
    ∃ next, Parser.parseParameter heap head found = .ok next ∧
      ReadsNames heap next (parameterOn storage ⟨pos, text⟩ names) := by
  obtain ⟨key, value, halved, keyDenotes, valueDenotes, _⟩ := denotes.split [61] (by simp)
  have unquoted : Reads heap (value.trimn 1 1) (Range.trimn (Range.split text [61]).2.2 1 1) := by
    have short : (Range.split text [61]).2.2 = [] ∨ 1 ≤ (Range.split text [61]).2.2.length := by
      rcases List.eq_nil_or_concat (Range.split text [61]).2.2 with none | ⟨front, last, same⟩
      · exact Or.inl none
      · refine Or.inr ?_
        simp [same]
    exact reads_of_denotes (valueDenotes.trimn 1 1 short short)
  simp only [Parser.parseParameter, halved, ok_bind, keyIs_spec keyDenotes, keyIsCI_spec keyDenotes,
    parameterOn, decide_eq_true_eq]
  by_cases isName : (Range.split text [61]).2.1 = ascii "name"
  · simp only [isName, if_true]
    exact ⟨_, rfl, ⟨unquoted, reads.filename, reads.type⟩⟩
  · by_cases isFilename : (Range.split text [61]).2.1 = ascii "filename"
    · simp only [if_neg isName, if_pos isFilename]
      exact ⟨_, rfl, ⟨reads.name, unquoted, reads.type⟩⟩
    · by_cases isType : isTypeKey (Range.split text [61]).2.1 = true
      · obtain ⟨part, done, partDenotes⟩ := valueDenotes.trim
        simp only [if_neg isName, if_neg isFilename, if_pos isType, done, ok_bind]
        exact ⟨_, rfl, ⟨reads.name, reads.filename, reads_of_denotes partDenotes⟩⟩
      · simp only [if_neg isName, if_neg isFilename, if_neg isType]
        exact ⟨found, rfl, reads⟩

theorem parseLine_refines (fuel : Nat) {line : DataBuffer} {pos : Nat} {text : Bytes}
    (denotes : Denotes heap line ref storage pos text) {found : Parser.PartHeaders}
    {names : PartNames} (reads : ReadsNames heap found names) (enough : text.length ≤ fuel) :
    ∃ next, Parser.parseLine heap fuel line found = .ok next ∧
      ReadsNames heap next (lineOn storage fuel ⟨pos, text⟩ names) := by
  induction fuel generalizing line pos text found names with
  | zero =>
      have none := denotes.empty_iff.mpr (List.eq_nil_of_length_eq_zero (Nat.le_zero.mp enough))
      exact ⟨found, by simp [Parser.parseLine, none], reads⟩
  | succ fuel ih =>
      by_cases blank : text = []
      · have none := denotes.empty_iff.mpr blank
        exact ⟨found, by simp [Parser.parseLine, none], by simpa [lineOn, blank] using reads⟩
      · have filled : ¬ line.empty = true := fun none => blank (denotes.empty_iff.mp none)
        have shorter := Range.split_tail_length text [59] (by simp) blank
        obtain ⟨head, tail, cut, headDenotes, tailDenotes, _⟩ := denotes.split [59] (by simp)
        have visible : ¬ text.isEmpty = true := by simpa using blank
        obtain ⟨middle, parsed, middleReads⟩ := parseParameter_refines headDenotes reads
        obtain ⟨rest, cutBack, restDenotes⟩ := tailDenotes.trim
        have width := DataBuffer.lead_trimmed_le storage
          (pos + (Range.split text [59]).2.1.length + 1) (Range.split text [59]).2.2
        simp only [List.length_singleton] at restDenotes
        obtain ⟨next, done, nextReads⟩ := ih restDenotes middleReads (by omega)
        refine ⟨next, ?_, ?_⟩
        · simp only [Parser.parseLine, if_neg filled, cut, ok_bind, parsed, cutBack, done]
        · simpa only [lineOn, if_neg visible] using nextReads

theorem splitEither_refines {buffer : DataBuffer} {pos : Nat} {text : Bytes}
    (denotes : Denotes heap buffer ref storage pos text) (delim other : Bytes)
    (first : delim ≠ []) (second : other ≠ []) :
    ∃ head tail, Parser.splitEither buffer heap delim other = .ok (head, tail) ∧
      Denotes heap head ref storage pos (splitEither text delim other).1 ∧
      Denotes heap tail ref storage (pos + (text.length - (splitEither text delim other).2.length))
        (splitEither text delim other).2 ∧
      head.beginIndex = buffer.beginIndex := by
  -- the second half starts where the text less its length ends
  have shifted : ∀ (mark : Bytes) (tail : DataBuffer), mark ≠ [] →
      Denotes heap tail ref storage (pos + (Range.split text mark).2.1.length + mark.length)
        (Range.split text mark).2.2 →
      Denotes heap tail ref storage (pos + (text.length - (Range.split text mark).2.2.length))
        (Range.split text mark).2.2 := by
    intro mark tail nonempty tailDenotes
    refine ⟨tailDenotes.shown, tailDenotes.same, fun filled => ?_⟩
    have room := (Range.split_inside text mark nonempty).2.resolve_left filled
    rw [tailDenotes.start filled]
    omega
  obtain ⟨head, tail, cut, headDenotes, tailDenotes, headBegin⟩ := denotes.split delim first
  unfold Parser.splitEither splitEither
  simp only [cut, ok_bind]
  split
  · exact ⟨head, tail, rfl, headDenotes, shifted delim tail first tailDenotes, headBegin⟩
  · obtain ⟨head, tail, cut, headDenotes, tailDenotes, headBegin⟩ := denotes.split other second
    exact ⟨head, tail, by rw [cut, ok_bind], headDenotes, shifted other tail second tailDenotes,
      headBegin⟩

theorem isFolded_spec {line : DataBuffer} {pos : Nat} {text : Bytes}
    (denotes : Denotes heap line ref storage pos text) :
    Parser.isFolded line heap = .ok (folded text) := by
  simp only [Parser.isFolded, denotes.startsWith, ok_bind, folded]
  cases Range.startsWith text (ascii " ") <;> rfl

structure RangeAt (heap : Heap) (ref : Nat) (storage : DataBufferImpl) (buffer : DataBuffer)
    (first last : Nat) : Prop where
  shown : buffer.Shows heap ref storage
  first : buffer.beginIndex = first
  last : buffer.endIndex = last

theorem nextLine_refines {tail : DataBuffer} {pos next : Nat} {headers : Bytes}
    (tailDenotes : Denotes heap tail ref storage (pos + next) (headers.drop next))
    (filled : headers.drop next ≠ []) :
    ∃ subline subtail, Parser.splitEither tail heap returnRN returnN = .ok (subline, subtail) ∧
      Denotes heap subline ref storage (pos + next) (splitLine (headers.drop next)).1 ∧
      Denotes heap subtail ref storage
        (pos + (headers.length - (splitLine (headers.drop next)).2.length))
        (headers.drop (headers.length - (splitLine (headers.drop next)).2.length)) ∧
      RangeAt heap ref storage subline (pos + next)
        (pos + (next + (splitLine (headers.drop next)).1.length)) := by
  obtain ⟨subline, subtail, cut, subDenotes, subtailDenotes, subBegin⟩ :=
    splitEither_refines tailDenotes returnRN returnN (by simp [returnRN]) (by simp [returnN])
  change Denotes heap subline ref storage _ (splitLine (headers.drop next)).1 at subDenotes
  change Denotes heap subtail ref storage (pos + next + ((headers.drop next).length -
    (splitLine (headers.drop next)).2.length)) (splitLine (headers.drop next)).2 at subtailDenotes
  have bounds := splitLine_bounds (headers.drop next)
  have ends := splitEither_tail_eq (headers.drop next) returnRN returnN
  change (splitLine (headers.drop next)).2 = (headers.drop next).drop
    ((headers.drop next).length - (splitLine (headers.drop next)).2.length) at ends
  have nonempty : 0 < (headers.drop next).length := List.length_pos_of_ne_nil filled
  rw [List.length_drop] at bounds nonempty
  have shift : next + (headers.length - next - (splitLine (headers.drop next)).2.length) =
      headers.length - (splitLine (headers.drop next)).2.length := by omega
  rw [List.length_drop, Nat.add_assoc, shift] at subtailDenotes
  rw [List.length_drop, List.drop_drop, shift] at ends
  have start : subline.beginIndex = pos + next := by rw [subBegin, tailDenotes.start filled]
  refine ⟨subline, subtail, cut, subDenotes, ?_, subDenotes.shown, start, ?_⟩
  · rwa [← ends]
  · have size := subDenotes.size_eq
    have order := subDenotes.shown.order
    rw [subDenotes.shown.size_eq] at size
    omega

theorem foldLine_ended (fuel : Nat) {part line tail : DataBuffer} {pos : Nat} {headers : Bytes}
    (length next : Nat) (lineFound : Bool)
    (tailDenotes : Denotes heap tail ref storage (pos + next) (headers.drop next))
    (lineAt : lineFound = true → RangeAt heap ref storage line pos (pos + length))
    (none : headers.drop next = []) :
    ∃ joined rest, Parser.foldLine part heap fuel line tail lineFound = .ok (joined, rest) ∧
      Denotes heap rest ref storage (pos + (foldLine headers fuel length next lineFound).2)
        (headers.drop (foldLine headers fuel length next lineFound).2) ∧
      (lineFound = true ∨ headers.drop next ≠ [] →
        RangeAt heap ref storage joined pos
          (pos + (foldLine headers fuel length next lineFound).1)) := by
  have stop : foldLine headers fuel length next lineFound = (length, next) := by
    cases fuel with
    | zero => rfl
    | succ fuel => simp only [foldLine, none, List.isEmpty_nil, if_true]
  rw [stop]
  refine ⟨line, tail, ?_, tailDenotes, ?_⟩
  · cases fuel <;> simp [Parser.foldLine, tailDenotes.empty_iff.mpr none]
  · rintro (set | filled)
    · exact lineAt set
    · exact absurd none filled

theorem foldLine_refines (fuel : Nat) {part line tail : DataBuffer}
    (partShown : part.Shows heap ref storage) {pos : Nat} {headers : Bytes}
    (length next : Nat) (lineFound : Bool)
    (tailDenotes : Denotes heap tail ref storage (pos + next) (headers.drop next))
    (inside : next ≤ headers.length)
    (lineAt : lineFound = true → RangeAt heap ref storage line pos (pos + length))
    (unset : lineFound = false → next = 0 ∧ folded (splitLine headers).1 = false)
    (enough : headers.length - next ≤ fuel) :
    ∃ joined rest, Parser.foldLine part heap fuel line tail lineFound = .ok (joined, rest) ∧
      Denotes heap rest ref storage (pos + (foldLine headers fuel length next lineFound).2)
        (headers.drop (foldLine headers fuel length next lineFound).2) ∧
      (lineFound = true ∨ headers.drop next ≠ [] →
        RangeAt heap ref storage joined pos
          (pos + (foldLine headers fuel length next lineFound).1)) := by
  induction fuel generalizing line tail length next lineFound with
  | zero =>
      have none : headers.drop next = [] := List.drop_eq_nil_of_le (by omega)
      exact foldLine_ended 0 length next lineFound tailDenotes lineAt none
  | succ fuel ih =>
      by_cases none : headers.drop next = []
      · exact foldLine_ended (fuel + 1) length next lineFound tailDenotes lineAt none
      · have visible : ¬ (headers.drop next).isEmpty = true := by simpa using none
        have filled : ¬ tail.empty = true := fun blank => none (tailDenotes.empty_iff.mp blank)
        obtain ⟨subline, subtail, cut, subDenotes, restDenotes, range⟩ :=
          nextLine_refines tailDenotes none
        have bounds := splitLine_bounds (headers.drop next)
        have shorter := splitLine_tail_length (headers.drop next) none
        rw [List.length_drop] at bounds shorter
        simp only [Parser.foldLine, if_neg filled, cut, ok_bind, isFolded_spec subDenotes, foldLine,
          if_neg visible]
        by_cases more : folded (splitLine (headers.drop next)).1 = true
        · have set : lineFound = true := by
            cases lineFound with
            | true => rfl
            | false =>
                obtain ⟨rfl, plain⟩ := unset rfl
                rw [List.drop_zero, plain] at more
                exact absurd more (by simp)
          have start := lineAt set
          have joined := DataBuffer.view_spec partShown line.beginIndex subline.endIndex
            subDenotes.shown.inside
          obtain ⟨result, rest, done, restOk, rangeOk⟩ := @ih { part with
              beginIndex := line.beginIndex, endIndex := subline.endIndex } subtail
            (next + (splitLine (headers.drop next)).1.length)
            (headers.length - (splitLine (headers.drop next)).2.length) true restDenotes (by omega)
            (fun _ => ⟨partShown.narrow _ _ (by rw [start.first, range.last]; omega)
              subDenotes.shown.inside, start.first, range.last⟩)
            (by simp) (by omega)
          simp only [more, if_true, joined, ok_bind, Bool.true_or]
          exact ⟨result, rest, done, restOk, fun _ => rangeOk (Or.inl rfl)⟩
        · simp only [Bool.not_eq_true] at more
          cases lineFound with
          | true =>
              simp only [more, Bool.false_eq_true, if_false, if_true, Bool.not_true, Bool.or_self]
              exact ⟨line, tail, rfl, tailDenotes, fun _ => lineAt rfl⟩
          | false =>
              obtain ⟨rfl, _⟩ := unset rfl
              obtain ⟨result, rest, done, restOk, rangeOk⟩ := @ih subline subtail
                (0 + (splitLine (headers.drop 0)).1.length)
                (headers.length - (splitLine (headers.drop 0)).2.length) true restDenotes (by omega)
                (fun _ => range) (by simp) (by omega)
              simp only [more, Bool.false_eq_true, if_false, Bool.not_false, Bool.or_true, if_true]
              exact ⟨result, rest, done, restOk, fun _ => rangeOk (Or.inl rfl)⟩

theorem rangeAt_denotes {headers line : DataBuffer} {pos length : Nat} {text : Bytes}
    (denotes : Denotes heap headers ref storage pos text) (filled : text ≠ [])
    (short : length ≤ text.length) (lineAt : RangeAt heap ref storage line pos (pos + length)) :
    Denotes heap line ref storage pos (text.take length) := by
  refine ⟨lineAt.shown, ?_, fun _ => lineAt.first⟩
  have same := denotes.same
  rw [DataBuffer.text, denotes.start filled, denotes.endIndex_eq filled] at same
  rw [DataBuffer.text, lineAt.first, lineAt.last, ← same, Range.slice_take _ _ _ _ (by omega)]

theorem parseHeaders_refines (fuel : Nat) {part headers : DataBuffer}
    (partShown : part.Shows heap ref storage) {pos : Nat} {text : Bytes}
    (denotes : Denotes heap headers ref storage pos text) {found : Parser.PartHeaders}
    {names : PartNames} (reads : ReadsNames heap found names) (enough : text.length ≤ fuel)
    (plain : text = [] ∨ folded (splitLine text).1 = false) :
    ∃ next, Parser.parseHeaders part heap fuel headers found = .ok next ∧
      ReadsNames heap next ((headerLines fuel ⟨pos, text⟩).foldl
        (fun found line => lineOn storage line.bytes.length line found) names) := by
  induction fuel generalizing headers pos text found names with
  | zero =>
      have none := denotes.empty_iff.mpr (List.eq_nil_of_length_eq_zero (Nat.le_zero.mp enough))
      exact ⟨found, by simp [Parser.parseHeaders, none], reads⟩
  | succ fuel ih =>
      by_cases blank : text = []
      · have none := denotes.empty_iff.mpr blank
        exact ⟨found, by simp [Parser.parseHeaders, none],
          by simpa [headerLines, blank] using reads⟩
      · have filled : ¬ headers.empty = true := fun none => blank (denotes.empty_iff.mp none)
        have visible : ¬ text.isEmpty = true := by simpa using blank
        have positive := List.length_pos_of_ne_nil blank
        obtain ⟨line, rest, folding, restDenotes, lineAt⟩ := @foldLine_refines heap ref storage
          text.length part .nil headers partShown pos text 0 0 false
          denotes (Nat.zero_le _) (by simp) (fun _ => ⟨rfl, plain.resolve_left blank⟩)
          (by omega)
        obtain ⟨short, _, inside, forward, nextPlain⟩ := foldLine_bounds text text.length 0 0 false
          (Nat.zero_le _) (Nat.zero_le _) (by omega)
        simp only [headerLines, if_neg visible]
        generalize foldLine text text.length 0 0 false = bounds at *
        obtain ⟨length, next⟩ := bounds
        simp only at *
        have lineDenotes := rangeAt_denotes denotes blank short (lineAt (Or.inr (by simpa using blank)))
        obtain ⟨middle, parsed, middleReads⟩ := parseLine_refines (text.take length).length lineDenotes
          reads (le_refl _)
        obtain ⟨last, done, lastReads⟩ := ih restDenotes middleReads
          (by rw [List.length_drop]; have := forward trivial positive; omega)
          nextPlain
        refine ⟨last, ?_, by simpa using lastReads⟩
        simp only [Parser.parseHeaders, if_neg filled, denotes.size_eq, folding, ok_bind,
          lineDenotes.size_eq, parsed, done]

theorem endsWith_length {text data : Bytes} (ends : Range.endsWith text data = true) :
    data.length ≤ text.length := by
  simp only [Range.endsWith, Bool.and_eq_true, decide_eq_true_eq] at ends
  exact ends.1

theorem startsWith_length {text data : Bytes} (starts : Range.startsWith text data = true) :
    data.length ≤ text.length := by
  simp only [Range.startsWith, Bool.and_eq_true, decide_eq_true_eq] at starts
  exact starts.1

theorem stripFront_refines {head : DataBuffer} {pos : Nat} {text : Bytes}
    (denotes : Denotes heap head ref storage pos text) :
    match (if Range.startsWith text returnRN then some (⟨pos + 2, Range.trimn text 2 0⟩ : Piece)
      else if Range.startsWith text returnN then some ⟨pos + 1, Range.trimn text 1 0⟩
      else none) with
    | none => Parser.stripFront heap head = .error malformed
    | some piece => ∃ part, Parser.stripFront heap head = .ok part ∧
        Denotes heap part ref storage piece.pos piece.bytes := by
  simp only [Parser.stripFront, denotes.startsWith, ok_bind]
  by_cases windows : Range.startsWith text returnRN = true
  · have width := startsWith_length windows
    simp only [if_pos windows]
    exact ⟨_, rfl, denotes.trimn 2 0 (Or.inr width) (Or.inr (Nat.zero_le _))⟩
  · by_cases unix : Range.startsWith text returnN = true
    · have width := startsWith_length unix
      simp only [if_neg windows, if_pos unix]
      exact ⟨_, rfl, denotes.trimn 1 0 (Or.inr width) (Or.inr (Nat.zero_le _))⟩
    · simp only [if_neg windows, if_neg unix]

theorem cutPart_refines (found : Bool) {head : DataBuffer} {pos : Nat} {text : Bytes}
    (denotes : Denotes heap head ref storage pos text) :
    match cutPart found ⟨pos, text⟩ with
    | none => Parser.cutPart heap found head = .error malformed
    | some piece => ∃ part, Parser.cutPart heap found head = .ok part ∧
        Denotes heap part ref storage piece.pos piece.bytes := by
  have blank : head.empty = text.isEmpty := by
    rw [Bool.eq_iff_iff, denotes.empty_iff, List.isEmpty_iff]
  unfold cutPart Parser.cutPart
  rw [blank]
  by_cases strip : (found && !text.isEmpty) = true
  · simp only [if_pos strip, stripReturns, Parser.stripBack, denotes.endsWith, ok_bind]
    by_cases windows : Range.endsWith text returnRN = true
    · have width := endsWith_length windows
      simp only [if_pos windows, Option.bind_some, ok_bind]
      exact stripFront_refines (denotes.trimn 0 2 (Or.inr (Nat.zero_le _)) (Or.inr width))
    · by_cases unix : Range.endsWith text returnN = true
      · have width := endsWith_length unix
        simp only [if_neg windows, if_pos unix, Option.bind_some, ok_bind]
        exact stripFront_refines (denotes.trimn 0 1 (Or.inr (Nat.zero_le _)) (Or.inr width))
      · simp only [if_neg windows, if_neg unix, Option.bind_none, error_bind]
  · simp only [if_neg strip]
    exact ⟨head, rfl, denotes⟩

theorem partNames_eq (part : Piece) :
    partNames part.bytes = ((partLines part).map Piece.bytes).foldl
      (fun found line => parseLine line.length line found) ⟨[], [], []⟩ := by
  unfold partNames partLines
  rw [headerLines_bytes _ 0 part.pos]

end Refinement

def readFile (heap : Heap) (entry : Bytes × File) : Except Exn (Bytes × FormFile) := do
  let content ← entry.2.data.toBytes heap
  .ok (entry.1, ⟨entry.2.name, entry.2.type, content⟩)

/-- What a handler reads out of a request: its arguments and its files. -/
def readForm (heap : Heap) (request : Request) : Except Exn Form := do
  let files ← request.files.entries.mapM (readFile heap)
  .ok ⟨request.args, files⟩

theorem readForm_ok {heap : Heap} {request : Request} {form : Form}
    (reads : readForm heap request = .ok form) :
    request.args = form.args ∧ request.files.entries.mapM (readFile heap) = .ok form.files := by
  obtain ⟨files, listed, same⟩ := bind_eq_ok _ _ _ reads
  cases same
  exact ⟨rfl, listed⟩

theorem mapM_cons_ok {α β : Type} (call : α → Except Exn β) (item : α) (rest : List α)
    (results : List β) (done : (item :: rest).mapM call = .ok results) :
    ∃ first others, results = first :: others ∧ call item = .ok first ∧
      rest.mapM call = .ok others := by
  rw [List.mapM_cons] at done
  obtain ⟨first, firstDone, later⟩ := bind_eq_ok _ _ _ done
  obtain ⟨others, othersDone, same⟩ := bind_eq_ok _ _ _ later
  cases same
  exact ⟨first, others, rfl, firstDone, othersDone⟩

theorem readFile_placed (heap : Heap) (entries : List (Bytes × File))
    (files : List (Bytes × FormFile)) (name : Bytes) (file : File) (entry : FormFile)
    (listed : entries.mapM (readFile heap) = .ok files)
    (reads : readFile heap (name, file) = .ok (name, entry)) :
    (OrderedMap.placeEntry stringLess false name file entries).mapM (readFile heap) =
      .ok (OrderedMap.placeEntry stringLess false name entry files) := by
  induction entries generalizing files with
  | nil =>
      obtain rfl : files = [] := by
        cases listed
        rfl
      simp only [OrderedMap.placeEntry, List.mapM_cons, reads, ok_bind, List.mapM_nil]
      rfl
  | cons head rest ih =>
      obtain ⟨first, others, rfl, firstDone, othersDone⟩ := mapM_cons_ok _ _ _ _ listed
      obtain ⟨other, current⟩ := head
      obtain ⟨content, _, same⟩ := bind_eq_ok _ _ _ firstDone
      cases same
      have tail := ih others othersDone
      simp only [OrderedMap.placeEntry]
      by_cases before : stringLess other name = true
      · simp only [if_pos before, List.mapM_cons, firstDone, tail, ok_bind]
        rfl
      · by_cases after : stringLess name other = true
        · simp only [if_neg before, if_pos after, List.mapM_cons, reads, firstDone, othersDone,
            ok_bind]
          rfl
        · simp only [if_neg before, if_neg after, Bool.false_eq_true, if_false, List.mapM_cons,
            firstDone, othersDone, ok_bind]
          rfl

/-- What a part asks of its storage: the first header line is no folded one, and
the pieces of its header lines are trimmed as `Range::trim` would trim them. -/
structure CleanPart (storage : DataBufferImpl) (part : Piece) : Prop where
  unfolded : folded (splitLine (splitPart part.bytes).1).1 = false
  trimmed : ∀ piece ∈ partTrims part, TrimsAlike storage piece.pos piece.bytes

instance (storage : DataBufferImpl) (part : Piece) : Decidable (CleanPart storage part) :=
  decidable_of_iff (folded (splitLine (splitPart part.bytes).1).1 = false ∧
    ∀ piece ∈ partTrims part, TrimsAlike storage piece.pos piece.bytes)
    ⟨fun both => ⟨both.1, both.2⟩, fun clean => ⟨clean.unfolded, clean.trimmed⟩⟩

theorem lineOn_clean {storage : DataBufferImpl} (fuel : Nat) (line : Piece) (found : PartNames)
    (alike : ∀ piece ∈ lineTrims fuel line, TrimsAlike storage piece.pos piece.bytes) :
    lineOn storage fuel line found = parseLine fuel line.bytes found := by
  induction fuel generalizing line found with
  | zero => rfl
  | succ fuel ih =>
      unfold lineOn parseLine
      unfold lineTrims at alike
      split
      · rfl
      · next filled =>
          rw [if_neg filled] at alike
          simp only [List.mem_append, List.mem_cons] at alike
          have rest := alike ⟨_, _⟩ (Or.inr (Or.inl rfl))
          simp only at rest
          have parameter : parameterOn storage ⟨line.pos, (Range.split line.bytes [59]).2.1⟩ found =
              parseParameter (Range.split line.bytes [59]).2.1 found := by
            unfold parameterOn parseParameter
            by_cases isType : isTypeKey (Range.split (Range.split line.bytes [59]).2.1 [61]).2.1 = true
            · have value := alike ⟨_, _⟩ (Or.inl (by
                rw [if_pos isType]
                exact List.mem_singleton.mpr rfl))
              simp only [trimmed_alike value]
            · simp only [if_neg isType]
          simp only [parameter, trimmed_alike rest]
          exact ih _ _ (fun piece member => alike piece (Or.inr (Or.inr member)))

theorem namesOn_clean {storage : DataBufferImpl} {part : Piece} (clean : CleanPart storage part) :
    namesOn storage part = partNames part.bytes := by
  rw [partNames_eq, namesOn, List.foldl_map]
  apply List.foldl_ext
  intro found line member
  apply lineOn_clean
  intro piece inside
  exact clean.trimmed piece (List.mem_flatMap.mpr ⟨line, member, inside⟩)

section Loop

variable {heap : Heap} {ref : Nat} {storage : DataBufferImpl}

theorem ofBuffers_reads {filename type : DataBuffer} (content : DataBuffer) {remote kind : Bytes}
    (filenameReads : Reads heap filename remote) (typeReads : Reads heap type kind)
    (named : remote ≠ []) :
    File.ofBuffers heap filename type content = .ok ⟨remote, kind, content, named⟩ := by
  have filled : ¬ filename.empty = true := fun none => named (filenameReads.empty.mp none)
  simp only [File.ofBuffers, if_neg filled, filenameReads.content, typeReads.content, File.create,
    dif_pos named, ok_bind]
  split
  · next none => simp only [typeReads.empty.mp none]
  · rfl

theorem parsePart_on {part : DataBuffer} {piece : Piece}
    (denotes : Denotes heap part ref storage piece.pos piece.bytes)
    (unfolded : folded (splitLine (splitPart piece.bytes).1).1 = false) (request : Request) :
    ∃ content, Reads heap content (splitPart piece.bytes).2 ∧
      Parser.parsePart request heap part =
        if (namesOn storage piece).name = [] then .ok request
        else if named : (namesOn storage piece).filename = [] then .ok { request with
          args := request.args ++ [((namesOn storage piece).name, (splitPart piece.bytes).2)] }
        else .ok { request with
          files := request.files.insert (namesOn storage piece).name
            ⟨(namesOn storage piece).filename, (namesOn storage piece).type, content, named⟩ } := by
  obtain ⟨headers, content, cut, headersDenotes, contentDenotes, _⟩ :=
    splitEither_refines denotes emptyLineRNRN emptyLineNN (by simp [emptyLineRNRN])
      (by simp [emptyLineNN])
  change Denotes heap headers ref storage piece.pos (splitPart piece.bytes).1 at headersDenotes
  change Denotes heap content ref storage _ (splitPart piece.bytes).2 at contentDenotes
  obtain ⟨found, parsed, names⟩ := @parseHeaders_refines heap ref storage
    (splitPart piece.bytes).1.length part headers denotes.shown piece.pos (splitPart piece.bytes).1
    headersDenotes ⟨.nil, .nil, .nil⟩ ⟨[], [], []⟩
    ⟨reads_nil heap, reads_nil heap, reads_nil heap⟩ (le_refl _) (Or.inr unfolded)
  change ReadsNames heap found (namesOn storage piece) at names
  have contentReads := reads_of_denotes contentDenotes
  refine ⟨content, contentReads, ?_⟩
  simp only [Parser.parsePart, cut, ok_bind, headersDenotes.size_eq, parsed]
  by_cases unnamed : (namesOn storage piece).name = []
  · rw [if_pos (names.name.empty.mpr unnamed), if_pos unnamed]
  · have named : ¬ found.name.empty = true := fun none => unnamed (names.name.empty.mp none)
    simp only [if_neg named, names.name.content, ok_bind, if_neg unnamed]
    by_cases plain : (namesOn storage piece).filename = []
    · simp only [if_pos (names.filename.empty.mpr plain), contentReads.content, ok_bind, dif_pos plain]
    · have upload : ¬ found.filename.empty = true := fun none => plain (names.filename.empty.mp none)
      simp only [if_neg upload, ofBuffers_reads content names.filename names.type plain, ok_bind,
        dif_neg plain]

theorem parsePart_refines {part : DataBuffer} {piece : Piece}
    (denotes : Denotes heap part ref storage piece.pos piece.bytes)
    (clean : CleanPart storage piece) {request : Request} {form : Form}
    (reads : readForm heap request = .ok form) :
    ∃ next, Parser.parsePart request heap part = .ok next ∧
      readForm heap next = .ok (parsePart form piece.bytes) := by
  obtain ⟨args, files⟩ := readForm_ok reads
  obtain ⟨content, contentReads, parsed⟩ := parsePart_on denotes clean.unfolded request
  rw [namesOn_clean clean] at parsed
  simp only [parsePart, List.isEmpty_iff]
  by_cases unnamed : (partNames piece.bytes).name = []
  · rw [if_pos unnamed] at parsed
    exact ⟨request, parsed, by simpa [unnamed] using reads⟩
  · rw [if_neg unnamed] at parsed
    by_cases plain : (partNames piece.bytes).filename = []
    · rw [dif_pos plain] at parsed
      exact ⟨_, parsed, by simp [unnamed, plain, readForm, files, args]⟩
    · rw [dif_neg plain] at parsed
      refine ⟨_, parsed, ?_⟩
      have placed := readFile_placed heap request.files.entries form.files
        (partNames piece.bytes).name ⟨(partNames piece.bytes).filename, (partNames piece.bytes).type,
          content, plain⟩ ⟨(partNames piece.bytes).filename, (partNames piece.bytes).type,
            (splitPart piece.bytes).2⟩ files (by simp only [readFile, contentReads.content, ok_bind])
      simp only [readForm, OrderedMap.insert, placed, ok_bind, args]
      simp [unnamed, plain]

theorem parseMultipartLoop_refines (fuel : Nat) {boundary : Bytes} (marked : boundary ≠ [])
    {data : DataBuffer} {pos : Nat} {text : Bytes}
    (denotes : Denotes heap data ref storage pos text) (enough : text.length ≤ fuel)
    (clean : ∀ part ∈ (parts boundary fuel ⟨pos, text⟩).1, CleanPart storage part)
    {request : Request} {form : Form} (reads : readForm heap request = .ok form) :
    if (parts boundary fuel ⟨pos, text⟩).2 then
      ∃ next, Parser.parseMultipartLoop heap boundary fuel request data = .ok next ∧
        readForm heap next =
          .ok (((parts boundary fuel ⟨pos, text⟩).1.map Piece.bytes).foldl parsePart form)
    else Parser.parseMultipartLoop heap boundary fuel request data = .error malformed := by
  induction fuel generalizing data pos text request form with
  | zero =>
      have none := denotes.empty_iff.mpr (List.eq_nil_of_length_eq_zero (Nat.le_zero.mp enough))
      exact ⟨request, by simp [Parser.parseMultipartLoop, none], reads⟩
  | succ fuel ih =>
      by_cases blank : text = []
      · have none := denotes.empty_iff.mpr blank
        simp only [parts, blank, List.isEmpty_nil, if_true]
        exact ⟨request, by simp [Parser.parseMultipartLoop, none], reads⟩
      · have filled : ¬ data.empty = true := fun none => blank (denotes.empty_iff.mp none)
        have visible : ¬ text.isEmpty = true := by simpa using blank
        have shorter := Range.split_tail_length text boundary marked blank
        obtain ⟨head, tail, cut, headDenotes, tailDenotes, _⟩ := denotes.split boundary marked
        have peeled := cutPart_refines (Range.split text boundary).1 headDenotes
        simp only [parts, if_neg visible] at clean ⊢
        simp only [Parser.parseMultipartLoop, if_neg filled, cut, ok_bind]
        cases found : cutPart (Range.split text boundary).1 ⟨pos, (Range.split text boundary).2.1⟩ with
        | none =>
            rw [found] at peeled
            simp only at peeled
            simp [peeled]
        | some piece =>
            rw [found] at peeled
            obtain ⟨part, made, partDenotes⟩ := peeled
            simp only [found] at clean ⊢
            have blankPart : part.empty = true ↔ piece.bytes = [] := partDenotes.empty_iff
            -- the part itself, before the rest of the body
            obtain ⟨middle, added, middleReads⟩ : ∃ middle,
                Parser.addPart request heap part = .ok middle ∧
                readForm heap middle =
                  .ok (if piece.bytes = [] then form else parsePart form piece.bytes) := by
              unfold Parser.addPart
              by_cases empty : piece.bytes = []
              · exact ⟨request, by rw [if_pos (blankPart.mpr empty)], by simpa [empty] using reads⟩
              · obtain ⟨middle, done, middleReads⟩ := parsePart_refines partDenotes
                  (clean piece (by simp [empty])) reads
                refine ⟨middle, ?_, by simpa [empty] using middleReads⟩
                rw [if_neg (fun none => empty (blankPart.mp none)), done]
            simp only [made, ok_bind, added, tailDenotes.startsWith]
            by_cases last : Range.startsWith (Range.split text boundary).2.2 minusPair = true
            · simp only [last, if_true]
              refine ⟨middle, rfl, ?_⟩
              by_cases empty : piece.bytes = [] <;> simpa [empty] using middleReads
            · simp only [last] at clean ⊢
              have rest := ih tailDenotes (by omega)
                (fun other member => clean other (by
                  by_cases empty : piece.bytes = [] <;> simp [empty, member])) middleReads
              by_cases empty : piece.bytes = [] <;> simpa [empty] using rest

def Clean (storage : DataBufferImpl) (boundary : Bytes) (body : Piece) : Prop :=
  ∀ part ∈ (parts boundary body.bytes.length body).1, CleanPart storage part

instance (storage : DataBufferImpl) (boundary : Bytes) (body : Piece) :
    Decidable (Clean storage boundary body) :=
  inferInstanceAs (Decidable (∀ part ∈ _, _))

def outcome (heap : Heap) (request : Request) (body : DataBuffer) (boundary : Bytes) :
    Except Exn Form := do
  let next ← Parser.parseMultipart request heap body boundary
  readForm heap next

theorem outcome_eq {boundary : Bytes} (marked : boundary ≠ []) {body : DataBuffer}
    (shown : body.Shows heap ref storage)
    (clean : Clean storage boundary ⟨body.beginIndex, body.text storage⟩) {request : Request}
    {form : Form} (reads : readForm heap request = .ok form) :
    outcome heap request body boundary = parse boundary (body.text storage) form := by
  have looped := parseMultipartLoop_refines (body.text storage).length marked shown.denotes (le_refl _)
    clean reads
  obtain ⟨bytes, complete⟩ := parts_bytes boundary (body.text storage).length 0 body.beginIndex
    (body.text storage)
  simp only [outcome, Parser.parseMultipart, shown.denotes.size_eq, parse, bytes, complete]
  split at looped
  · next ended =>
      obtain ⟨next, done, nextReads⟩ := looped
      rw [if_pos ended, done, ok_bind, nextReads]
  · next broken =>
      rw [if_neg broken, looped, error_bind]

/-- A string storage trims its bytes: only folded first lines could tell it from
the bytes alone. -/
theorem clean_string (content : StringBuffer) (boundary : Bytes) (pos other : Nat) (text : Bytes)
    (clean : Clean storage boundary ⟨other, text⟩) :
    Clean (.string content) boundary ⟨pos, text⟩ := by
  intro part member
  have bytes := (parts_bytes boundary text.length pos other text).1
  have listed : part.bytes ∈ (parts boundary text.length ⟨other, text⟩).1.map Piece.bytes := by
    rw [← bytes]
    exact List.mem_map_of_mem member
  obtain ⟨peer, peerMember, same⟩ := List.mem_map.mp listed
  refine ⟨?_, fun _ _ => trivial⟩
  rw [← same]
  exact (clean peer peerMember).unfolded

/-- A body on disk is parsed as the same bytes in memory, wherever the two lie in
their storages, if the file storage trims the pieces of its header lines right and
no part starts with a folded line. -/
theorem file_form_as_string_form (heap : Heap) (fileRef stringRef : Nat) (buffer : FileBuffer)
    (content : StringBuffer) (fileBody stringBody : DataBuffer)
    (fileShown : fileBody.Shows heap fileRef (.file buffer))
    (stringShown : stringBody.Shows heap stringRef (.string content))
    (same : fileBody.text (.file buffer) = stringBody.text (.string content)) (boundary : Bytes)
    (marked : boundary ≠ []) (request : Request) (form : Form)
    (reads : readForm heap request = .ok form)
    (clean : Clean (.file buffer) boundary
      ⟨fileBody.beginIndex, fileBody.text (.file buffer)⟩) :
    outcome heap request fileBody boundary = outcome heap request stringBody boundary := by
  rw [outcome_eq marked fileShown clean reads]
  rw [same] at clean ⊢
  rw [outcome_eq marked stringShown (clean_string content boundary _ _ _ clean) reads]

end Loop

def onePart (header : Bytes) : Bytes :=
  ascii "--B\r\n" ++ header ++ ascii "\r\n\r\nx\r\n--B--\r\n"

def bothStorages (before body : Bytes) : Heap :=
  [DataBufferImpl.pageFile (before ++ body), .string ⟨body⟩]

def onDisk (before body : Bytes) : DataBuffer :=
  ⟨some 0, before.length, before.length + body.length⟩

def inMemory (body : Bytes) : DataBuffer := ⟨some 1, 0, body.length⟩

theorem onDisk_shows (before body : Bytes) (fits : before.length + body.length < Word.base) :
    (onDisk before body).Shows (bothStorages before body) 0
        (DataBufferImpl.pageFile (before ++ body)) ∧
      (onDisk before body).text (DataBufferImpl.pageFile (before ++ body)) = body := by
  refine ⟨⟨rfl, rfl, DataBufferImpl.pageFile_inv _ (by simpa using fits), by simp [onDisk], ?_⟩, ?_⟩
  · simp [onDisk, DataBufferImpl.pageFile, DataBufferImpl.bytes, FileBuffer.bytes]
  · simp [onDisk, DataBuffer.text, DataBufferImpl.pageFile, DataBufferImpl.bytes, FileBuffer.bytes,
      Range.slice]

theorem inMemory_shows (before body : Bytes) (fits : body.length < Word.base) :
    (inMemory body).Shows (bothStorages before body) 1 (.string ⟨body⟩) ∧
      (inMemory body).text (.string ⟨body⟩) = body :=
  ⟨⟨rfl, rfl, fits, by simp [inMemory], by simp [inMemory, DataBufferImpl.bytes]⟩,
    by simp [inMemory, DataBuffer.text, DataBufferImpl.bytes]⟩

theorem file_form_as_string_form_one_part :
    let body := onePart (ascii "Content-Disposition: form-data; name=\"a\"")
    outcome (bothStorages (ascii "env") body) .fresh (onDisk (ascii "env") body) (ascii "--B") =
      outcome (bothStorages (ascii "env") body) .fresh (inMemory body) (ascii "--B") := by
  intro body
  obtain ⟨diskShown, diskText⟩ := onDisk_shows (ascii "env") body (by decide)
  obtain ⟨memoryShown, memoryText⟩ := inMemory_shows (ascii "env") body (by decide)
  refine file_form_as_string_form _ 0 1 _ _ _ _ diskShown memoryShown ?_ (ascii "--B") (by decide)
    .fresh ⟨[], []⟩ rfl ?_
  · exact diskText.trans memoryText.symm
  · change Clean (DataBufferImpl.pageFile _) _
      ⟨_, (onDisk _ body).text (DataBufferImpl.pageFile (ascii "env" ++ body))⟩
    rw [diskText]
    decide +kernel

/-- A space after the last parameter stays in a file storage, and a part that
starts with a folded line takes in what the storage holds before it. -/
theorem file_form_differs :
    let trailing := onePart (ascii "Content-Disposition: form-data; name=\"a\" ")
    let leading := onePart (ascii " ;name=\"a\"")
    let before := ascii ";filename=\"f\";"
    outcome (bothStorages [] trailing) .fresh (onDisk [] trailing) (ascii "--B") =
        .ok ⟨[(ascii "a\"", ascii "x")], []⟩ ∧
      outcome (bothStorages [] trailing) .fresh (inMemory trailing) (ascii "--B") =
        .ok ⟨[(ascii "a", ascii "x")], []⟩ ∧
      outcome (bothStorages before leading) .fresh (onDisk before leading) (ascii "--B") =
        .ok ⟨[], [(ascii "a", ⟨ascii "f", [], ascii "x"⟩)]⟩ ∧
      outcome (bothStorages before leading) .fresh (inMemory leading) (ascii "--B") =
        .ok ⟨[(ascii "a", ascii "x")], []⟩ := by
  refine ⟨?_, ?_, ?_, ?_⟩ <;> decide +kernel

end Multipart

end FastcgiContainer
