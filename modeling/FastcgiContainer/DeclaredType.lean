import FastcgiContainer.QuotedParameters

/-! The type of an uploaded file: `Parser::parseLine` compares what stands before an
equals sign with `CONTENT_TYPE`, which no `Content-Type` line has there, so that the
type comes from the parameters of that name alone. -/

namespace FastcgiContainer.Multipart

open Word (Bytes)
open DataBuffer (Denotes trimmed)
open FastcgiContainer.Parser (returnRN emptyLineRNRN)

def typeParameters (storage : DataBufferImpl) : Nat → Piece → List Bytes
  | 0, _ => []
  | fuel + 1, line =>
      if line.bytes.isEmpty then []
      else
        let (_, head, tail) := Range.split line.bytes [59]
        let (_, key, value) := Range.split head [61]
        let pos := line.pos + head.length + 1
        (if isTypeKey key then [trimmed storage (line.pos + key.length + 1) value] else []) ++
          typeParameters storage fuel ⟨pos + Range.lead tail, trimmed storage pos tail⟩

/-- The type that the parameters of header lines declare, the last one of them. -/
def declaredType (storage : DataBufferImpl) (lines : List Piece) : Bytes :=
  (lines.flatMap (fun line => typeParameters storage line.bytes.length line)).getLast?.getD []

structure TypeLine (line value : Bytes) : Prop where
  shape : ∃ header, line = header ++ 58 :: value ∧ header.map tolower = ascii "content-type"
  plain : ∀ symbol ∈ value, symbol ≠ 59 ∧ symbol ≠ 13 ∧ symbol ≠ 10

section Types

variable (storage : DataBufferImpl)

theorem parameterOn_type (head : Piece) (found : PartNames) :
    (parameterOn storage head found).type =
      if isTypeKey (Range.split head.bytes [61]).2.1 then
        trimmed storage (head.pos + (Range.split head.bytes [61]).2.1.length + 1)
          (Range.split head.bytes [61]).2.2
      else found.type := by
  have nameKey : isTypeKey (ascii "name") = false := by decide
  have filenameKey : isTypeKey (ascii "filename") = false := by decide
  have other : ascii "filename" ≠ ascii "name" := by decide
  unfold parameterOn
  dsimp only
  by_cases isName : (Range.split head.bytes [61]).2.1 = ascii "name"
  · simp [isName, nameKey]
  · by_cases isFilename : (Range.split head.bytes [61]).2.1 = ascii "filename"
    · simp [isFilename, filenameKey, other]
    · rw [if_neg isName, if_neg isFilename]
      split <;> rfl

theorem lineOn_type (fuel : Nat) (line : Piece) (found : PartNames) :
    (lineOn storage fuel line found).type =
      (typeParameters storage fuel line).getLast?.getD found.type := by
  induction fuel generalizing line found with
  | zero => rfl
  | succ fuel ih =>
      unfold lineOn typeParameters
      split
      · rfl
      · dsimp only
        rw [ih, parameterOn_type, List.getLast?_append]
        cases last : (typeParameters storage fuel _).getLast? with
        | some value => rfl
        | none =>
            simp only [Option.none_or, Option.getD_none]
            split <;> rfl

theorem foldl_type (lines : List Piece) (found : PartNames) :
    (lines.foldl (fun found line => lineOn storage line.bytes.length line found) found).type =
      (lines.flatMap (fun line => typeParameters storage line.bytes.length line)).getLast?.getD
        found.type := by
  induction lines generalizing found with
  | nil => rfl
  | cons line rest ih =>
      rw [List.foldl_cons, ih, lineOn_type, List.flatMap_cons, List.getLast?_append]
      cases (rest.flatMap (fun line => typeParameters storage line.bytes.length line)).getLast? <;> rfl

theorem namesOn_type (part : Piece) :
    (namesOn storage part).type = declaredType storage (partLines part) :=
  foldl_type storage (partLines part) ⟨[], [], []⟩

theorem typeLine_parameters (fuel : Nat) {line : Piece} {value : Bytes} (typed : TypeLine line.bytes value) :
    typeParameters storage fuel line = [] := by
  obtain ⟨⟨header, shape, lower⟩, plain⟩ := typed
  have letters : ∀ symbol ∈ header, symbol ≠ 59 ∧ symbol ≠ 61 := by
    intro symbol member
    have listed := List.mem_map_of_mem (f := tolower) member
    rw [lower] at listed
    constructor
    · rintro rfl
      revert listed
      decide
    · rintro rfl
      revert listed
      decide
  have absent : (59 : UInt8) ∉ line.bytes := by
    have outside : (59 : UInt8) ∉ header := fun member => (letters 59 member).1 rfl
    have inside : (59 : UInt8) ∉ value := fun member => (plain 59 member).1 rfl
    simp [shape, outside, inside]
  have long : 13 ≤ (Range.split line.bytes [61]).2.1.length := by
    have outside : (61 : UInt8) ∉ header := fun member => (letters 61 member).2 rfl
    have width : header.length = 12 := by
      have lengths := congrArg List.length lower
      rwa [List.length_map] at lengths
    have front := split_front_length (header ++ [58]) value 61 (by simp [outside])
    rw [List.append_assoc, List.singleton_append, ← shape, List.length_append, width] at front
    exact front
  have notType := isTypeKey_long long
  cases fuel with
  | zero => rfl
  | succ fuel =>
      unfold typeParameters
      rw [Range.split_missing 59 [] line.bytes absent]
      simp only [notType, DataBuffer.trimmed_nil]
      cases fuel <;> simp [typeParameters]

end Types

/-- The type of a file that is recorded is the one of its `Content-Type` line if and
only if the parameters of the other header lines declare the same one. -/
theorem recorded_type_iff (request : Request) (heap : Heap) (part : DataBuffer) (ref : Nat)
    (storage : DataBufferImpl) (shown : part.Shows heap ref storage) (value : Bytes)
    (before after : List Piece) (line : Piece)
    (unfolded : folded (splitLine (splitPart (part.text storage)).1).1 = false)
    (lines : partLines ⟨part.beginIndex, part.text storage⟩ = before ++ line :: after)
    (typed : TypeLine line.bytes value)
    (named : (namesOn storage ⟨part.beginIndex, part.text storage⟩).name ≠ [])
    (uploaded : (namesOn storage ⟨part.beginIndex, part.text storage⟩).filename ≠ [])
    (free : request.files.find? (namesOn storage ⟨part.beginIndex, part.text storage⟩).name = none) :
    (∃ next file, Parser.parsePart request heap part = .ok next ∧
      next.files.find? (namesOn storage ⟨part.beginIndex, part.text storage⟩).name = some file ∧
      file.type = Range.trim value) ↔ declaredType storage (before ++ after) = Range.trim value := by
  obtain ⟨data, _, parsed⟩ := @parsePart_on heap ref storage part ⟨part.beginIndex, part.text storage⟩
    shown.denotes unfolded request
  have type := namesOn_type storage ⟨part.beginIndex, part.text storage⟩
  have silent : declaredType storage (before ++ line :: after) = declaredType storage (before ++ after) := by
    simp only [declaredType, List.flatMap_append, List.flatMap_cons, typeLine_parameters storage _ typed,
      List.nil_append]
  rw [lines, silent] at type
  generalize namesOn storage ⟨part.beginIndex, part.text storage⟩ = names at *
  rw [if_neg named, dif_neg uploaded] at parsed
  have found : (request.files.insert names.name ⟨names.filename, names.type, data, uploaded⟩).find?
      names.name = some ⟨names.filename, names.type, data, uploaded⟩ := by
    exact find?_insert_new request.files names.name free _
  constructor
  · rintro ⟨next, file, done, here, same⟩
    obtain rfl := Except.ok.inj (done.symm.trans parsed)
    rw [found] at here
    rw [← type, ← same, ← Option.some.inj here]
  · intro same
    exact ⟨_, _, parsed, found, by rw [← same, type]⟩

def typedPart (disposition : Bytes) : Bytes :=
  disposition ++ (returnRN ++ (ascii "Content-Type: text/plain" ++ (emptyLineRNRN ++ ascii "x")))

def parameterLine : Bytes := dispositionLine (ascii "a") (ascii "f") ++ ascii "; content_type=text/plain"

theorem recorded_type_parameter : ∃ next file, parsedPart (typedPart parameterLine) = .ok next ∧
    next.files.find? (ascii "a") = some file ∧ file.type = ascii "text/plain" := by
  let part := typedPart parameterLine
  have fits : part.length < Word.base := by decide +kernel
  have recorded := (recorded_type_iff .fresh [.string ⟨part⟩] ⟨some 0, 0, part.length⟩ 0 (.string ⟨part⟩)
    ⟨rfl, rfl, fits, Nat.zero_le _, le_refl _⟩ (ascii " text/plain") [⟨0, parameterLine⟩] []
    ⟨parameterLine.length + 2, ascii "Content-Type: text/plain"⟩ (by decide +kernel) (by decide +kernel)
    ⟨⟨ascii "Content-Type", by decide +kernel, by decide +kernel⟩, by decide +kernel⟩ (by decide +kernel)
    (by decide +kernel) rfl).mpr (by decide +kernel)
  have name : (namesOn (.string ⟨part⟩) ⟨0, (⟨some 0, 0, part.length⟩ : DataBuffer).text (.string ⟨part⟩)⟩).name =
      ascii "a" := by decide +kernel
  have type : Range.trim (ascii " text/plain") = ascii "text/plain" := by decide +kernel
  rw [name, type] at recorded
  exact recorded

/-- What a browser sends: the file is recorded without a type. -/
theorem recorded_type_missing :
    (parsedPart (typedPart (dispositionLine (ascii "a") (ascii "f")))).toOption.map
        (fun next => next.files.entries.map (fun entry => (entry.1, entry.2.name, entry.2.type))) =
      some [(ascii "a", ascii "f", [])] ∧ Range.trim (ascii " text/plain") ≠ [] := by
  decide +kernel

end FastcgiContainer.Multipart
