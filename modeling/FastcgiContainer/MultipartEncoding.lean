import FastcgiContainer.MultipartStorage

/-! A client's encoding of a form, and that parsing it in memory gives the form
back. -/

namespace FastcgiContainer.Multipart

open Word (Bytes)
open StringUtils (NamedValue)
open Search (Occurs)
open FastcgiContainer.Parser (returnRN returnN emptyLineRNRN emptyLineNN minusPair)

structure Part where
  name : Bytes
  filename : Option Bytes
  type : Option Bytes
  content : Bytes
  deriving DecidableEq, Repr

namespace Part

def filenameParameter (part : Part) : Bytes :=
  match part.filename with
  | none => []
  | some filename => ascii "; filename=\"" ++ filename ++ [34]

def disposition (part : Part) : Bytes :=
  ascii "Content-Disposition: form-data; name=\"" ++ part.name ++ [34] ++ part.filenameParameter

def typeLine (part : Part) : Bytes :=
  match part.type with
  | none => []
  | some type => ascii "Content-Type: " ++ type ++ returnRN

def render (part : Part) : Bytes :=
  returnRN ++ part.disposition ++ returnRN ++ part.typeLine ++ returnRN ++ part.content ++ returnRN

structure Valid (boundary : Bytes) (part : Part) : Prop where
  named : part.name ≠ []
  name : ∀ symbol ∈ part.name, symbol ≠ 34 ∧ symbol ≠ 59 ∧ symbol ≠ 13 ∧ symbol ≠ 10
  filename : ∀ filename ∈ part.filename, filename ≠ [] ∧
    ∀ symbol ∈ filename, symbol ≠ 34 ∧ symbol ≠ 59 ∧ symbol ≠ 13 ∧ symbol ≠ 10
  type : ∀ type ∈ part.type, ∀ symbol ∈ type, symbol ≠ 59 ∧ symbol ≠ 13 ∧ symbol ≠ 10
  unmarked : ∀ index < part.render.length, ¬ Occurs (minusPair ++ boundary) part.render index

theorem valid_iff (boundary : Bytes) (part : Part) :
    (part.name ≠ [] ∧
      part.name.all (fun symbol => symbol != 34 && symbol != 59 && symbol != 13 && symbol != 10) = true ∧
      part.filename.all (fun filename => !filename.isEmpty &&
        filename.all (fun symbol => symbol != 34 && symbol != 59 && symbol != 13 && symbol != 10)) = true ∧
      part.type.all (fun type => type.all (fun symbol => symbol != 59 && symbol != 13 && symbol != 10)) = true ∧
      ∀ index < part.render.length, ¬ Occurs (minusPair ++ boundary) part.render index) ↔ part.Valid boundary := by
  constructor
  · rintro ⟨named, name, filename, type, unmarked⟩
    refine ⟨named, ?_, ?_, ?_, unmarked⟩
    · simpa [and_assoc] using name
    · simpa [Option.all_eq_true, and_assoc] using filename
    · simpa [Option.all_eq_true, and_assoc] using type
  · intro valid
    refine ⟨valid.named, ?_, ?_, ?_, valid.unmarked⟩
    · simpa [and_assoc] using valid.name
    · simpa [Option.all_eq_true, and_assoc] using valid.filename
    · simpa [Option.all_eq_true, and_assoc] using valid.type

instance (boundary : Bytes) (part : Part) : Decidable (part.Valid boundary) :=
  decidable_of_iff _ (valid_iff boundary part)

def asArg (part : Part) : Option NamedValue :=
  match part.filename with
  | none => some (part.name, part.content)
  | some _ => none

end Part

def encode (boundary : Bytes) (parts : List Part) : Bytes :=
  parts.flatMap (fun part => minusPair ++ boundary ++ part.render) ++
    minusPair ++ boundary ++ minusPair ++ returnRN

def Part.headers (part : Part) : Bytes :=
  part.disposition ++
    match part.type with
    | none => []
    | some type => returnRN ++ (ascii "Content-Type: " ++ type)

def Part.inner (part : Part) : Bytes := part.headers ++ (emptyLineRNRN ++ part.content)

theorem Part.render_eq (part : Part) : part.render = returnRN ++ part.inner ++ returnRN := by
  unfold Part.render Part.inner Part.headers Part.typeLine
  cases part.type <;> simp [returnRN, emptyLineRNRN]

theorem trim_parameter (first : UInt8) (text : Bytes) (word : isspace first = false) :
    Range.trim (32 :: first :: (text ++ [34])) = first :: (text ++ [34]) := by
  have front : (32 :: first :: (text ++ [34])).dropWhile isspace = first :: (text ++ [34]) := by
    rw [List.dropWhile_cons_of_pos (by decide), List.dropWhile_cons_of_neg (by simp [word])]
  rw [Range.trim, front, ← List.cons_append, List.rdropWhile_concat_neg _ _ _ (by decide)]

theorem trimn_quoted (text : Bytes) : Range.trimn (34 :: (text ++ [34])) 1 1 = text := by
  simp [Range.trimn]

/-- `name="..."`, and any other parameter with a quoted value. -/
theorem split_parameter (key text : Bytes) (plain : (61 : UInt8) ∉ key) :
    Range.split (key ++ 61 :: 34 :: (text ++ [34])) [61] = (true, key, 34 :: (text ++ [34])) :=
  Range.split_symbol key 61 _ plain

theorem split_front_length (front text : Bytes) (symbol : UInt8) (fresh : symbol ∉ front) :
    front.length ≤ (Range.split (front ++ text) [symbol]).2.1.length := by
  by_cases present : symbol ∈ text
  · obtain ⟨before, after, rfl, first⟩ := List.eq_append_cons_of_mem present
    rw [← List.append_assoc, Range.split_symbol (front ++ before) symbol after (by simp [fresh, first])]
    simp
  · rw [Range.split_missing symbol [] (front ++ text) (by simp [fresh, present])]
    simp

section Disposition

variable (part : Part) (boundary : Bytes) (valid : part.Valid boundary) (found : PartNames)

def nameParameter : Bytes := ascii "name=\"" ++ part.name ++ [34]

theorem parseParameter_name : parseParameter (nameParameter part) found =
    { found with name := part.name } := by
  have shape : nameParameter part = ascii "name" ++ 61 :: 34 :: (part.name ++ [34]) := by
    simp [nameParameter, ascii]
  simp only [parseParameter, shape, split_parameter (ascii "name") part.name (by decide), if_true,
    trimn_quoted]

theorem parseParameter_filename (filename : Bytes) :
    parseParameter (ascii "filename=\"" ++ filename ++ [34]) found =
      { found with filename := filename } := by
  have shape : ascii "filename=\"" ++ filename ++ [34] =
      ascii "filename" ++ 61 :: 34 :: (filename ++ [34]) := by
    simp [ascii]
  have other : ascii "filename" ≠ ascii "name" := by decide
  simp only [parseParameter, shape, split_parameter (ascii "filename") filename (by decide),
    if_neg other, if_true, trimn_quoted]

theorem parseParameter_disposition :
    parseParameter (ascii "Content-Disposition: form-data") found = found := by
  unfold parseParameter
  rw [Range.split_missing 61 [] _ (by decide)]
  rfl

theorem parseLine_nil (fuel : Nat) : parseLine fuel [] found = found := by
  cases fuel <;> rfl

theorem parseLine_step (fuel : Nat) (front back : Bytes) (absent : (59 : UInt8) ∉ front)
    (enough : 0 < fuel) :
    parseLine fuel (front ++ 59 :: back) found =
      parseLine (fuel - 1) (Range.trim back) (parseParameter front found) := by
  obtain ⟨fuel, rfl⟩ : ∃ rest, fuel = rest + 1 := ⟨fuel - 1, by omega⟩
  have visible : ¬ (front ++ 59 :: back).isEmpty = true := by simp
  simp only [parseLine, if_neg visible, Range.split_symbol front 59 back absent, Nat.add_sub_cancel]

theorem parseLine_last (fuel : Nat) (line : Bytes) (absent : (59 : UInt8) ∉ line)
    (filled : line ≠ []) (enough : 0 < fuel) :
    parseLine fuel line found = parseParameter line found := by
  obtain ⟨fuel, rfl⟩ : ∃ rest, fuel = rest + 1 := ⟨fuel - 1, by omega⟩
  have visible : ¬ line.isEmpty = true := by simpa using filled
  simp only [parseLine, if_neg visible, Range.split_missing 59 [] line absent]
  exact parseLine_nil _ _

include valid in
theorem nameParameter_plain : (59 : UInt8) ∉ nameParameter part := by
  intro member
  simp only [nameParameter, List.append_assoc, List.mem_append, List.mem_singleton] at member
  rcases member with lead | name | quote
  · exact absurd lead (by decide)
  · exact (valid.name 59 name).2.1 rfl
  · exact absurd quote (by decide)

include valid in
theorem parseLine_disposition :
    parseLine part.disposition.length part.disposition found =
      { found with name := part.name, filename := part.filename.getD found.filename } := by
  have plain := nameParameter_plain part boundary valid
  have shape : part.disposition = ascii "Content-Disposition: form-data" ++
      59 :: 32 :: (nameParameter part ++ part.filenameParameter) := by
    simp [Part.disposition, nameParameter, ascii]
  have long : 3 < part.disposition.length := by
    rw [shape]
    simp [ascii]
  generalize part.disposition.length = fuel at long
  rw [shape, parseLine_step found fuel _ _ (by decide) (by omega), parseParameter_disposition]
  cases given : part.filename with
  | none =>
      have none : part.filenameParameter = [] := by simp [Part.filenameParameter, given]
      have trimmed : Range.trim (32 :: nameParameter part) = nameParameter part :=
        trim_parameter 110 (ascii "ame=\"" ++ part.name) (by decide)
      rw [none, List.append_nil, trimmed, parseLine_last found _ _ plain
        (by simp [nameParameter]) (by omega), parseParameter_name]
      rfl
  | some filename =>
      have some : part.filenameParameter = 59 :: 32 :: (ascii "filename=\"" ++ filename ++ [34]) := by
        simp [Part.filenameParameter, given, ascii]
      have trimmed : Range.trim (32 :: (nameParameter part ++ part.filenameParameter)) =
          nameParameter part ++ part.filenameParameter := by
        have tail := trim_parameter 110 (ascii "ame=\"" ++ part.name ++ [34] ++
          (59 :: 32 :: (ascii "filename=\"" ++ filename))) (by decide)
        rw [some]
        simpa [nameParameter, ascii] using tail
      have lastTrimmed : Range.trim (32 :: (ascii "filename=\"" ++ filename ++ [34])) =
          ascii "filename=\"" ++ filename ++ [34] :=
        trim_parameter 102 (ascii "ilename=\"" ++ filename) (by decide)
      have lastPlain : (59 : UInt8) ∉ ascii "filename=\"" ++ filename ++ [34] := by
        intro member
        simp only [List.append_assoc, List.mem_append, List.mem_singleton] at member
        rcases member with lead | inside | quote
        · exact absurd lead (by decide)
        · exact ((valid.filename filename (by simp [given])).2 59 inside).2.1 rfl
        · exact absurd quote (by decide)
      rw [trimmed, some, parseLine_step found _ _ _ plain (by omega), parseParameter_name,
        lastTrimmed, parseLine_last _ _ _ lastPlain (by simp) (by omega), parseParameter_filename]
      rfl

theorem parseLine_type (type : Bytes) (plain : (59 : UInt8) ∉ type) :
    parseLine (ascii "Content-Type: " ++ type).length (ascii "Content-Type: " ++ type) found =
      found := by
  have absent : (59 : UInt8) ∉ ascii "Content-Type: " ++ type := by
    intro member
    rcases List.mem_append.mp member with lead | inside
    · exact absurd lead (by decide)
    · exact plain inside
  rw [parseLine_last found _ _ absent (by simp [ascii]) (by simp [ascii])]
  have long : 14 ≤ (Range.split (ascii "Content-Type: " ++ type) [61]).2.1.length :=
    split_front_length (ascii "Content-Type: ") type 61 (by decide)
  have differs : ∀ key : Bytes, key.length < 14 →
      (Range.split (ascii "Content-Type: " ++ type) [61]).2.1 ≠ key := by
    intro key short same
    rw [same] at long
    omega
  have notType : isTypeKey (Range.split (ascii "Content-Type: " ++ type) [61]).2.1 = false :=
    isTypeKey_long (by omega)
  unfold parseParameter
  dsimp only
  rw [if_neg (differs (ascii "name") (by decide)), if_neg (differs (ascii "filename") (by decide)),
    notType]
  rfl

include valid in
theorem disposition_plain (symbol : UInt8) (member : symbol ∈ part.disposition) :
    symbol ≠ 13 ∧ symbol ≠ 10 := by
  simp only [Part.disposition, List.append_assoc, List.mem_append, List.mem_singleton] at member
  rcases member with lead | name | quote | filename
  · have listed : ∀ other ∈ ascii "Content-Disposition: form-data; name=\"",
        other ≠ 13 ∧ other ≠ 10 := by decide +kernel
    exact listed symbol lead
  · exact (valid.name symbol name).2.2
  · subst quote
    decide
  · cases given : part.filename with
    | none => simp [Part.filenameParameter, given] at filename
    | some text =>
        simp only [Part.filenameParameter, given, List.append_assoc, List.mem_append,
          List.mem_singleton] at filename
        rcases filename with lead | inside | quote
        · have listed : ∀ other ∈ ascii "; filename=\"", other ≠ 13 ∧ other ≠ 10 := by decide +kernel
          exact listed symbol lead
        · exact ((valid.filename text (by simp [given])).2 symbol inside).2.2
        · subst quote
          decide

theorem typeText_plain (type : Bytes) (plain : ∀ symbol ∈ type, symbol ≠ 59 ∧ symbol ≠ 13 ∧ symbol ≠ 10)
    (symbol : UInt8) (member : symbol ∈ ascii "Content-Type: " ++ type) :
    symbol ≠ 13 ∧ symbol ≠ 10 := by
  rcases List.mem_append.mp member with lead | inside
  · have listed : ∀ other ∈ ascii "Content-Type: ", other ≠ 13 ∧ other ≠ 10 := by decide +kernel
    exact listed symbol lead
  · exact (plain symbol inside).2

theorem no_empty_line (line rest back : Bytes) (plain : ∀ symbol ∈ line, symbol ≠ 13 ∧ symbol ≠ 10)
    (restPlain : ∀ symbol ∈ rest, symbol ≠ 13 ∧ symbol ≠ 10) (filled : rest ≠ []) (index : Nat)
    (inside : index < (line ++ (returnRN ++ rest)).length) :
    ¬ Occurs emptyLineRNRN (line ++ (returnRN ++ rest) ++ back) index := by
  intro here
  have first := Search.occurs_symbol _ _ _ 0 here (by simp [emptyLineRNRN])
  have third := Search.occurs_symbol _ _ _ 2 here (by simp [emptyLineRNRN])
  have shape : line ++ (returnRN ++ rest) ++ back = line ++ 13 :: 10 :: (rest ++ back) := by
    simp [returnRN]
  have positive := List.length_pos_of_ne_nil filled
  rw [shape] at first third
  simp only [Nat.add_zero, emptyLineRNRN, List.getElem?_cons_zero, List.getElem?_cons_succ] at first third
  simp only [List.length_append, returnRN, List.length_cons, List.length_nil] at inside
  rcases lt_or_ge index line.length with before | after
  · rw [List.getElem?_append_left before] at first
    exact (plain 13 (List.mem_of_getElem? first)).1 rfl
  · rw [List.getElem?_append_right after] at first
    rw [List.getElem?_append_right (by omega)] at third
    rcases (by omega : index = line.length ∨ index = line.length + 1 ∨
      line.length + 2 ≤ index) with same | next | later
    · -- the two newlines would need the next line to be empty
      rw [same, Nat.add_sub_cancel_left, List.getElem?_cons_succ, List.getElem?_cons_succ,
        List.getElem?_append_left positive] at third
      exact (restPlain 13 (List.mem_of_getElem? third)).1 rfl
    · rw [next, Nat.add_sub_cancel_left] at first
      simp at first
    · obtain ⟨offset, rfl⟩ : ∃ offset, index = line.length + (offset + 2) :=
        ⟨index - line.length - 2, by omega⟩
      rw [Nat.add_sub_cancel_left, List.getElem?_cons_succ, List.getElem?_cons_succ,
        List.getElem?_append_left (by omega)] at first
      exact (restPlain 13 (List.mem_of_getElem? first)).1 rfl

include valid in
theorem splitPart_inner : splitPart part.inner = (part.headers, part.content) := by
  have plain := disposition_plain part boundary valid
  have cut : Range.split part.inner emptyLineRNRN = (true, part.headers, part.content) := by
    apply Range.split_first part.headers emptyLineRNRN part.content (by simp [emptyLineRNRN])
    cases given : part.type with
    | none =>
        have alone : part.headers = part.disposition := by simp [Part.headers, given]
        rw [alone]
        exact fun index inside => Search.not_occurs_front 13 [10, 13, 10] part.disposition _
          (fun member => (plain 13 member).1 rfl) index inside
    | some type =>
        have both : part.headers = part.disposition ++ (returnRN ++ (ascii "Content-Type: " ++ type)) := by
          simp [Part.headers, given]
        rw [both]
        exact fun index inside => no_empty_line part.disposition (ascii "Content-Type: " ++ type) _
          plain (typeText_plain type (valid.type type (by simp [given]))) (by simp [ascii]) index inside
  simp [splitPart, splitEither, cut]

end Disposition

section Lines

theorem splitLine_plain (line : Bytes) (plain : ∀ symbol ∈ line, symbol ≠ 13 ∧ symbol ≠ 10) :
    splitLine line = (line, []) := by
  have first := Range.split_missing 13 [10] line (fun member => (plain 13 member).1 rfl)
  have second := Range.split_missing 10 [] line (fun member => (plain 10 member).2 rfl)
  simp [splitLine, splitEither, returnRN, returnN, first, second]

theorem splitLine_two (line rest : Bytes) (plain : ∀ symbol ∈ line, symbol ≠ 13 ∧ symbol ≠ 10) :
    splitLine (line ++ (returnRN ++ rest)) = (line, rest) := by
  have first := Range.split_first line returnRN rest (by simp [returnRN])
    (fun index inside => Search.not_occurs_front 13 [10] line _
      (fun member => (plain 13 member).1 rfl) index inside)
  simp [splitLine, splitEither, first]

theorem headerLines_one (fuel pos : Nat) (line : Bytes) (filled : line ≠ [])
    (plain : ∀ symbol ∈ line, symbol ≠ 13 ∧ symbol ≠ 10) (enough : 0 < fuel) :
    headerLines fuel ⟨pos, line⟩ = [⟨pos, line⟩] := by
  obtain ⟨fuel, rfl⟩ : ∃ rest, fuel = rest + 1 := ⟨fuel - 1, by omega⟩
  have visible : ¬ line.isEmpty = true := by simpa using filled
  obtain ⟨length, long⟩ : ∃ rest, line.length = rest + 1 :=
    ⟨line.length - 1, by have := List.length_pos_of_ne_nil filled; omega⟩
  have folding : foldLine line line.length 0 0 false = (line.length, line.length) := by
    have last : foldLine line length line.length line.length true = (line.length, line.length) := by
      cases length <;> simp [foldLine]
    rw [long, foldLine]
    simp only [List.drop_zero, if_neg visible, splitLine_plain line plain, Bool.not_false,
      Bool.or_true, if_true, Nat.zero_add, List.length_nil, Nat.sub_zero, last]
    rw [long]
  simp only [headerLines, if_neg visible, folding, List.take_length, List.drop_length]
  cases fuel <;> simp [headerLines]

theorem headerLines_two (fuel pos : Nat) (line rest : Bytes) (filled : rest ≠ [])
    (plain : ∀ symbol ∈ line, symbol ≠ 13 ∧ symbol ≠ 10)
    (restPlain : ∀ symbol ∈ rest, symbol ≠ 13 ∧ symbol ≠ 10) (separate : folded rest = false)
    (enough : 1 < fuel) :
    (headerLines fuel ⟨pos, line ++ (returnRN ++ rest)⟩).map Piece.bytes = [line, rest] := by
  obtain ⟨fuel, rfl⟩ : ∃ rest, fuel = rest + 1 := ⟨fuel - 1, by omega⟩
  have visible : ¬ (line ++ (returnRN ++ rest)).isEmpty = true := by simp [returnRN]
  have width : returnRN.length = 2 := rfl
  have next : (line ++ (returnRN ++ rest)).length - rest.length = line.length + 2 := by
    simp only [List.length_append, width]
    omega
  have tail : (line ++ (returnRN ++ rest)).drop (line.length + 2) = rest := by
    rw [← List.drop_drop, List.drop_left, ← width, List.drop_left]
  have restVisible : ¬ rest.isEmpty = true := by simpa using filled
  have folding : foldLine (line ++ (returnRN ++ rest)) (line ++ (returnRN ++ rest)).length 0 0 false =
      (line.length, line.length + 2) := by
    obtain ⟨length, long⟩ : ∃ count, (line ++ (returnRN ++ rest)).length = count + 2 :=
      ⟨(line ++ rest).length, by simp [returnRN]; omega⟩
    rw [long, foldLine]
    simp only [List.drop_zero, if_neg visible, splitLine_two line rest plain, Bool.not_false,
      Bool.or_true, if_true, Nat.zero_add, next]
    rw [foldLine]
    simp only [tail, if_neg restVisible, splitLine_plain rest restPlain, separate, Bool.not_true,
      Bool.or_self, Bool.false_eq_true, if_false]
  simp only [headerLines, if_neg visible, folding, tail, List.take_left, List.map_cons]
  rw [headerLines_one fuel _ rest filled restPlain (by omega)]
  rfl

end Lines

theorem disposition_filled (part : Part) : part.disposition ≠ [] := by
  simp [Part.disposition, ascii]

/-- What a part adds to a form: an argument, or a file unless the field has one. -/
def Part.addTo (form : Form) (part : Part) : Form :=
  match part.filename with
  | none => { form with args := form.args ++ [(part.name, part.content)] }
  | some filename =>
      let file : FormFile := ⟨filename, [], part.content⟩
      { form with files := OrderedMap.placeEntry stringLess false part.name file form.files }

section Parts

variable (part : Part) (boundary : Bytes) (valid : part.Valid boundary)

include valid

theorem partNames_inner :
    partNames part.inner = ⟨part.name, part.filename.getD [], []⟩ := by
  have plain := disposition_plain part boundary valid
  have filled := disposition_filled part
  have positive := List.length_pos_of_ne_nil filled
  have read := parseLine_disposition part boundary valid ⟨[], [], []⟩
  simp only [partNames, partLines, splitPart_inner part boundary valid]
  cases given : part.type with
  | none =>
      have alone : part.headers = part.disposition := by simp [Part.headers, given]
      rw [alone, headerLines_one _ 0 part.disposition filled plain positive]
      simpa using read
  | some type =>
      have both : part.headers = part.disposition ++ (returnRN ++ (ascii "Content-Type: " ++ type)) := by
        simp [Part.headers, given]
      have typePlain := valid.type type (by simp [given])
      have separate : folded (ascii "Content-Type: " ++ type) = false := by
        simp [folded, Range.startsWith, ascii]
      rw [both, headerLines_two _ 0 part.disposition (ascii "Content-Type: " ++ type) (by simp [ascii])
        plain (typeText_plain type typePlain) separate (by simp [returnRN]; omega)]
      simp only [List.foldl_cons, List.foldl_nil, read]
      exact parseLine_type _ type (fun member => (typePlain 59 member).1 rfl)

theorem unfolded_inner : folded (splitLine (splitPart part.inner).1).1 = false := by
  have plain := disposition_plain part boundary valid
  have shape : folded part.disposition = false := by
    simp [folded, Range.startsWith, Part.disposition, ascii]
  rw [splitPart_inner part boundary valid]
  cases given : part.type with
  | none =>
      have alone : part.headers = part.disposition := by simp [Part.headers, given]
      simp only [alone, splitLine_plain part.disposition plain, shape]
  | some type =>
      have both : part.headers = part.disposition ++ (returnRN ++ (ascii "Content-Type: " ++ type)) := by
        simp [Part.headers, given]
      simp only [both, splitLine_two part.disposition _ plain, shape]

theorem parsePart_inner (form : Form) : parsePart form part.inner = Part.addTo form part := by
  have named : part.name.isEmpty = false := by simpa using valid.named
  simp only [parsePart, partNames_inner part boundary valid, splitPart_inner part boundary valid, named,
    Part.addTo]
  cases given : part.filename with
  | none => simp
  | some filename =>
      have filled := (valid.filename filename (by simp [given])).1
      simp [filled]

end Parts

theorem foldl_inner (boundary : Bytes) (list : List Part)
    (valid : ∀ part ∈ list, part.Valid boundary) (form : Form) :
    (list.map Part.inner).foldl parsePart form = list.foldl Part.addTo form := by
  induction list generalizing form with
  | nil => rfl
  | cons part rest ih =>
      simp only [List.map_cons, List.foldl_cons, parsePart_inner part boundary (valid part (by simp)),
        ih (fun other member => valid other (by simp [member]))]

def chain (mark : Bytes) : List Part → Bytes
  | [] => minusPair ++ returnRN
  | part :: rest => part.render ++ (mark ++ chain mark rest)

theorem encode_eq (boundary : Bytes) (list : List Part) :
    encode boundary list = (minusPair ++ boundary) ++ chain (minusPair ++ boundary) list := by
  induction list with
  | nil => simp [encode, chain]
  | cons part rest ih =>
      simp only [encode, List.flatMap_cons, chain, List.append_assoc] at ih ⊢
      rw [ih]

theorem cutPart_render (pos : Nat) (part : Part) :
    cutPart true ⟨pos, part.render⟩ = some ⟨pos + 2, part.inner⟩ := by
  have shape := part.render_eq
  have ends : Range.endsWith (returnRN ++ part.inner ++ returnRN) returnRN = true := by
    simp [Range.endsWith, returnRN]
  have front : Range.trimn (returnRN ++ part.inner ++ returnRN) 0 2 = returnRN ++ part.inner := by
    simp [Range.trimn, returnRN]
  have starts : Range.startsWith (returnRN ++ part.inner) returnRN = true := by
    simp [Range.startsWith, returnRN]
  have back : Range.trimn (returnRN ++ part.inner) 2 0 = part.inner := by
    simp [Range.trimn, returnRN]
  have visible : ¬ (returnRN ++ part.inner ++ returnRN).isEmpty = true := by simp [returnRN]
  simp only [cutPart, shape, visible, stripReturns, ends, if_true, Option.bind_some, front, starts, back]
  simp

section Chain

variable (boundary : Bytes) (single : ∀ symbol ∈ boundary, symbol ≠ 13 ∧ symbol ≠ 10)

include single

theorem mark_absent (part : Part) (valid : part.Valid boundary) (back : Bytes) (index : Nat)
    (inside : index < part.render.length) :
    ¬ Occurs (minusPair ++ boundary) (part.render ++ back) index := by
  intro here
  rcases Nat.lt_or_ge part.render.length (index + (minusPair ++ boundary).length) with straddles | within
  · -- the last byte of the part is a newline
    have shape := part.render_eq
    have last : part.render[part.render.length - 1]? = some 10 := by
      rw [shape]
      simp [returnRN]
    have shown := Search.occurs_symbol _ _ _ (part.render.length - 1 - index) here (by omega)
    rw [Nat.add_sub_cancel' (by omega), List.getElem?_append_left (by omega), last] at shown
    rcases List.mem_append.mp (List.mem_of_getElem? shown.symm) with lead | member
    · exact absurd lead (by decide)
    · exact (single 10 member).2 rfl
  · have cut := (Search.occurs_take (minusPair ++ boundary) (part.render ++ back) part.render.length
      index within).mpr here
    rw [List.take_left] at cut
    exact valid.unmarked index inside cut

theorem parts_step (fuel pos : Nat) (part : Part) (valid : part.Valid boundary) (tail : Bytes) :
    parts (minusPair ++ boundary) (fuel + 1) ⟨pos, part.render ++ (minusPair ++ boundary ++ tail)⟩ =
      let rest :=
        if Range.startsWith tail minusPair then ([], true)
        else parts (minusPair ++ boundary) fuel
          ⟨pos + part.render.length + (minusPair ++ boundary).length, tail⟩
      (⟨pos + 2, part.inner⟩ :: rest.1, rest.2) := by
  have cut := Range.split_first part.render (minusPair ++ boundary) tail (by simp [minusPair, ascii])
    (mark_absent boundary single part valid _)
  have visible : ¬ (part.render ++ (minusPair ++ boundary ++ tail)).isEmpty = true := by
    simp [minusPair, ascii]
  have filled : ¬ part.inner.isEmpty = true := by
    simp [Part.inner, emptyLineRNRN]
  rw [parts]
  simp only [if_neg visible, cut, cutPart_render, if_neg filled]

theorem parts_chain (fuel pos : Nat) (part : Part) (rest : List Part)
    (valid : ∀ other ∈ part :: rest, other.Valid boundary)
    (enough : (chain (minusPair ++ boundary) (part :: rest)).length ≤ fuel) :
    (parts (minusPair ++ boundary) fuel ⟨pos, chain (minusPair ++ boundary) (part :: rest)⟩).1.map
        Piece.bytes = (part :: rest).map Part.inner ∧
      (parts (minusPair ++ boundary) fuel
        ⟨pos, chain (minusPair ++ boundary) (part :: rest)⟩).2 = true := by
  induction rest generalizing fuel pos part with
  | nil =>
      have last : Range.startsWith (chain (minusPair ++ boundary) []) minusPair = true := by
        simp [chain, Range.startsWith]
      obtain ⟨fuel, rfl⟩ : ∃ count, fuel = count + 1 := by
        refine ⟨fuel - 1, ?_⟩
        simp only [chain, List.length_append, minusPair, ascii] at enough
        simp at enough
        omega
      rw [chain, parts_step boundary single fuel pos part (valid part (by simp)), last]
      exact ⟨rfl, rfl⟩
  | cons other rest ih =>
      have more : ¬ Range.startsWith (chain (minusPair ++ boundary) (other :: rest)) minusPair = true := by
        simp [chain, Range.startsWith, Part.render, returnRN, minusPair, ascii]
      have shape : chain (minusPair ++ boundary) (part :: other :: rest) = part.render ++
          ((minusPair ++ boundary) ++ chain (minusPair ++ boundary) (other :: rest)) := rfl
      have length := congrArg List.length shape
      simp only [List.length_append] at length
      have positive : 0 < minusPair.length := by decide
      obtain ⟨fuel, rfl⟩ : ∃ count, fuel = count + 1 := ⟨fuel - 1, by omega⟩
      rw [shape, parts_step boundary single fuel pos part (valid part (by simp)), if_neg more]
      obtain ⟨bytes, complete⟩ := ih fuel
        (pos + part.render.length + (minusPair ++ boundary).length) other
        (fun peer member => valid peer (by simp [member])) (by omega)
      exact ⟨by rw [List.map_cons, bytes]; rfl, complete⟩

theorem parts_encode (pos : Nat) (list : List Part) (valid : ∀ part ∈ list, part.Valid boundary) :
    (parts (minusPair ++ boundary) (encode boundary list).length ⟨pos, encode boundary list⟩).1.map
        Piece.bytes = list.map Part.inner ∧
      (parts (minusPair ++ boundary) (encode boundary list).length
        ⟨pos, encode boundary list⟩).2 = true := by
  have marked : minusPair ++ boundary ≠ [] := by simp [minusPair, ascii]
  have cut := Range.split_first [] (minusPair ++ boundary) (chain (minusPair ++ boundary) list) marked
    (by simp)
  have positive : 0 < minusPair.length := by decide
  rw [List.nil_append, ← encode_eq] at cut
  have length := congrArg List.length (encode_eq boundary list)
  simp only [List.length_append] at length
  obtain ⟨fuel, long⟩ : ∃ count, (encode boundary list).length = count + 1 :=
    ⟨(encode boundary list).length - 1, by omega⟩
  have visible : ¬ (encode boundary list).isEmpty = true := by
    rw [List.isEmpty_iff]
    intro none
    rw [none] at long
    simp at long
  rw [long, parts]
  simp only [if_neg visible, cut, cutPart, List.isEmpty_nil, Bool.not_true, Bool.and_false,
    Bool.false_eq_true, if_false, if_true, List.length_nil, Nat.add_zero]
  cases list with
  | nil =>
      have last : Range.startsWith (chain (minusPair ++ boundary) []) minusPair = true := by
        simp [chain, Range.startsWith]
      simp [last]
  | cons part rest =>
      have more : ¬ Range.startsWith (chain (minusPair ++ boundary) (part :: rest)) minusPair = true := by
        simp [chain, Range.startsWith, Part.render, returnRN, minusPair, ascii]
      rw [if_neg more]
      exact parts_chain boundary single fuel _ part rest valid (by omega)

theorem parse_encode (list : List Part) (valid : ∀ part ∈ list, part.Valid boundary) (form : Form) :
    parse (minusPair ++ boundary) (encode boundary list) form = .ok (list.foldl Part.addTo form) := by
  obtain ⟨bytes, complete⟩ := parts_encode boundary single 0 list valid
  simp only [parse, complete, if_true, bytes, foldl_inner boundary list valid]

end Chain

theorem foldl_args (list : List Part) (form : Form) :
    (list.foldl Part.addTo form).args = form.args ++ list.filterMap Part.asArg := by
  induction list generalizing form with
  | nil => simp
  | cons part rest ih =>
      rw [List.foldl_cons, ih]
      cases given : part.filename with
      | none => simp [Part.addTo, Part.asArg, given]
      | some filename => simp [Part.addTo, Part.asArg, given]

def firstFile (list : List Part) (field : Bytes) : Option Part :=
  list.find? (fun part => part.name == field && part.filename.isSome)

def Part.asFile (part : Part) : FormFile := ⟨part.filename.getD [], [], part.content⟩

theorem foldl_files (list : List Part) (form : Form)
    (sorted : form.files.Pairwise (fun left right => stringLess left.1 right.1 = true))
    (field : Bytes) :
    OrderedMap.lookup stringLess (list.foldl Part.addTo form).files field =
      (OrderedMap.lookup stringLess form.files field).or ((firstFile list field).map Part.asFile) := by
  induction list generalizing form with
  | nil => simp [firstFile]
  | cons part rest ih =>
      rw [List.foldl_cons]
      cases given : part.filename with
      | none =>
          have kept : (Part.addTo form part).files = form.files := by simp [Part.addTo, given]
          rw [ih (Part.addTo form part) (by rw [kept]; exact sorted), kept]
          simp [firstFile, given]
      | some filename =>
          have placed : (Part.addTo form part).files =
              OrderedMap.placeEntry stringLess false part.name part.asFile form.files := by
            simp [Part.addTo, Part.asFile, given]
          rw [ih (Part.addTo form part) (by
            rw [placed]
            exact OrderedMap.placeEntry_sorted _ _ _ _ sorted), placed,
            OrderedMap.lookup_placeEntry stringLess_exact _ _ _ sorted]
          by_cases same : part.name = field
          · subst same
            have self : OrderedMap.equivalent stringLess part.name part.name = true := by
              have irrefl : stringLess part.name part.name = false := KeyOrder.irrefl part.name
              simp [OrderedMap.equivalent, irrefl]
            rw [if_pos self, Option.or_assoc]
            simp [firstFile, given]
          · have differ : ¬ OrderedMap.equivalent stringLess part.name field = true :=
              fun twin => same (stringLess_exact _ _ twin)
            rw [if_neg differ]
            simp [firstFile, same]

theorem lookup_read (heap : Heap) (entries : List (Bytes × File)) (files : List (Bytes × FormFile))
    (listed : entries.mapM (readFile heap) = .ok files) (field : Bytes) :
    match OrderedMap.lookup stringLess files field with
    | none => OrderedMap.lookup stringLess entries field = none
    | some entry => ∃ file, OrderedMap.lookup stringLess entries field = some file ∧
        file.name = entry.name ∧ file.type = entry.type ∧
        file.data.toBytes heap = .ok entry.content := by
  induction entries generalizing files with
  | nil =>
      obtain rfl : files = [] := by
        cases listed
        rfl
      rfl
  | cons head rest ih =>
      obtain ⟨first, others, rfl, firstDone, othersDone⟩ := mapM_cons_ok _ _ _ _ listed
      obtain ⟨content, read, same⟩ := bind_eq_ok _ _ _ firstDone
      cases same
      by_cases here : OrderedMap.equivalent stringLess head.1 field = true
      · simp only [OrderedMap.lookup, List.find?_cons, here, Option.map_some]
        exact ⟨head.2, rfl, rfl, rfl, read⟩
      · have later := ih others othersDone
        simpa only [OrderedMap.lookup, List.find?_cons, here] using later

/-- A form of any parts, encoded with a boundary none of them contains and parsed
in memory, comes back: its arguments in their order, and for every field with files
the first of them. -/
theorem encoded_form_decodes (boundary : Bytes)
    (single : ∀ symbol ∈ boundary, symbol ≠ 13 ∧ symbol ≠ 10) (list : List Part)
    (valid : ∀ part ∈ list, part.Valid boundary) (heap : Heap) (ref : Nat) (content : StringBuffer)
    (body : DataBuffer) (shown : body.Shows heap ref (.string content))
    (encoded : body.text (.string content) = encode boundary list) (request : Request)
    (noFiles : request.files = .empty) :
    ∃ next, Parser.parseMultipart request heap body (minusPair ++ boundary) = .ok next ∧
      next.args = request.args ++ list.filterMap Part.asArg ∧
      ∀ field, match firstFile list field with
        | none => next.files.find? field = none
        | some part => ∃ file, next.files.find? field = some file ∧
            some file.name = part.filename ∧ file.data.toBytes heap = .ok part.content := by
  have marked : minusPair ++ boundary ≠ [] := by simp [minusPair, ascii]
  have reads : readForm heap request = .ok ⟨request.args, []⟩ := by
    simp only [readForm, noFiles, OrderedMap.empty_entries, List.mapM_nil]
    rfl
  have clean : Clean (.string content) (minusPair ++ boundary)
      ⟨body.beginIndex, body.text (.string content)⟩ := by
    intro part member
    rw [encoded] at member
    have bytes := (parts_encode boundary single body.beginIndex list valid).1
    obtain ⟨source, inList, same⟩ := List.mem_map.mp
      (by rw [← bytes]; exact List.mem_map_of_mem member)
    refine ⟨?_, fun _ _ => trivial⟩
    rw [← same]
    exact unfolded_inner source boundary (valid source inList)
  have parsed := outcome_eq marked shown clean reads
  rw [encoded, parse_encode boundary single list valid] at parsed
  obtain ⟨next, done, nextReads⟩ := bind_eq_ok _ _ _ parsed
  obtain ⟨args, files⟩ := readForm_ok nextReads
  refine ⟨next, done, ?_, ?_⟩
  · rw [args, foldl_args]
  · intro field
    have found := lookup_read heap next.files.entries _ files field
    rw [foldl_files list ⟨request.args, []⟩ List.Pairwise.nil field] at found
    cases first : firstFile list field with
    | none =>
        simp only [first, OrderedMap.lookup, List.find?_nil, Option.map_none, Option.none_or] at found
        exact found
    | some part =>
        simp only [first, OrderedMap.lookup, List.find?_nil, Option.map_none, Option.none_or,
          Option.map_some] at found
        obtain ⟨file, held, name, _, read⟩ := found
        have upload := List.find?_some first
        simp only [Bool.and_eq_true] at upload
        refine ⟨file, held, ?_, read⟩
        rw [name, Part.asFile]
        obtain ⟨filename, given⟩ := Option.isSome_iff_exists.mp upload.2
        simp [given]

def sampleParts : List Part :=
  [⟨ascii "q", none, none, ascii "\r\n\r\nname=x"⟩,
    ⟨ascii "f", some (ascii "a b.txt"), some (ascii "text/plain"), ascii "one\r\n"⟩,
    ⟨ascii "f", some (ascii "c.txt"), none, []⟩]

theorem encoded_form_decodes_sample :
    let body := encode (ascii "B") sampleParts
    ∃ next, Parser.parseMultipart .fresh [.string ⟨body⟩] ⟨some 0, 0, body.length⟩ (ascii "--B") =
        .ok next ∧
      next.args = [(ascii "q", ascii "\r\n\r\nname=x")] ∧
      ∃ file, next.files.find? (ascii "f") = some file ∧ file.name = ascii "a b.txt" ∧
        file.data.toBytes [.string ⟨body⟩] = .ok (ascii "one\r\n") := by
  intro body
  have shown : (⟨some 0, 0, body.length⟩ : DataBuffer).Shows [.string ⟨body⟩] 0 (.string ⟨body⟩) :=
    ⟨rfl, rfl, (by decide +kernel : body.length < Word.base), by simp, by simp [DataBufferImpl.bytes]⟩
  obtain ⟨next, done, args, files⟩ := encoded_form_decodes (ascii "B") (by decide +kernel) sampleParts
    (by decide +kernel) [.string ⟨body⟩] 0 ⟨body⟩ ⟨some 0, 0, body.length⟩ shown
    (by simp [DataBuffer.text, DataBufferImpl.bytes, body]) .fresh rfl
  refine ⟨next, done, args, ?_⟩
  obtain ⟨file, held, name, read⟩ := files (ascii "f")
  exact ⟨file, held, Option.some.inj name, read⟩

end FastcgiContainer.Multipart
