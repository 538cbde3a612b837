import FastcgiContainer.MultipartEncoding

/-! The quoted parameters of a `Content-Disposition` line: `Parser::parseLine` cuts the
line at every semicolon before it looks at a parameter, and a storage that trims the end
of the line may take the closing quote away. -/

namespace FastcgiContainer

open Word (Bytes)

namespace DataBuffer

/-- A trim of a storage stops before the symbol that ends at an index, if that symbol
is none of white space. A file storage asks this of the position of the symbol. -/
def EndsSolid : DataBufferImpl → Nat → Prop
  | .string _, _ => True
  | .file buffer, last => isspaceInt buffer.wide (toInt (last - 1)) = false

instance : (storage : DataBufferImpl) → (last : Nat) → Decidable (EndsSolid storage last)
  | .string _, _ => isTrue trivial
  | .file _, _ => inferInstanceAs (Decidable (_ = _))

variable {storage : DataBufferImpl} {pos : Nat} {text : Bytes}

theorem trimmed_solid (filled : text.dropWhile isspace ≠ [])
    (last : ∀ symbol ∈ text.getLast?, isspace symbol = false)
    (solid : EndsSolid storage (pos + text.length)) :
    trimmed storage pos text = text.dropWhile isspace := by
  cases storage with
  | string buffer =>
      rw [trimmed, Range.trim, List.rdropWhile_eq_self_iff]
      intro _
      have ends : text.getLast? = some ((text.dropWhile isspace).getLast filled) := by
        have parts := @List.takeWhile_append_dropWhile _ isspace text
        rw [← List.getLast?_eq_getLast_of_ne_nil filled]
        conv => lhs; rw [← parts]
        exact List.getLast?_append_of_ne_nil _ filled
      simp [last _ ends]
  | file buffer =>
      have positive := List.length_pos_of_ne_nil filled
      have shorter := List.length_dropWhile_le isspace text
      obtain ⟨count, width⟩ := Nat.exists_eq_succ_of_ne_zero positive.ne'
      simp only [EndsSolid] at solid
      rw [trimmed, width, FileBuffer.trimBack, if_neg (by rw [solid]; simp)]
      apply List.take_of_length_le
      unfold Range.lead
      omega

theorem trimmed_short (filled : text.dropWhile isspace ≠ [])
    (loose : ¬ EndsSolid storage (pos + text.length)) :
    (trimmed storage pos text).length < (text.dropWhile isspace).length := by
  cases storage with
  | string buffer => exact absurd trivial loose
  | file buffer =>
      have positive := List.length_pos_of_ne_nil filled
      have shorter := List.length_dropWhile_le isspace text
      obtain ⟨count, width⟩ := Nat.exists_eq_succ_of_ne_zero positive.ne'
      simp only [EndsSolid, Bool.not_eq_false] at loose
      have bounds := FileBuffer.trimBack_bounds buffer.wide count (pos + text.length - 1)
      rw [trimmed, width, FileBuffer.trimBack, if_pos loose, List.length_take, width]
      unfold Range.lead
      omega

end DataBuffer

namespace Multipart

open DataBuffer (Shows Denotes trimmed EndsSolid)
open FastcgiContainer.Parser (returnRN returnN)

section Line

variable (storage : DataBufferImpl) (found : PartNames)

theorem lineOn_nil (fuel pos : Nat) : lineOn storage fuel ⟨pos, []⟩ found = found := by
  cases fuel <;> rfl

theorem lineOn_step (fuel pos : Nat) (front back : Bytes) (absent : (59 : UInt8) ∉ front)
    (enough : 0 < fuel) :
    lineOn storage fuel ⟨pos, front ++ 59 :: back⟩ found =
      lineOn storage (fuel - 1) ⟨pos + front.length + 1 + Range.lead back,
          trimmed storage (pos + front.length + 1) back⟩
        (parameterOn storage ⟨pos, front⟩ found) := by
  obtain ⟨fuel, rfl⟩ := Nat.exists_eq_succ_of_ne_zero enough.ne'
  have visible : ¬ (front ++ 59 :: back).isEmpty = true := by simp
  simp only [lineOn, if_neg visible, Range.split_symbol front 59 back absent, Nat.succ_sub_one]

theorem lineOn_last (fuel pos : Nat) (line : Bytes) (absent : (59 : UInt8) ∉ line)
    (filled : line ≠ []) (enough : 0 < fuel) :
    lineOn storage fuel ⟨pos, line⟩ found = parameterOn storage ⟨pos, line⟩ found := by
  obtain ⟨fuel, rfl⟩ := Nat.exists_eq_succ_of_ne_zero enough.ne'
  have visible : ¬ line.isEmpty = true := by simpa using filled
  simp only [lineOn, if_neg visible, Range.split_missing 59 [] line absent, DataBuffer.trimmed_nil]
  exact lineOn_nil _ _ _ _

theorem mem_trimn {symbol : UInt8} {text : Bytes} {b e : Nat}
    (member : symbol ∈ Range.trimn text b e) : symbol ∈ text :=
  List.mem_of_mem_drop (List.mem_of_mem_take member)

theorem split_parts {text : Bytes} (symbol : UInt8) :
    symbol ∉ (Range.split text [symbol]).2.1 ∧
      ∀ other, other ∈ (Range.split text [symbol]).2.1 ∨ other ∈ (Range.split text [symbol]).2.2 →
        other ∈ text := by
  by_cases present : symbol ∈ text
  · obtain ⟨front, back, rfl, fresh⟩ := List.eq_append_cons_of_mem present
    rw [Range.split_symbol front symbol back fresh]
    refine ⟨fresh, ?_⟩
    rintro other (first | second)
    · exact List.mem_append_left _ first
    · exact List.mem_append_right _ (List.mem_cons_of_mem _ second)
  · rw [Range.split_missing symbol [] text present]
    refine ⟨present, ?_⟩
    rintro other (first | second)
    · exact first
    · cases second

theorem lineOn_semicolon (fuel : Nat) (line : Piece) (name : (59 : UInt8) ∉ found.name)
    (filename : (59 : UInt8) ∉ found.filename) :
    (59 : UInt8) ∉ (lineOn storage fuel line found).name ∧
      (59 : UInt8) ∉ (lineOn storage fuel line found).filename := by
  induction fuel generalizing line found with
  | zero => exact ⟨name, filename⟩
  | succ fuel ih =>
      unfold lineOn
      split
      · exact ⟨name, filename⟩
      · have fresh := (@split_parts line.bytes 59).1
        have plain : (59 : UInt8) ∉ Range.trimn (Range.split (Range.split line.bytes [59]).2.1 [61]).2.2 1 1 :=
          fun member => fresh ((@split_parts _ 61).2 59 (Or.inr (mem_trimn member)))
        apply ih
        · unfold parameterOn
          dsimp only
          split_ifs <;> assumption
        · unfold parameterOn
          dsimp only
          split_ifs <;> assumption

theorem parameterOn_filename (head : Piece) :
    (parameterOn storage head found).filename.length ≤
      max found.filename.length (head.bytes.length - 11) := by
  have room := Range.split_inside head.bytes [61] (by simp)
  unfold parameterOn
  dsimp only
  split_ifs with isName isFilename isType
  · exact le_max_left _ _
  · have width : (ascii "filename").length = 8 := rfl
    rw [isFilename, width, List.length_singleton] at room
    have short : (Range.trimn (Range.split head.bytes [61]).2.2 1 1).length ≤ head.bytes.length - 11 := by
      simp only [Range.trimn, List.length_take, List.length_drop]
      rcases room.2 with none | total
      · simp [none]
      · omega
    exact le_trans short (le_max_right _ _)
  · exact le_max_left _ _
  · exact le_max_left _ _

/-- A parameter that does not begin as `filename` does gives no filename. -/
theorem parameterOn_other (head : Piece) (other : head.bytes.head? ≠ some 102) :
    (parameterOn storage head found).filename = found.filename := by
  have differs : (Range.split head.bytes [61]).2.1 ≠ ascii "filename" := by
    intro same
    have front : (Range.split head.bytes [61]).2.1 <+: head.bytes := by
      rw [Range.split_eq]
      split
      · exact List.prefix_rfl
      · exact List.take_prefix _ _
    rw [same] at front
    obtain ⟨rest, whole⟩ := front
    rw [← whole] at other
    exact other rfl
  unfold parameterOn
  dsimp only
  rw [if_neg differs]
  split_ifs <;> rfl

end Line

def quotedParameter (key value : Bytes) : Bytes := key ++ 61 :: 34 :: (value ++ [34])

/-- The line as a client writes it for an uploaded file. -/
def dispositionLine (name filename : Bytes) : Bytes :=
  ascii "Content-Disposition: form-data" ++ 59 :: 32 :: (quotedParameter (ascii "name") name ++
    59 :: 32 :: quotedParameter (ascii "filename") filename)

section Disposition

variable (storage : DataBufferImpl) (name filename : Bytes) (pos : Nat)

theorem parameterOn_name (found : PartNames) :
    parameterOn storage ⟨pos, quotedParameter (ascii "name") name⟩ found = { found with name } := by
  simp only [parameterOn, quotedParameter, split_parameter (ascii "name") name (by decide), if_true,
    trimn_quoted]

theorem parameterOn_filename_quoted (found : PartNames) :
    parameterOn storage ⟨pos, quotedParameter (ascii "filename") filename⟩ found =
      { found with filename } := by
  have other : ascii "filename" ≠ ascii "name" := by decide
  simp only [parameterOn, quotedParameter, split_parameter (ascii "filename") filename (by decide),
    if_neg other, if_true, trimn_quoted]

theorem parameterOn_disposition (found : PartNames) :
    parameterOn storage ⟨pos, ascii "Content-Disposition: form-data"⟩ found = found := by
  have whole := Range.split_missing 61 [] (ascii "Content-Disposition: form-data") (by decide)
  simp only [parameterOn, whole]
  rfl

theorem quotedParameter_semicolon (key value : Bytes) (keyPlain : (59 : UInt8) ∉ key)
    (plain : (59 : UInt8) ∉ value) : (59 : UInt8) ∉ quotedParameter key value := by
  simp [quotedParameter, keyPlain, plain]

theorem quotedParameter_last (front key value : Bytes) :
    (front ++ quotedParameter key value).getLast? = some 34 := by
  have shape : front ++ quotedParameter key value = front ++ key ++ 61 :: 34 :: value ++ [34] := by
    simp [quotedParameter]
  rw [shape, List.getLast?_concat]

theorem dropWhile_parameter (key value rest : Bytes) (word : ∀ symbol ∈ key.head?, isspace symbol = false) :
    (32 :: (quotedParameter key value ++ rest)).dropWhile isspace = quotedParameter key value ++ rest := by
  rw [List.dropWhile_cons_of_pos (by decide)]
  cases key with
  | nil => rfl
  | cons head tail => exact List.dropWhile_cons_of_neg (by simp [word head rfl])

def dispositionTail : Bytes :=
  32 :: (quotedParameter (ascii "name") name ++ 59 :: 32 :: quotedParameter (ascii "filename") filename)

theorem lineOn_dispositionLine :
    lineOn storage (dispositionLine name filename).length ⟨pos, dispositionLine name filename⟩ ⟨[], [], []⟩ =
      lineOn storage ((dispositionLine name filename).length - 1)
        ⟨pos + 30 + 1 + Range.lead (dispositionTail name filename),
          trimmed storage (pos + 30 + 1) (dispositionTail name filename)⟩ ⟨[], [], []⟩ := by
  have positive : 0 < (dispositionLine name filename).length := by simp [dispositionLine, ascii]
  generalize (dispositionLine name filename).length = fuel at positive
  rw [dispositionLine, lineOn_step storage _ fuel pos _ _ (by decide) positive, parameterOn_disposition]
  rfl

theorem dispositionTail_ends : pos + 30 + 1 + (dispositionTail name filename).length =
    pos + (dispositionLine name filename).length := by
  simp only [dispositionLine, dispositionTail, List.length_append, List.length_cons]
  have width : (ascii "Content-Disposition: form-data").length = 30 := rfl
  omega

theorem dropWhile_dispositionTail : (dispositionTail name filename).dropWhile isspace =
    quotedParameter (ascii "name") name ++ 59 :: 32 :: quotedParameter (ascii "filename") filename :=
  dropWhile_parameter (ascii "name") name _ (by decide +kernel)

theorem lead_dispositionTail : Range.lead (dispositionTail name filename) = 1 := by
  rw [Range.lead, dropWhile_dispositionTail, dispositionTail, List.length_cons]
  omega

theorem dispositionTail_trimmed (solid : EndsSolid storage (pos + (dispositionLine name filename).length)) :
    trimmed storage (pos + 30 + 1) (dispositionTail name filename) =
      quotedParameter (ascii "name") name ++ 59 :: 32 :: quotedParameter (ascii "filename") filename := by
  rw [DataBuffer.trimmed_solid, dropWhile_dispositionTail]
  · rw [dropWhile_dispositionTail]
    simp [quotedParameter]
  · have last := quotedParameter_last (32 :: (quotedParameter (ascii "name") name ++ [59, 32]))
      (ascii "filename") filename
    have shape : 32 :: (quotedParameter (ascii "name") name ++ [59, 32]) ++
        quotedParameter (ascii "filename") filename = dispositionTail name filename := by
      simp [dispositionTail]
    rw [← shape, last]
    decide +kernel
  · rwa [dispositionTail_ends]

variable (plain : (59 : UInt8) ∉ name)

include plain

theorem lineOn_solid (filenamePlain : (59 : UInt8) ∉ filename)
    (solid : EndsSolid storage (pos + (dispositionLine name filename).length)) :
    lineOn storage (dispositionLine name filename).length ⟨pos, dispositionLine name filename⟩ ⟨[], [], []⟩ =
      ⟨name, filename, []⟩ := by
  have ends := dispositionTail_ends name filename pos
  have long : 2 < (dispositionLine name filename).length := by
    simp [dispositionLine, ascii]
  rw [lineOn_dispositionLine, dispositionTail_trimmed storage name filename pos solid,
    lead_dispositionTail, lineOn_step storage _ _ _ _ _
      (quotedParameter_semicolon _ _ (by decide) plain) (by omega), parameterOn_name]
  have front := dropWhile_parameter (ascii "filename") filename [] (by decide +kernel)
  rw [List.append_nil] at front
  rw [DataBuffer.trimmed_solid, front, lineOn_last storage _ _ _ _
    (quotedParameter_semicolon _ _ (by decide) filenamePlain) (by simp [quotedParameter]) (by omega),
    parameterOn_filename_quoted]
  · rw [front]
    simp [quotedParameter]
  · have last := quotedParameter_last [32] (ascii "filename") filename
    rw [List.singleton_append] at last
    rw [last]
    decide +kernel
  · simp only [dispositionTail, List.length_append, List.length_cons] at ends ⊢
    rw [← ends] at solid
    have same : pos + 30 + 1 + 1 + (quotedParameter (ascii "name") name).length + 1 +
        ((quotedParameter (ascii "filename") filename).length + 1) =
        pos + 30 + 1 + ((quotedParameter (ascii "name") name).length +
          ((quotedParameter (ascii "filename") filename).length + 1 + 1) + 1) := by omega
    rwa [same]

theorem lineOn_cut_name (fuel start : Nat) (enough : 0 < fuel) {rest : Bytes}
    (inside : rest <+: quotedParameter (ascii "name") name) :
    (lineOn storage fuel ⟨start, rest⟩ ⟨[], [], []⟩).filename = [] := by
  have fresh : (59 : UInt8) ∉ rest :=
    fun member => quotedParameter_semicolon _ _ (by decide) plain (inside.subset member)
  cases rest with
  | nil => rw [lineOn_nil]
  | cons head tail =>
      have first : head = 110 := (List.cons_prefix_cons.mp inside).1
      rw [lineOn_last storage _ _ _ _ fresh (by simp) enough, parameterOn_other]
      simp [first]

omit plain in
theorem lineOn_cut_filename (fuel start : Nat) (enough : 0 < fuel) (uploaded : filename ≠ []) {last : Bytes}
    (fresh : (59 : UInt8) ∉ last) (short : last.length < (quotedParameter (ascii "filename") filename).length) :
    (lineOn storage fuel ⟨start, last⟩ ⟨name, [], []⟩).filename.length < filename.length := by
  have positive := List.length_pos_of_ne_nil uploaded
  cases last with
  | nil =>
      rw [lineOn_nil]
      exact positive
  | cons head tail =>
      have width : (quotedParameter (ascii "filename") filename).length = filename.length + 11 := by
        simp [quotedParameter, ascii]
      rw [lineOn_last storage _ _ _ _ fresh (by simp) enough]
      have bound := parameterOn_filename storage ⟨name, [], []⟩ ⟨start, head :: tail⟩
      simp only [List.length_nil, Nat.zero_max] at bound
      exact lt_of_le_of_lt bound (by omega)

omit plain in
theorem cut_length (key value : Bytes) {back : Bytes} (inside : back <+: 32 :: quotedParameter key value)
    (less : back.length < (32 :: quotedParameter key value).length) :
    (back.dropWhile isspace).length < (quotedParameter key value).length := by
  have positive : 0 < (quotedParameter key value).length := by simp [quotedParameter]
  cases back with
  | nil => exact positive
  | cons blank rest =>
      have isBlank : blank = 32 := (List.cons_prefix_cons.mp inside).1
      have shorter := List.length_dropWhile_le isspace rest
      rw [isBlank, List.dropWhile_cons_of_pos (by decide)]
      simp only [List.length_cons] at less
      omega

theorem lineOn_loose (uploaded : filename ≠ []) (filenamePlain : (59 : UInt8) ∉ filename)
    (loose : ¬ EndsSolid storage (pos + (dispositionLine name filename).length)) :
    (lineOn storage (dispositionLine name filename).length ⟨pos, dispositionLine name filename⟩
      ⟨[], [], []⟩).filename.length < filename.length := by
  have positive := List.length_pos_of_ne_nil uploaded
  have long : 3 < (dispositionLine name filename).length := by
    simp [dispositionLine, ascii]
  have short := DataBuffer.trimmed_front storage (pos + 30 + 1) (dispositionTail name filename)
  have less : (trimmed storage (pos + 30 + 1) (dispositionTail name filename)).length <
      ((dispositionTail name filename).dropWhile isspace).length := by
    apply DataBuffer.trimmed_short
    · rw [dropWhile_dispositionTail]
      simp [quotedParameter]
    · rwa [dispositionTail_ends]
  rw [lineOn_dispositionLine]
  rw [dropWhile_dispositionTail] at short less
  generalize trimmed storage (pos + 30 + 1) (dispositionTail name filename) = rest at short less
  generalize pos + 30 + 1 + Range.lead (dispositionTail name filename) = start
  rcases List.prefix_or_prefix_of_prefix short (List.prefix_append _ _) with inside | outside
  · rw [lineOn_cut_name storage name plain _ start (by omega) inside]
    exact positive
  · obtain ⟨back, rfl⟩ := outside
    rw [List.prefix_append_right_inj] at short
    cases back with
    | nil =>
        rw [List.append_nil, lineOn_cut_name storage name plain _ start (by omega) List.prefix_rfl]
        exact positive
    | cons head back =>
        obtain ⟨rfl, tailShort⟩ := List.cons_prefix_cons.mp short
        rw [lineOn_step storage _ _ _ _ _ (quotedParameter_semicolon _ _ (by decide) plain) (by omega),
          parameterOn_name]
        have front := DataBuffer.trimmed_front storage
          (start + (quotedParameter (ascii "name") name).length + 1) back
        have fresh : (59 : UInt8) ∉
            trimmed storage (start + (quotedParameter (ascii "name") name).length + 1) back := by
          intro member
          have listed := tailShort.subset ((List.dropWhile_sublist isspace).subset (front.subset member))
          rcases List.mem_cons.mp listed with blank | inside
          · cases blank
          · exact quotedParameter_semicolon _ _ (by decide) filenamePlain inside
        simp only [List.length_append, List.length_cons] at less
        have cut := cut_length (ascii "filename") filename tailShort (by
          rw [List.length_cons]
          omega)
        exact lineOn_cut_filename storage name filename _ _ (by omega) uploaded fresh
          (lt_of_le_of_lt front.length_le cut)

end Disposition

theorem namesOn_line (storage : DataBufferImpl) (pos : Nat) {text line content : Bytes}
    (header : splitPart text = (line, content)) (filled : line ≠ [])
    (plain : ∀ symbol ∈ line, symbol ≠ 13 ∧ symbol ≠ 10) :
    namesOn storage ⟨pos, text⟩ = lineOn storage line.length ⟨pos, line⟩ ⟨[], [], []⟩ := by
  simp only [namesOn, partLines, header,
    headerLines_one line.length pos line filled plain (List.length_pos_of_ne_nil filled),
    List.foldl_cons, List.foldl_nil]

theorem quotedParameter_plain (key value : Bytes) (keyPlain : ∀ symbol ∈ key, symbol ≠ 13 ∧ symbol ≠ 10)
    (plain : ∀ symbol ∈ value, symbol ≠ 34 ∧ symbol ≠ 13 ∧ symbol ≠ 10) :
    ∀ symbol ∈ quotedParameter key value, symbol ≠ 13 ∧ symbol ≠ 10 := by
  simp only [quotedParameter, List.forall_mem_append, List.forall_mem_cons]
  exact ⟨keyPlain, by decide, by decide, fun symbol member => (plain symbol member).2, by decide, by simp⟩

theorem dispositionLine_plain (name filename : Bytes)
    (namePlain : ∀ symbol ∈ name, symbol ≠ 34 ∧ symbol ≠ 13 ∧ symbol ≠ 10)
    (filenamePlain : ∀ symbol ∈ filename, symbol ≠ 34 ∧ symbol ≠ 13 ∧ symbol ≠ 10) :
    ∀ symbol ∈ dispositionLine name filename, symbol ≠ 13 ∧ symbol ≠ 10 := by
  simp only [dispositionLine, List.forall_mem_append, List.forall_mem_cons]
  exact ⟨by decide +kernel, by decide, by decide,
    quotedParameter_plain _ _ (by decide +kernel) namePlain, by decide, by decide,
    quotedParameter_plain _ _ (by decide +kernel) filenamePlain⟩

/-- The part became a file of the request, under its field name and with its filename,
and none of its arguments. -/
def RecordedAs (request : Request) (parsed : Except Exn Request) (name filename : Bytes) : Prop :=
  ∃ next file, parsed = .ok next ∧ next.args = request.args ∧ request.files.find? name = none ∧
    next.files.find? name = some file ∧ file.name = filename

/-- An uploaded file is recorded as what the client called it if and only if neither
name holds a semicolon, the storage leaves the closing quote alone, and the field is
not taken. -/
theorem quoted_parameters_recorded_iff (request : Request) (heap : Heap) (part : DataBuffer) (ref : Nat)
    (storage : DataBufferImpl) (shown : part.Shows heap ref storage) (name filename content : Bytes)
    (named : name ≠ []) (uploaded : filename ≠ [])
    (namePlain : ∀ symbol ∈ name, symbol ≠ 34 ∧ symbol ≠ 13 ∧ symbol ≠ 10)
    (filenamePlain : ∀ symbol ∈ filename, symbol ≠ 34 ∧ symbol ≠ 13 ∧ symbol ≠ 10)
    (header : splitPart (part.text storage) = (dispositionLine name filename, content)) :
    RecordedAs request (Parser.parsePart request heap part) name filename ↔
      (59 : UInt8) ∉ name ∧ (59 : UInt8) ∉ filename ∧
        EndsSolid storage (part.beginIndex + (dispositionLine name filename).length) ∧
        request.files.find? name = none := by
  have plain := dispositionLine_plain name filename namePlain filenamePlain
  have filled : dispositionLine name filename ≠ [] := by simp [dispositionLine, ascii]
  have unfolded : folded (splitLine (splitPart (part.text storage)).1).1 = false := by
    simp only [header, splitLine_plain _ plain]
    rfl
  obtain ⟨data, _, parsed⟩ := @parsePart_on heap ref storage part ⟨part.beginIndex, part.text storage⟩
    shown.denotes unfolded request
  have names := namesOn_line storage part.beginIndex header filled plain
  have fresh := lineOn_semicolon storage ⟨[], [], []⟩ (dispositionLine name filename).length
    ⟨part.beginIndex, dispositionLine name filename⟩ (by simp) (by simp)
  have good := lineOn_solid storage name filename part.beginIndex
  have bad := lineOn_loose storage name filename part.beginIndex
  rw [← names] at fresh good bad
  constructor
  · rintro ⟨next, file, done, args, free, found, same⟩
    rw [done] at parsed
    split_ifs at parsed with unnamed plainArg
    · obtain rfl := Except.ok.inj parsed
      rw [free] at found
      cases found
    · obtain rfl := Except.ok.inj parsed
      simp at args
    · obtain rfl := Except.ok.inj parsed
      rw [find?_insert] at found
      split at found
      · next nameSame =>
          rw [free, Option.none_or, Option.some.injEq] at found
          have filenameSame : (namesOn storage ⟨part.beginIndex, part.text storage⟩).filename = filename := by
            rw [← same, ← found]
          rw [nameSame, filenameSame] at fresh
          refine ⟨fresh.1, fresh.2, ?_, free⟩
          by_contra loose
          have shorter := bad fresh.1 uploaded fresh.2 loose
          rw [filenameSame] at shorter
          exact lt_irrefl _ shorter
      · rw [free] at found
        cases found
  · rintro ⟨first, second, solid, free⟩
    have read := good first second solid
    rw [read, if_neg named, dif_neg uploaded] at parsed
    exact ⟨_, ⟨filename, [], data, uploaded⟩, parsed, rfl, free,
      find?_insert_new request.files name free _, rfl⟩

def uploadedPart (name filename : Bytes) : Bytes :=
  dispositionLine name filename ++ (Parser.emptyLineRNRN ++ ascii "x")

def parsedPart (part : Bytes) : Except Exn Request :=
  Parser.parsePart .fresh [.string ⟨part⟩] ⟨some 0, 0, part.length⟩

theorem quoted_parameters_recorded_equals : RecordedAs .fresh
    (parsedPart (uploadedPart (ascii "a=b") (ascii "c=d.txt"))) (ascii "a=b") (ascii "c=d.txt") :=
  (quoted_parameters_recorded_iff .fresh _ _ 0 (.string ⟨uploadedPart (ascii "a=b") (ascii "c=d.txt")⟩)
    ⟨rfl, rfl, (by decide +kernel : (uploadedPart (ascii "a=b") (ascii "c=d.txt")).length < Word.base),
      Nat.zero_le _, le_refl _⟩ (ascii "a=b") (ascii "c=d.txt") (ascii "x")
    (by decide +kernel) (by decide +kernel) (by decide +kernel) (by decide +kernel) (by decide +kernel)).mpr
    ⟨by decide, by decide, trivial, rfl⟩

/-- A semicolon in a filename makes an argument of the file; one in the name of the
field makes nothing of it. -/
theorem quoted_parameters_semicolon :
    (parsedPart (uploadedPart (ascii "a") (ascii "x;y.txt"))).toOption.map
        (fun next => (next.args, next.countRemoteFiles)) = some ([(ascii "a", ascii "x")], 0) ∧
      (parsedPart (uploadedPart (ascii "a;b") (ascii "y.txt"))).toOption.map
        (fun next => (next.args, next.countRemoteFiles)) = some ([], 0) := by
  decide +kernel

end Multipart

end FastcgiContainer
