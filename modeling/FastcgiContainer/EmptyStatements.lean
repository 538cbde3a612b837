import FastcgiContainer.PageSections

/-! `CodeWriter::writeContent`: the handler of a page is written without its empty output
statements, which a regular expression finds. -/

namespace FastcgiContainer.PageCompiler

open Word (Bytes)

/-- The two statements that `_removeEmptyString` looks for, in lower case. The second one has
a backslash and an `n` between its quotes. -/
def emptyStatements : List Bytes := [ascii "responsestream << \"\";", ascii "responsestream << \"\\n\";"]

theorem emptyStatements_eq : emptyStatements =
    [[114, 101, 115, 112, 111, 110, 115, 101, 115, 116, 114, 101, 97, 109, 32, 60, 60] ++ [32, 34, 34, 59],
      [114, 101, 115, 112, 111, 110, 115, 101, 115, 116, 114, 101, 97, 109, 32, 60, 60] ++
        [32, 34, 92, 110, 34, 59]] := by
  simp [emptyStatements, ascii]

/-- Letters count as equal in both cases. -/
def statementAt (text : Bytes) : Option Nat :=
  (emptyStatements.find? (fun statement => (text.take statement.length).map tolower == statement)).map
    List.length

def matchLength : Bytes → Option Nat
  | [] => none
  | symbol :: rest =>
      (if isspace symbol then (statementAt rest).map (fun length => length + 1) else none).or
        (statementAt (symbol :: rest))

/-- `std::regex_replace` by the empty string, after so many symbols of a match. -/
def removeEmptyString : Nat → Bytes → Bytes
  | _, [] => []
  | skip + 1, _ :: rest => removeEmptyString skip rest
  | 0, symbol :: rest =>
      match matchLength (symbol :: rest) with
      | some length => removeEmptyString (length - 1) rest
      | none => symbol :: removeEmptyString 0 rest

def writeContent (page : Page) : Bytes :=
  ascii "\tfastcgi::HttpResponseStream responseStream(response);\n" ++ removeEmptyString 0 page.handler

example : removeEmptyString 0 (ascii "f();\n\tresponseStream << \"\";\n g();") = ascii "f();\n\n g();" := by
  decide +kernel

def hasStatement (text : Bytes) : Bool := text.tails.any (fun back => (statementAt back).isSome)

theorem hasStatement_nil : hasStatement [] = false := by
  simp only [hasStatement, statementAt, emptyStatements_eq]
  decide

theorem hasStatement_iff (text : Bytes) : hasStatement text = true ↔
    ∃ front back, text = front ++ back ∧ (statementAt back).isSome = true := by
  simp only [hasStatement, List.any_eq_true, List.mem_tails]
  constructor
  · rintro ⟨back, ⟨front, rfl⟩, found⟩
    exact ⟨front, back, rfl, found⟩
  · rintro ⟨front, back, rfl, found⟩
    exact ⟨back, List.suffix_append front back, found⟩

theorem hasStatement_cons (symbol : UInt8) (rest : Bytes) :
    hasStatement (symbol :: rest) = ((statementAt (symbol :: rest)).isSome || hasStatement rest) := by
  simp [hasStatement]

theorem statementAt_some (text : Bytes) (length : Nat) (found : statementAt text = some length) :
    ∃ statement ∈ emptyStatements, statement.length = length ∧
      (text.take length).map tolower = statement := by
  obtain ⟨statement, listed, rfl⟩ := Option.map_eq_some_iff.mp found
  have same := List.find?_some listed
  exact ⟨statement, List.mem_of_find?_eq_some listed, rfl, by simpa using same⟩

theorem statementAt_length (text : Bytes) (length : Nat) (found : statementAt text = some length) :
    0 < length ∧ length ≤ text.length := by
  obtain ⟨statement, listed, size, same⟩ := statementAt_some text length found
  have filled : ∀ statement ∈ emptyStatements, 0 < statement.length := by
    rw [emptyStatements_eq]
    decide
  have whole := congrArg List.length same
  rw [List.length_map, List.length_take, size] at whole
  exact ⟨size ▸ filled statement listed, by omega⟩

theorem statementAt_head (symbol : UInt8) (rest : Bytes) (other : tolower symbol ≠ 114) :
    statementAt (symbol :: rest) = none := by
  cases found : statementAt (symbol :: rest) with
  | none => rfl
  | some length =>
      obtain ⟨statement, listed, rfl, same⟩ := statementAt_some _ _ found
      have begins : ∀ statement ∈ emptyStatements, statement.head? = some 114 := by
        rw [emptyStatements_eq]
        decide
      have first := begins statement listed
      obtain ⟨more, size⟩ := Nat.exists_eq_succ_of_ne_zero (Nat.pos_iff_ne_zero.mp (statementAt_length _ _ found).1)
      rw [← same, size, List.take_succ_cons, List.map_cons, List.head?_cons, Option.some.injEq] at first
      exact absurd first other

theorem tolower_exact (symbol other : UInt8) (lowered : tolower symbol = other)
    (plain : other.toNat < 97 ∨ 122 < other.toNat) : symbol = other := by
  unfold tolower at lowered
  split at lowered
  · next capital =>
      rw [Bool.and_eq_true, decide_eq_true_eq, decide_eq_true_eq, UInt8.le_iff_toNat_le, UInt8.le_iff_toNat_le] at capital
      have sum : other.toNat = (symbol.toNat + 32) % 256 := by
        rw [← lowered]
        exact UInt8.toNat_add symbol 32
      have first : (65 : UInt8).toNat = 65 := rfl
      have last : (90 : UInt8).toNat = 90 := rfl
      omega
  · exact lowered

theorem tolower_letter (symbol : UInt8) (lowered : tolower symbol = 110) : symbol = 78 ∨ symbol = 110 := by
  unfold tolower at lowered
  split at lowered
  · left
    have moved := congrArg (· - 32) lowered
    simpa using moved
  · exact Or.inr lowered

theorem statementAt_space (symbol : UInt8) (rest : Bytes) (space : isspace symbol = true) :
    statementAt (symbol :: rest) = none := by
  apply statementAt_head
  have same : tolower symbol = symbol := by
    unfold tolower
    rw [if_neg]
    intro capital
    simp only [isspace, Bool.and_eq_true, Bool.or_eq_true, beq_iff_eq, decide_eq_true_eq,
      UInt8.le_iff_toNat_le] at space capital
    rcases space with rfl | bounds
    · exact absurd capital.1 (by decide)
    · have first : (65 : UInt8).toNat = 65 := rfl
      have last : (13 : UInt8).toNat = 13 := rfl
      omega
  rw [same]
  rintro rfl
  exact absurd space (by decide)

theorem matchLength_none (symbol : UInt8) (rest : Bytes) (missed : matchLength (symbol :: rest) = none) :
    statementAt (symbol :: rest) = none := by
  unfold matchLength at missed
  exact (Option.or_eq_none_iff.mp missed).2

theorem matchLength_length (text : Bytes) (length : Nat) (found : matchLength text = some length) :
    0 < length ∧ length ≤ text.length := by
  cases text with
  | nil => cases found
  | cons symbol rest =>
      rw [matchLength] at found
      cases space : isspace symbol with
      | true =>
          rw [space, if_pos rfl, statementAt_space symbol rest space, Option.or_none] at found
          obtain ⟨inner, here, rfl⟩ := Option.map_eq_some_iff.mp found
          have bounds := statementAt_length rest inner here
          simp only [List.length_cons]
          omega
      | false =>
          rw [space, if_neg (by decide), Option.none_or] at found
          exact statementAt_length _ _ found

theorem removeEmptyString_length (skip : Nat) (text : Bytes) :
    (removeEmptyString skip text).length ≤ text.length := by
  induction text generalizing skip with
  | nil =>
      cases skip <;> exact le_refl _
  | cons symbol rest ih =>
      cases skip with
      | succ skip => exact (ih skip).trans (Nat.le_succ _)
      | zero =>
          rw [removeEmptyString]
          split
          · exact (ih _).trans (Nat.le_succ _)
          · exact Nat.succ_le_succ (ih 0)

theorem removeEmptyString_shorter (text : Bytes) (has : hasStatement text = true) :
    (removeEmptyString 0 text).length < text.length := by
  induction text with
  | nil => exact absurd has (by decide)
  | cons symbol rest ih =>
      rw [removeEmptyString]
      cases found : matchLength (symbol :: rest) with
      | some length => exact Nat.lt_succ_of_le (removeEmptyString_length (length - 1) rest)
      | none =>
          rw [hasStatement_cons, matchLength_none symbol rest found] at has
          exact Nat.succ_lt_succ (ih has)

theorem matchLength_clear (symbol : UInt8) (rest : Bytes) (clear : hasStatement (symbol :: rest) = false) :
    matchLength (symbol :: rest) = none := by
  rw [hasStatement_cons, Bool.or_eq_false_iff, Option.isSome_eq_false_iff, Option.isNone_iff_eq_none] at clear
  have later : statementAt rest = none := by
    cases rest with
    | nil => decide
    | cons next others =>
        have here := clear.2
        rw [hasStatement_cons, Bool.or_eq_false_iff, Option.isSome_eq_false_iff, Option.isNone_iff_eq_none] at here
        exact here.1
  simp only [matchLength, clear.1, later, Option.map_none, ite_self, Option.or_none]

theorem removeEmptyString_eq_self_iff (text : Bytes) :
    removeEmptyString 0 text = text ↔ hasStatement text = false := by
  constructor
  · intro same
    by_contra has
    have shorter := removeEmptyString_shorter text (by simpa using has)
    rw [same] at shorter
    exact absurd shorter (Nat.lt_irrefl _)
  · intro clear
    induction text with
    | nil => rfl
    | cons symbol rest ih =>
        have missed := matchLength_clear symbol rest clear
        rw [hasStatement_cons, Bool.or_eq_false_iff] at clear
        rw [removeEmptyString, missed, ih clear.2]

def foreign (symbol : UInt8) : Bool := emptyStatements.all (fun statement => !statement.contains (tolower symbol))

theorem foreign_known : ∀ symbol ∈ ([9, 10, 40, 41] : Bytes), foreign symbol = true := by
  simp [foreign, emptyStatements_eq, tolower]

def Fenced (text : Bytes) : Prop :=
  ∃ front symbol back, text = front ++ symbol :: back ∧ (59 : UInt8) ∉ front ∧ foreign symbol = true

theorem Fenced.append {text : Bytes} (fence : Fenced text) (more : Bytes) : Fenced (text ++ more) := by
  obtain ⟨front, symbol, back, rfl, clear, other⟩ := fence
  exact ⟨front, symbol, back ++ more, by simp, clear, other⟩

theorem Fenced.of_head {text : Bytes} {symbol : UInt8} (head : text.head? = some symbol)
    (other : foreign symbol = true) : Fenced text := by
  cases text with
  | nil => cases head
  | cons first rest =>
      cases head
      exact ⟨[], symbol, rest, rfl, List.not_mem_nil, other⟩

theorem fence_crossed (text back statement : Bytes) (listed : statement ∈ emptyStatements) (fence : Fenced back)
    (same : ((text ++ back).take statement.length).map tolower = statement) : statement.length ≤ text.length := by
  by_contra beyond
  obtain ⟨front, symbol, rest, rfl, clear, other⟩ := fence
  obtain ⟨extra, size⟩ : ∃ extra, statement.length = text.length + (extra + 1) :=
    ⟨statement.length - text.length - 1, by omega⟩
  rw [size, List.take_append, List.take_of_length_le (by omega), Nat.add_sub_cancel_left, List.map_append] at same
  by_cases inside : extra + 1 ≤ front.length
  · -- the last symbol of the statement is the semicolon that the fence has none of
    have last : statement.getLast? = some 59 := by
      have all : ∀ statement ∈ emptyStatements, statement.getLast? = some 59 := by
        rw [emptyStatements_eq]
        decide
      exact all statement listed
    have cut : (front ++ symbol :: rest).take (extra + 1) = front.take (extra + 1) :=
      List.take_append_of_le_length inside
    have filled : (front.take (extra + 1)).map tolower ≠ [] := by
      intro none
      have length := congrArg List.length none
      simp only [List.length_map, List.length_take, List.length_nil] at length
      omega
    rw [← same, cut, List.getLast?_append_of_ne_nil _ filled, List.getLast?_map, Option.map_eq_some_iff] at last
    obtain ⟨symbol, final, semicolon⟩ := last
    have member := List.mem_of_mem_take (List.mem_of_getLast? final)
    rw [tolower_exact symbol 59 semicolon (by decide)] at member
    exact clear member
  · have member : tolower symbol ∈ statement := by
      rw [← same]
      apply List.mem_append_right
      apply List.mem_map_of_mem
      rw [List.take_append, List.mem_append]
      right
      obtain ⟨more, rest_eq⟩ : ∃ more, extra + 1 - front.length = more + 1 :=
        ⟨extra - front.length, by omega⟩
      rw [rest_eq, List.take_succ_cons]
      exact List.mem_cons_self
    simp only [foreign, List.all_eq_true] at other
    have absent := other statement listed
    simp [member] at absent

theorem statementAt_fence (text back : Bytes) (fence : Fenced back) :
    statementAt (text ++ back) = statementAt text := by
  have same : ∀ statement ∈ emptyStatements,
      (((text ++ back).take statement.length).map tolower == statement) =
        ((text.take statement.length).map tolower == statement) := by
    intro statement listed
    by_cases within : statement.length ≤ text.length
    · rw [List.take_append_of_le_length within]
    · rw [beq_eq_false_iff_ne.mpr, beq_eq_false_iff_ne.mpr]
      · intro equal
        have length := congrArg List.length equal
        rw [List.length_map, List.length_take] at length
        omega
      · intro equal
        exact within (fence_crossed text back statement listed fence equal)
  have searched : emptyStatements.find? (fun statement => ((text ++ back).take statement.length).map tolower == statement) =
      emptyStatements.find? (fun statement => (text.take statement.length).map tolower == statement) :=
    List.find?_congr same
  rw [statementAt, searched, statementAt]

theorem matchLength_fence (symbol : UInt8) (rest back : Bytes) (fence : Fenced back) :
    matchLength (symbol :: rest ++ back) = matchLength (symbol :: rest) := by
  have whole := statementAt_fence (symbol :: rest) back fence
  have later := statementAt_fence rest back fence
  rw [List.cons_append] at whole ⊢
  simp only [matchLength, whole, later]

theorem removeEmptyString_append (skip : Nat) (text back : Bytes) (within : skip ≤ text.length)
    (fence : Fenced back) :
    removeEmptyString skip (text ++ back) = removeEmptyString skip text ++ removeEmptyString 0 back := by
  induction text generalizing skip with
  | nil =>
      obtain rfl : skip = 0 := by simpa using within
      rfl
  | cons symbol rest ih =>
      cases skip with
      | succ skip => exact ih skip (Nat.le_of_succ_le_succ within)
      | zero =>
          have found := matchLength_fence symbol rest back fence
          rw [List.cons_append] at found ⊢
          rw [removeEmptyString, removeEmptyString, found]
          cases here : matchLength (symbol :: rest) with
          | none => exact congrArg (symbol :: ·) (ih 0 (Nat.zero_le _))
          | some length =>
              have bounds := matchLength_length _ _ here
              exact ih (length - 1) (by simp only [List.length_cons] at bounds; omega)

theorem removeEmptyString_flatMap {α : Type} (parts : List α) (textOf : α → Bytes)
    (fences : ∀ part ∈ parts, Fenced (textOf part)) :
    removeEmptyString 0 (parts.flatMap textOf) = parts.flatMap (fun part => removeEmptyString 0 (textOf part)) := by
  induction parts with
  | nil => rfl
  | cons part rest ih =>
      have later := ih (fun other member => fences other (List.mem_cons_of_mem part member))
      rw [List.flatMap_cons, List.flatMap_cons, ← later]
      cases rest with
      | nil => simp [removeEmptyString]
      | cons next others =>
          apply removeEmptyString_append 0 _ _ (Nat.zero_le _)
          rw [List.flatMap_cons]
          exact (fences next (by simp)).append _

theorem hasStatement_lead (lead text : Bytes) (clear : ∀ symbol ∈ lead, tolower symbol ≠ 114) :
    hasStatement (lead ++ text) = hasStatement text := by
  induction lead with
  | nil => rfl
  | cons symbol rest ih =>
      rw [List.cons_append, hasStatement_cons, statementAt_head _ _ (clear symbol List.mem_cons_self),
        ih (fun other member => clear other (List.mem_cons_of_mem symbol member))]
      rfl

theorem hasStatement_plain (text : Bytes) (clear : ∀ symbol ∈ text, tolower symbol ≠ 114) : hasStatement text = false := by
  have alone := hasStatement_lead text [] clear
  rwa [List.append_nil, hasStatement_nil] at alone

theorem hasStatement_open (text : Bytes) (clear : (59 : UInt8) ∉ text) : hasStatement text = false := by
  by_contra has
  obtain ⟨front, back, rfl, found⟩ := (hasStatement_iff text).mp (Bool.eq_true_of_not_eq_false has)
  obtain ⟨length, found⟩ := Option.isSome_iff_exists.mp found
  obtain ⟨statement, listed, _, same⟩ := statementAt_some back length found
  have ends : ∀ statement ∈ emptyStatements, (59 : UInt8) ∈ statement := by
    rw [emptyStatements_eq]
    decide
  have member := ends statement listed
  rw [← same, List.mem_map] at member
  obtain ⟨symbol, inside, lowered⟩ := member
  rw [tolower_exact symbol 59 lowered (by decide)] at inside
  exact clear (List.mem_append_right front (List.mem_of_mem_take inside))

def Escaped (literal : Bytes) : Prop := ∀ front back, literal = front ++ 34 :: back → front.getLast? = some 92

theorem Escaped.nil : Escaped [] := by
  intro front back split
  simp at split

theorem Escaped.append {literal more : Bytes} (escaped : Escaped literal)
    (plain : more = [92, 34] ∨ (34 : UInt8) ∉ more) : Escaped (literal ++ more) := by
  intro front back split
  rcases List.append_eq_append_iff.mp split with ⟨rest, rfl, tail⟩ | ⟨rest, literal_eq, tail⟩
  · rcases plain with rfl | absent
    · match rest with
      | [] => exact absurd (List.cons.inj tail).1 (by decide)
      | [first] =>
          simp only [List.cons_append, List.nil_append, List.cons.injEq] at tail
          rw [← tail.1]
          simp
      | first :: second :: others => simp at tail
    · exact absurd (tail ▸ by simp : (34 : UInt8) ∈ more) absent
  · cases rest with
    | nil =>
        rw [List.nil_append] at tail
        rcases plain with rfl | absent
        · exact absurd (List.cons.inj tail).1 (by decide)
        · exact absurd (tail ▸ by simp : (34 : UInt8) ∈ more) absent
    | cons first others =>
        obtain ⟨rfl, _⟩ := List.cons.inj tail
        exact escaped front others literal_eq

def outputStatement (literal : Bytes) : Bytes := markupBegin ++ literal ++ ascii "\";"

def emptyLiteral (literal : Bytes) : Bool := literal.map tolower == [] || literal.map tolower == [92, 110]

theorem outputStatement_removed (literal : Bytes) (empty : emptyLiteral literal = true) :
    removeEmptyString 0 (outputStatement literal) = [] := by
  simp only [emptyLiteral, Bool.or_eq_true, beq_iff_eq] at empty
  rcases empty with none | newline
  · rw [List.map_eq_nil_iff.mp none]
    decide +kernel
  · obtain ⟨first, rest, rfl, backslash, tail⟩ := List.map_eq_cons_iff.mp newline
    obtain ⟨second, others, rfl, letter, nothing⟩ := List.map_eq_cons_iff.mp tail
    rw [List.map_eq_nil_iff.mp nothing]
    rw [tolower_exact first 92 backslash (by decide)]
    rcases tolower_letter second letter with rfl | rfl
    · decide +kernel
    · decide +kernel

theorem lowered_cons (text rest : Bytes) (symbol : UInt8) (lowered : text.map tolower = symbol :: rest)
    (plain : symbol.toNat < 97 ∨ 122 < symbol.toNat) : ∃ others, text = symbol :: others ∧ others.map tolower = rest := by
  obtain ⟨first, others, rfl, same, tail⟩ := List.map_eq_cons_iff.mp lowered
  exact ⟨others, by rw [tolower_exact first symbol same plain], tail⟩

theorem statementAt_split (back : Bytes) (found : (statementAt back).isSome = true) :
    ∃ front rest, back = front ++ 32 :: 34 :: rest ∧ front.length = 17 ∧
      ((∃ more, rest = 34 :: 59 :: more) ∨
        ∃ symbol more, tolower symbol = 110 ∧ rest = 92 :: symbol :: 34 :: 59 :: more) := by
  have space : (32 : UInt8).toNat < 97 ∨ 122 < (32 : UInt8).toNat := by decide
  have quote : (34 : UInt8).toNat < 97 ∨ 122 < (34 : UInt8).toNat := by decide
  have semicolon : (59 : UInt8).toNat < 97 ∨ 122 < (59 : UInt8).toNat := by decide
  have backslash : (92 : UInt8).toNat < 97 ∨ 122 < (92 : UInt8).toNat := by decide
  obtain ⟨length, found⟩ := Option.isSome_iff_exists.mp found
  obtain ⟨statement, listed, _, same⟩ := statementAt_some back length found
  have whole := List.take_append_drop length back
  rw [emptyStatements_eq, List.mem_cons, List.mem_singleton] at listed
  rcases listed with shape | shape
  · rw [shape] at same
    obtain ⟨front, tail, text, lead, first⟩ := List.map_eq_append_iff.mp same
    obtain ⟨second, rfl, second_eq⟩ := lowered_cons _ _ _ first space
    obtain ⟨third, rfl, third_eq⟩ := lowered_cons _ _ _ second_eq quote
    obtain ⟨fourth, rfl, fourth_eq⟩ := lowered_cons _ _ _ third_eq quote
    obtain ⟨fifth, rfl, _⟩ := lowered_cons _ _ _ fourth_eq semicolon
    refine ⟨front, 34 :: 59 :: (fifth ++ back.drop length), ?_, ?_, Or.inl ⟨_, rfl⟩⟩
    · rw [text] at whole
      simpa using whole.symm
    · rw [← List.length_map (f := tolower), lead]
      rfl
  · rw [shape] at same
    obtain ⟨front, tail, text, lead, first⟩ := List.map_eq_append_iff.mp same
    obtain ⟨second, rfl, second_eq⟩ := lowered_cons _ _ _ first space
    obtain ⟨third, rfl, third_eq⟩ := lowered_cons _ _ _ second_eq quote
    obtain ⟨fourth, rfl, fourth_eq⟩ := lowered_cons _ _ _ third_eq backslash
    obtain ⟨letter, fifth, rfl, letter_eq, fifth_eq⟩ := List.map_eq_cons_iff.mp fourth_eq
    obtain ⟨sixth, rfl, sixth_eq⟩ := lowered_cons _ _ _ fifth_eq quote
    obtain ⟨seventh, rfl, _⟩ := lowered_cons _ _ _ sixth_eq semicolon
    refine ⟨front, 92 :: letter :: 34 :: 59 :: (seventh ++ back.drop length), ?_, ?_,
      Or.inr ⟨letter, _, letter_eq, rfl⟩⟩
    · rw [text] at whole
      simpa using whole.symm
    · rw [← List.length_map (f := tolower), lead]
      rfl

theorem emptyLiteral_of_begins (literal rest : Bytes) (escaped : Escaped literal)
    (split : literal ++ [34, 59] = rest) (begins : (∃ more, rest = 34 :: 59 :: more) ∨
      ∃ symbol more, tolower symbol = 110 ∧ rest = 92 :: symbol :: 34 :: 59 :: more) :
    emptyLiteral literal = true := by
  rcases begins with ⟨more, rfl⟩ | ⟨symbol, more, letter, rfl⟩
  · cases literal with
    | nil => rfl
    | cons first others =>
        rw [List.cons_append, List.cons.injEq] at split
        have quoted := escaped [] others (by rw [split.1]; rfl)
        cases quoted
  · match literal with
    | [] => exact absurd (List.cons.inj split).1 (by decide)
    | [first] =>
        simp only [List.cons_append, List.nil_append, List.cons.injEq] at split
        exact absurd split.2.2.1 (by decide)
    | [first, second] =>
        simp only [List.cons_append, List.nil_append, List.cons.injEq] at split
        simp only [emptyLiteral, split.1, split.2.1, List.map_cons, List.map_nil, letter]
        decide
    | first :: second :: third :: others =>
        simp only [List.cons_append, List.cons.injEq] at split
        have quoted := escaped [first, second] others (by rw [split.2.2.1]; rfl)
        simp only [List.getLast?_cons_cons, List.getLast?_singleton, Option.some.injEq] at quoted
        rw [← split.2.1, quoted] at letter
        exact absurd letter (by decide)

theorem outputStatement_kept (literal : Bytes) (escaped : Escaped literal) (filled : emptyLiteral literal = false) :
    hasStatement (outputStatement literal) = false := by
  by_contra has
  obtain ⟨start, back, whole, found⟩ := (hasStatement_iff _).mp (by simpa using has)
  obtain ⟨front, rest, rfl, size, begins⟩ := statementAt_split back found
  have head : outputStatement literal = ascii "\tresponseStream << " ++ 34 :: (literal ++ [34, 59]) := by
    have lead : markupBegin = ascii "\tresponseStream << " ++ [34] := by simp [markupBegin, ascii]
    rw [outputStatement, lead]
    simp [ascii]
  have cut : ascii "\tresponseStream << " ++ 34 :: (literal ++ [34, 59]) = (start ++ front ++ [32]) ++ 34 :: rest := by
    rw [← head, whole]
    simp
  have plain : (34 : UInt8) ∉ ascii "\tresponseStream << " := by simp [ascii]
  rcases List.append_eq_append_iff.mp cut with ⟨more, before, after⟩ | ⟨more, before, after⟩
  · cases more with
    | nil =>
        -- the quotation mark of the statement is the first one of the literal
        rw [List.nil_append, List.cons.injEq] at after
        rw [emptyLiteral_of_begins literal rest escaped after.2 begins] at filled
        cases filled
    | cons first others =>
        rw [List.cons_append, List.cons.injEq] at after
        obtain ⟨rfl, inside⟩ := after
        have last : (34 :: others).getLast? = some 32 := by
          have ends := congrArg List.getLast? before
          rw [List.getLast?_append_of_ne_nil _ (by simp), List.getLast?_append_of_ne_nil _ (by simp)] at ends
          exact ends.symm
        rcases List.append_eq_append_iff.mp inside with ⟨late, others_eq, tail⟩ | ⟨late, literal_eq, tail⟩
        · cases late with
          | nil =>
              rw [List.nil_append, List.cons.injEq] at tail
              rw [← tail.2] at begins
              rcases begins with ⟨_, wrong⟩ | ⟨_, _, _, wrong⟩
              · exact absurd (List.cons.inj wrong).1 (by decide)
              · exact absurd (List.cons.inj wrong).1 (by decide)
          | cons symbol late =>
              cases late with
              | nil =>
                  simp only [List.cons_append, List.nil_append, List.cons.injEq] at tail
                  exact absurd tail.2.1 (by decide)
              | cons other late => simp at tail
        · cases late with
          | nil =>
              rw [List.nil_append, List.cons.injEq] at tail
              rw [tail.2] at begins
              rcases begins with ⟨_, wrong⟩ | ⟨_, _, _, wrong⟩
              · exact absurd (List.cons.inj wrong).1 (by decide)
              · exact absurd (List.cons.inj wrong).1 (by decide)
          | cons symbol late =>
              rw [List.cons_append, List.cons.injEq] at tail
              obtain ⟨rfl, _⟩ := tail
              have quoted := escaped others late literal_eq
              cases others with
              | nil => cases quoted
              | cons next others =>
                  rw [List.getLast?_cons_cons] at last
                  rw [last] at quoted
                  exact absurd (Option.some.inj quoted) (by decide)
  · cases more with
    | nil =>
        rw [List.nil_append, List.cons.injEq] at after
        rw [emptyLiteral_of_begins literal rest escaped after.2.symm begins] at filled
        cases filled
    | cons first others =>
        rw [List.cons_append, List.cons.injEq] at after
        rw [before, ← after.1] at plain
        exact plain (by simp)

end FastcgiContainer.PageCompiler
