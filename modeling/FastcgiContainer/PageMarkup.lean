import FastcgiContainer.PageSections
import FastcgiContainer.CppLiteral

/-! The markup of a server page becomes string literals of the handler. Read back by the rules
of C++ they give the markup again, unless it has a backslash: that is copied as it is. -/

namespace FastcgiContainer.PageCompiler

open Word (Bytes)
open CppLiteral (Ordinary addFront addFront_flatten escape literals statements)

def statementEnd : Bytes := ascii ";\n"

def literalText (text : Bytes) : Bytes := text.flatMap (fun symbol => Reader.markupText [symbol]) ++ markupEnd

theorem literalText_cons (symbol : UInt8) (text : Bytes) :
    literalText (symbol :: text) = Reader.markupText [symbol] ++ literalText text := by
  simp [literalText]

inductive Begins : Bytes → Bytes → Prop where
  | ended : Begins [] (34 :: statementEnd)
  | newline (rest : Bytes) : Begins (10 :: rest) (92 :: 110 :: (markupEnd ++ (markupBegin ++ literalText rest)))
  | tab (rest : Bytes) : Begins (9 :: rest) (92 :: 116 :: literalText rest)
  | quote (rest : Bytes) : Begins (34 :: rest) (92 :: 34 :: literalText rest)
  | backslash (rest : Bytes) : Begins (92 :: rest) (92 :: literalText rest)
  | ordinary (symbol : UInt8) (rest : Bytes) (plain : Ordinary symbol) (printed : symbol ≠ 10) :
      Begins (symbol :: rest) (symbol :: literalText rest)

theorem literalText_begins (text : Bytes) (clean : (13 : UInt8) ∉ text) : Begins text (literalText text) := by
  cases text with
  | nil => exact .ended
  | cons symbol rest =>
      rw [literalText_cons]
      by_cases newline : symbol = 10
      · subst newline
        exact .newline rest
      · by_cases tab : symbol = 9
        · subst tab
          exact .tab rest
        · by_cases quote : symbol = 34
          · subst quote
            exact .quote rest
          · have return_ : symbol ≠ 13 := fun same => clean (same ▸ List.mem_cons_self)
            have same : Reader.markupText [symbol] = [symbol] := by
              simp [Reader.markupText, newline, tab, quote, return_]
            rw [same]
            by_cases backslash : symbol = 92
            · subst backslash
              exact .backslash rest
            · exact .ordinary symbol rest ⟨backslash, quote⟩ newline

section Literals

variable {fuel : Nat} {rest bytes tail : Bytes}

theorem literals_ordinary (symbol : UInt8) (plain : Ordinary symbol) (printed : symbol ≠ 10) :
    literals markupBegin statementEnd (fuel + 1) (symbol :: rest) =
      (literals markupBegin statementEnd fuel rest).map (addFront [symbol]) := by
  simp only [literals, plain.2, printed, plain.1, if_false]

theorem literals_escape (known : escape rest = some (bytes, tail)) :
    literals markupBegin statementEnd (fuel + 1) (92 :: rest) =
      (literals markupBegin statementEnd fuel tail).map (addFront bytes) := by
  have other : ¬(92 : UInt8) = 34 ∧ ¬(92 : UInt8) = 10 := by decide
  simp only [literals, other.1, other.2, if_true, if_false, known]

theorem literals_end : literals markupBegin statementEnd (fuel + 1) markupEnd = some [[]] := by
  have split : markupEnd = 34 :: statementEnd := by decide
  rw [split]
  simp [literals]

theorem literals_newline :
    literals markupBegin statementEnd (fuel + 1) (markupEnd ++ (markupBegin ++ rest)) =
      (literals markupBegin statementEnd fuel rest).map (fun others => [] :: others) := by
  have split : markupEnd ++ (markupBegin ++ rest) = 34 :: (statementEnd ++ (markupBegin ++ rest)) := rfl
  have filled : markupBegin ++ rest ≠ [] := by simp [markupBegin, ascii]
  rw [split]
  simp [literals, filled]

theorem literals_front {written text : Bytes} (bytes : Bytes)
    (reads : ∃ list, literals markupBegin statementEnd fuel written = some list ∧ list.flatten = text) :
    ∃ list, (literals markupBegin statementEnd fuel written).map (addFront bytes) = some list ∧
      list.flatten = bytes ++ text := by
  obtain ⟨list, read, same⟩ := reads
  refine ⟨addFront bytes list, ?_, ?_⟩
  · rw [read]
    rfl
  · rw [addFront_flatten, same]

theorem literals_literalText (text : Bytes) (clean : (13 : UInt8) ∉ text) (plain : (92 : UInt8) ∉ text)
    (fuel : Nat) (enough : (literalText text).length ≤ fuel) :
    ∃ list, literals markupBegin statementEnd fuel (literalText text) = some list ∧ list.flatten = text := by
  induction text generalizing fuel with
  | nil =>
      obtain ⟨less, rfl⟩ := Nat.exists_eq_add_of_le' (le_trans (by decide : 1 ≤ (literalText []).length) enough)
      exact ⟨[[]], literals_end, rfl⟩
  | cons symbol rest ih =>
      have inside : (13 : UInt8) ∉ rest ∧ (92 : UInt8) ∉ rest :=
        ⟨fun member => clean (List.mem_cons_of_mem symbol member),
          fun member => plain (List.mem_cons_of_mem symbol member)⟩
      have begins := literalText_begins (symbol :: rest) clean
      generalize literalText (symbol :: rest) = written at begins enough
      cases begins with
      | newline =>
          simp only [List.length_cons, List.length_append] at enough
          obtain ⟨less, rfl⟩ := Nat.exists_eq_add_of_le' (by omega : 2 ≤ fuel)
          obtain ⟨list, read, same⟩ := ih inside.1 inside.2 less (by omega)
          rw [literals_escape rfl]
          refine literals_front [10] ⟨[] :: list, ?_, ?_⟩
          · rw [literals_newline, read]
            rfl
          · rw [List.flatten_cons, same]
            rfl
      | tab =>
          simp only [List.length_cons] at enough
          obtain ⟨less, rfl⟩ := Nat.exists_eq_add_of_le' (by omega : 1 ≤ fuel)
          rw [literals_escape rfl]
          exact literals_front [9] (ih inside.1 inside.2 less (by omega))
      | quote =>
          simp only [List.length_cons] at enough
          obtain ⟨less, rfl⟩ := Nat.exists_eq_add_of_le' (by omega : 1 ≤ fuel)
          rw [literals_escape rfl]
          exact literals_front [34] (ih inside.1 inside.2 less (by omega))
      | backslash => exact absurd List.mem_cons_self plain
      | ordinary _ _ usual printed =>
          simp only [List.length_cons] at enough
          obtain ⟨less, rfl⟩ := Nat.exists_eq_add_of_le' (by omega : 1 ≤ fuel)
          rw [literals_ordinary symbol usual printed]
          exact literals_front [symbol] (ih inside.1 inside.2 less (by omega))

theorem literalText_used (used text tail : Bytes) (clean : (13 : UInt8) ∉ text)
    (plain : ∀ symbol ∈ used, Ordinary symbol) (same : literalText text = used ++ tail) :
    ∃ rest, text = used ++ rest ∧ tail = literalText rest := by
  induction used generalizing text with
  | nil => exact ⟨text, rfl, same.symm⟩
  | cons symbol others ih =>
      have usual := plain symbol List.mem_cons_self
      have begins := literalText_begins text clean
      generalize literalText text = written at begins same
      rw [List.cons_append] at same
      cases begins with
      | ended => exact absurd (List.cons.inj same).1.symm usual.2
      | newline => exact absurd (List.cons.inj same).1.symm usual.1
      | tab => exact absurd (List.cons.inj same).1.symm usual.1
      | quote => exact absurd (List.cons.inj same).1.symm usual.1
      | backslash => exact absurd (List.cons.inj same).1.symm usual.1
      | ordinary first rest _ _ =>
          obtain ⟨rfl, later⟩ := List.cons.inj same
          obtain ⟨final, rfl, ends⟩ := ih rest (fun member => clean (List.mem_cons_of_mem first member))
            (fun other member => plain other (List.mem_cons_of_mem first member)) later
          exact ⟨final, rfl, ends⟩

theorem statementEnd_absent (text : Bytes) (clean : (13 : UInt8) ∉ text) :
    ¬statementEnd <+: literalText text := by
  rintro ⟨tail, same⟩
  have first : literalText text = [59] ++ (10 :: tail) := same.symm
  obtain ⟨rest, rfl, later⟩ := literalText_used [59] text (10 :: tail) clean
    (by
      intro symbol member
      rw [List.mem_singleton.mp member]
      exact ⟨by decide, by decide⟩) first
  have begins := literalText_begins rest (fun member => clean (List.mem_append_right _ member))
  rw [← later] at begins
  generalize written : 10 :: tail = line at begins
  cases begins with
  | ordinary symbol rest _ printed => exact printed (List.cons.inj written).1.symm
  | _ => exact absurd (List.cons.inj written).1 (by decide)

theorem literals_stop (absent : ¬statementEnd <+: rest) :
    literals markupBegin statementEnd fuel (34 :: rest) = none := by
  cases fuel with
  | zero => rfl
  | succ less => simp only [literals, if_true, absent, if_false]

theorem literals_statementEnd : literals markupBegin statementEnd fuel statementEnd = none := by
  have split : statementEnd = [59, 10] := by decide
  cases fuel with
  | zero => rfl
  | succ less =>
      have same := congrArg (literals markupBegin statementEnd (less + 1)) split
      rw [same, literals_ordinary 59 ⟨by decide, by decide⟩ (by decide)]
      cases less with
      | zero => rfl
      | succ less => simp [literals]

/-- Reading markup back loses a part of it, if it has a backslash. -/
def Lossy (text : Bytes) : Prop :=
  ∀ fuel list, literals markupBegin statementEnd fuel (literalText text) = some list →
    list.flatten.length ≤ text.length ∧ (list.flatten = text → (92 : UInt8) ∉ text)

theorem Lossy.front {text : Bytes} (lossy : Lossy text) (bytes : Bytes) (list : List Bytes)
    (read : (literals markupBegin statementEnd fuel (literalText text)).map (addFront bytes) = some list) :
    list.flatten.length ≤ bytes.length + text.length ∧
      ∃ inner : Bytes, list.flatten = bytes ++ inner ∧ (inner = text → (92 : UInt8) ∉ text) := by
  obtain ⟨inner, known, rfl⟩ := Option.map_eq_some_iff.mp read
  obtain ⟨short, same⟩ := lossy fuel inner known
  rw [addFront_flatten]
  exact ⟨by rw [List.length_append]; omega, inner.flatten, rfl, same⟩

theorem Lossy.front_newline {text : Bytes} (lossy : Lossy text) (symbol : UInt8) (list : List Bytes)
    (read : (literals markupBegin statementEnd fuel (markupEnd ++ (markupBegin ++ literalText text))).map
      (addFront [symbol]) = some list) :
    list.flatten.length ≤ 1 + text.length ∧
      ∃ inner : Bytes, list.flatten = symbol :: inner ∧ (inner = text → (92 : UInt8) ∉ text) := by
  cases fuel with
  | zero => cases read
  | succ less =>
      rw [literals_newline, Option.map_map] at read
      obtain ⟨inner, known, rfl⟩ := Option.map_eq_some_iff.mp read
      obtain ⟨short, same⟩ := lossy less inner known
      have flat : (addFront [symbol] ([] :: inner)).flatten = symbol :: inner.flatten := by
        rw [addFront_flatten]
        rfl
      simp only [Function.comp_apply, flat, List.length_cons]
      exact ⟨by omega, inner.flatten, rfl, same⟩

theorem lossy_kept {text : Bytes} {symbol : UInt8} {list : List Bytes} (plain : symbol ≠ 92)
    (read : list.flatten.length ≤ 1 + text.length ∧
      ∃ inner : Bytes, list.flatten = symbol :: inner ∧ (inner = text → (92 : UInt8) ∉ text)) :
    list.flatten.length ≤ (symbol :: text).length ∧
      (list.flatten = symbol :: text → (92 : UInt8) ∉ symbol :: text) := by
  obtain ⟨short, inner, flat, same⟩ := read
  refine ⟨by rw [List.length_cons]; omega, ?_⟩
  intro equal
  rw [flat] at equal
  rw [List.mem_cons, not_or]
  exact ⟨Ne.symm plain, same (List.cons.inj equal).2⟩

theorem lossy_double (text : Bytes) (clean : (13 : UInt8) ∉ text)
    (shorter : ∀ other : Bytes, other.length ≤ text.length → (13 : UInt8) ∉ other → Lossy other)
    (list : List Bytes) {tail : Bytes} (split : literalText text = [92] ++ tail)
    (read : (literals markupBegin statementEnd fuel tail).map (addFront [92]) = some list) :
    list.flatten.length ≤ (92 :: text).length ∧ list.flatten ≠ 92 :: text := by
  obtain ⟨inner, known, rfl⟩ := Option.map_eq_some_iff.mp read
  have begins := literalText_begins text clean
  rw [split] at begins
  generalize written : [92] ++ tail = line at begins
  rw [addFront_flatten]
  cases begins with
  | ended => exact absurd (List.cons.inj written).1 (by decide)
  | ordinary symbol rest plain _ => exact absurd (List.cons.inj written).1.symm plain.1
  | newline rest =>
      obtain ⟨_, rfl⟩ := List.cons.inj written
      cases fuel with
      | zero => cases known
      | succ less =>
          rw [literals_ordinary 110 ⟨by decide, by decide⟩ (by decide)] at known
          obtain ⟨short, others, flat, _⟩ := (shorter rest (by simp) (fun member =>
            clean (List.mem_cons_of_mem _ member))).front_newline 110 inner known
          refine ⟨by simp only [List.length_append, List.length_cons, List.length_nil]; omega, ?_⟩
          intro same
          rw [flat] at same
          exact absurd (List.cons.inj (List.cons.inj same).2).1 (by decide)
  | tab rest =>
      obtain ⟨_, rfl⟩ := List.cons.inj written
      cases fuel with
      | zero => cases known
      | succ less =>
          rw [literals_ordinary 116 ⟨by decide, by decide⟩ (by decide)] at known
          obtain ⟨short, others, flat, _⟩ := (shorter rest (by simp) (fun member =>
            clean (List.mem_cons_of_mem _ member))).front [116] inner known
          rw [List.length_singleton] at short
          refine ⟨by simp only [List.length_append, List.length_cons, List.length_nil]; omega, ?_⟩
          intro same
          rw [flat] at same
          exact absurd (List.cons.inj (List.cons.inj same).2).1 (by decide)
  | quote rest =>
      obtain ⟨_, rfl⟩ := List.cons.inj written
      rw [literals_stop (statementEnd_absent rest (fun member => clean (List.mem_cons_of_mem _ member)))] at known
      cases known
  | backslash rest =>
      obtain ⟨_, rfl⟩ := List.cons.inj written
      obtain ⟨short, _⟩ := shorter rest (by simp) (fun member => clean (List.mem_cons_of_mem _ member))
        fuel inner known
      refine ⟨by simp only [List.length_append, List.length_cons, List.length_nil]; omega, ?_⟩
      intro same
      have length := congrArg List.length same
      simp only [List.length_append, List.length_cons, List.length_nil] at length
      omega

theorem lossy_backslash (text : Bytes) (clean : (13 : UInt8) ∉ text)
    (shorter : ∀ other : Bytes, other.length ≤ text.length → (13 : UInt8) ∉ other → Lossy other)
    (list : List Bytes)
    (read : literals markupBegin statementEnd fuel (92 :: literalText text) = some list) :
    list.flatten.length ≤ (92 :: text).length ∧ list.flatten ≠ 92 :: text := by
  cases fuel with
  | zero => cases read
  | succ less =>
      cases known : escape (literalText text) with
      | none => simp [literals, known] at read
      | some result =>
          obtain ⟨bytes, tail⟩ := result
          rw [literals_escape known] at read
          obtain ⟨used, split, size, kind⟩ := (CppLiteral.escape_escapes _ _ _ known).split
          rcases kind with plain | ⟨rfl, rfl⟩ | ⟨rfl, rfl⟩
          · -- the escape takes symbols of the markup, and stands for fewer than these and the backslash
            obtain ⟨rest, rfl, rfl⟩ := literalText_used used text tail clean plain split
            obtain ⟨short, _⟩ := (shorter rest (by simp) (fun member =>
              clean (List.mem_append_right _ member))).front bytes list read
            have fewer : list.flatten.length < (92 :: (used ++ rest)).length := by
              rw [List.length_cons, List.length_append]
              omega
            exact ⟨fewer.le, fun same => by rw [same] at fewer; exact lt_irrefl _ fewer⟩
          · exact lossy_double text clean shorter list split read
          · -- the quote that ends the last literal is escaped
            have begins := literalText_begins text clean
            rw [split] at begins
            generalize written : [34] ++ tail = line at begins
            cases begins with
            | ended =>
                obtain ⟨_, rfl⟩ := List.cons.inj written
                rw [literals_statementEnd] at read
                cases read
            | ordinary symbol rest plain _ => exact absurd (List.cons.inj written).1.symm plain.2
            | _ => exact absurd (List.cons.inj written).1 (by decide)

theorem lossy (text : Bytes) (clean : (13 : UInt8) ∉ text) : Lossy text := by
  induction size : text.length using Nat.strong_induction_on generalizing text with
  | _ size ih =>
      subst size
      intro fuel list read
      have begins := literalText_begins text clean
      generalize literalText text = written at begins read
      have smaller : ∀ rest : Bytes, rest.length < text.length → (∀ symbol ∈ rest, symbol ∈ text) → Lossy rest :=
        fun rest less inside => ih rest.length less rest (fun member => clean (inside 13 member)) rfl
      cases fuel with
      | zero => cases read
      | succ less =>
          cases begins with
          | ended =>
              have ends : literals markupBegin statementEnd (less + 1) (34 :: statementEnd) = some [[]] :=
                literals_end
              rw [ends] at read
              cases read
              exact ⟨le_refl _, fun _ => by simp⟩
          | newline rest =>
              have inner := smaller rest (by simp) (fun _ member => List.mem_cons_of_mem _ member)
              rw [literals_escape rfl] at read
              exact lossy_kept (by decide) (inner.front_newline 10 list read)
          | tab rest =>
              have inner := smaller rest (by simp) (fun _ member => List.mem_cons_of_mem _ member)
              rw [literals_escape rfl] at read
              exact lossy_kept (by decide) (inner.front [9] list read)
          | quote rest =>
              have inner := smaller rest (by simp) (fun _ member => List.mem_cons_of_mem _ member)
              rw [literals_escape rfl] at read
              exact lossy_kept (by decide) (inner.front [34] list read)
          | ordinary symbol rest plain printed =>
              have inner := smaller rest (by simp) (fun _ member => List.mem_cons_of_mem _ member)
              rw [literals_ordinary symbol plain printed] at read
              exact lossy_kept plain.1 (inner.front [symbol] list read)
          | backslash rest =>
              obtain ⟨short, differs⟩ := lossy_backslash rest
                (fun member => clean (List.mem_cons_of_mem _ member))
                (fun other small fine => ih other.length (by simp; omega) other fine rfl) list read
              exact ⟨short, fun same => absurd same differs⟩

end Literals

section Page

variable (include_ : Bytes → Page → Except PageError Page) (location : Location)

theorem nextToken_markup (symbol : UInt8) (rest : Bytes) (noTag : ¬[60, 37] <:+: symbol :: rest) :
    nextToken (symbol :: rest) = ([symbol], rest) ∨
      ∃ after, symbol :: rest = closingTag ++ after ∧ nextToken (symbol :: rest) = (closingTag, after) := by
  have plain : ¬(symbol = 60 ∧ rest.head? = some 37) := by
    rintro ⟨rfl, second⟩
    obtain ⟨after, rfl⟩ := List.head?_eq_some_iff.mp second
    exact noTag ⟨[], after, rfl⟩
  simp only [nextToken, plain, if_false]
  split
  · next tag =>
      obtain ⟨rfl, second⟩ := tag
      obtain ⟨after, rfl⟩ := List.head?_eq_some_iff.mp second
      exact Or.inr ⟨after, rfl, rfl⟩
  · exact Or.inl rfl

theorem step_symbol (reader : Reader) (symbol : UInt8) (outside : reader.state = .markup) :
    reader.step include_ location [symbol] = .ok (reader.write (Reader.markupText [symbol])) := by
  have unknown : opens [symbol] = none := by simp [opens, openingTags, ascii]
  have inside : [symbol] ≠ closingTag := by simp [closingTag, ascii]
  rw [step_text unknown inside]
  simp only [Reader.text, outside]

theorem step_closingTag (reader : Reader) (outside : reader.state = .markup) :
    reader.step include_ location closingTag = .ok (reader.write closingTag) := by
  rw [step_close]
  simp only [Reader.close, outside]

theorem write_write (reader : Reader) (first second : Bytes) :
    (reader.write first).write second = reader.write (first ++ second) := by
  simp [Reader.write, Page.writeHandler]

theorem loop_markup (fuel : Nat) (text : Bytes) (enough : text.length ≤ fuel) (noTag : ¬[60, 37] <:+: text)
    (reader : Reader) (outside : reader.state = .markup) :
    Reader.loop include_ location fuel text reader =
      .ok (reader.write (text.flatMap (fun symbol => Reader.markupText [symbol]))) := by
  induction fuel generalizing text reader with
  | zero =>
      rw [List.eq_nil_of_length_eq_zero (Nat.le_zero.mp enough)]
      simp [Reader.loop, Reader.write, Page.writeHandler]
  | succ fuel ih =>
      cases text with
      | nil => simp [Reader.loop, nextToken, Reader.write, Page.writeHandler]
      | cons symbol rest =>
          rw [List.length_cons] at enough
          rcases nextToken_markup symbol rest noTag with token | ⟨after, split, token⟩
          · have later : ¬[60, 37] <:+: rest := fun tag => noTag (tag.trans (List.suffix_cons symbol rest).isInfix)
            simp only [Reader.loop, token, List.isEmpty_cons, step_symbol include_ location reader symbol outside]
            rw [if_neg (by simp), ih rest (by omega) later (reader.write _) outside, write_write]
            rfl
          · rw [split] at noTag token ⊢
            have length := congrArg List.length split
            rw [List.length_cons, List.length_append] at length
            have later : ¬[60, 37] <:+: after := fun tag =>
              noTag (tag.trans (List.suffix_append closingTag after).isInfix)
            have written : closingTag.flatMap (fun symbol => Reader.markupText [symbol]) = closingTag := by decide
            have filled : closingTag.isEmpty = false := by decide
            have two : closingTag.length = 2 := by decide
            simp only [Reader.loop, token, step_closingTag include_ location reader outside, filled]
            rw [if_neg (by simp), ih after (by omega) later (reader.write _) outside, write_write,
              List.flatMap_append, written]

theorem parse_markup (text : Bytes) (noTag : ¬[60, 37] <:+: text) (page : Page) :
    ∃ reader, parse include_ location text page = .ok reader ∧
      reader.page.handler = page.handler ++ (markupBegin ++ literalText text) := by
  have looped := loop_markup include_ location text.length text (le_refl _) noTag
    ⟨.markup, [], page.writeHandler markupBegin, []⟩ rfl
  refine ⟨Reader.write (Reader.write ⟨.markup, [], page.writeHandler markupBegin, []⟩
    (text.flatMap (fun symbol => Reader.markupText [symbol]))) markupEnd, ?_, ?_⟩
  · simp only [parse, looped]
    exact if_pos rfl
  · simp [Reader.write, Page.writeHandler, literalText]

end Page

theorem literalText_filter (text : Bytes) :
    literalText (text.filter (fun symbol => symbol != 13)) = literalText text := by
  induction text with
  | nil => rfl
  | cons symbol rest ih =>
      rw [List.filter_cons, literalText_cons]
      split
      · rw [literalText_cons, ih]
      · next dropped =>
          obtain rfl : symbol = 13 := by simpa using dropped
          rw [ih]
          rfl

theorem statements_markup (text : Bytes) :
    CppLiteral.statements markupBegin statementEnd (markupBegin ++ literalText text) =
      literals markupBegin statementEnd (markupBegin ++ literalText text).length (literalText text) := by
  simp [CppLiteral.statements]

/-- The literals of a page without tags, read by the rules of C++, are the page without its
carriage returns, if and only if it has no backslash. -/
theorem markup_preserved_iff (include_ : Bytes → Page → Except PageError Page) (location : Location)
    (text : Bytes) (noTag : ¬ascii "<%" <:+: text) (page : Page) :
    ∃ reader emitted, parse include_ location text page = .ok reader ∧
      reader.page.handler = page.handler ++ emitted ∧
      ((∃ list, statements markupBegin statementEnd emitted = some list ∧
          list.flatten = text.filter (fun symbol => symbol != 13)) ↔ (92 : UInt8) ∉ text) := by
  obtain ⟨reader, parsed, handler⟩ := parse_markup include_ location text noTag page
  refine ⟨reader, markupBegin ++ literalText text, parsed, handler, ?_⟩
  have clean : (13 : UInt8) ∉ text.filter (fun symbol => symbol != 13) := by simp
  have backslash : (92 : UInt8) ∉ text.filter (fun symbol => symbol != 13) ↔ (92 : UInt8) ∉ text := by simp
  rw [statements_markup, ← literalText_filter, ← backslash]
  constructor
  · rintro ⟨list, read, same⟩
    exact (lossy _ clean _ list read).2 same
  · intro plain
    exact literals_literalText _ clean plain _ (by rw [List.length_append]; omega)

/-- The text `say "%>"`, with a tab and two lines. -/
theorem markup_preserved_iff_say :
    ∃ reader emitted, parse (fun _ page => .ok page) ⟨ascii "say.cst", []⟩ (ascii "say\t\"%>\"\r\n.") Page.empty =
        .ok reader ∧
      reader.page.handler = Page.empty.handler ++ emitted ∧
      ((∃ list, statements markupBegin statementEnd emitted = some list ∧
          list.flatten = (ascii "say\t\"%>\"\r\n.").filter (fun symbol => symbol != 13)) ↔
        (92 : UInt8) ∉ ascii "say\t\"%>\"\r\n.") :=
  markup_preserved_iff (fun _ page => .ok page) ⟨ascii "say.cst", []⟩ (ascii "say\t\"%>\"\r\n.")
    (by decide +kernel) Page.empty

/-- The two symbols of `\n` in a page become a line feed, and a lone backslash leaves the last
literal open. -/
theorem markup_lost :
    ¬ascii "<%" <:+: ascii "\\n" ∧ ¬ascii "<%" <:+: ascii "\\" ∧
      ((parse (fun _ page => .ok page) ⟨ascii "path.cst", []⟩ (ascii "\\n") Page.empty).toOption.map
        (fun reader => statements markupBegin statementEnd reader.page.handler)) = some (some [[10]]) ∧
      [[10]].flatten ≠ (ascii "\\n").filter (fun symbol => symbol != 13) ∧
      ((parse (fun _ page => .ok page) ⟨ascii "path.cst", []⟩ (ascii "\\") Page.empty).toOption.map
        (fun reader => statements markupBegin statementEnd reader.page.handler)) = some none := by
  decide +kernel

end FastcgiContainer.PageCompiler
