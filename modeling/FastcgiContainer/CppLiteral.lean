import FastcgiContainer.Ctype
import Mathlib.Data.List.TakeWhile

/-! String literals of C++: the meaning of their escapes, and statements that consist of one
literal each between fixed texts. -/

namespace FastcgiContainer.CppLiteral

open Word (Bytes)

/-- `\'`, `\"`, `\?`, `\\`, `\a`, `\b`, `\f`, `\n`, `\r`, `\t` and `\v`. -/
def simpleEscapes : List (UInt8 × UInt8) :=
  [(39, 39), (34, 34), (63, 63), (92, 92), (97, 7), (98, 8), (102, 12), (110, 10), (114, 13), (116, 9),
    (118, 11)]

def isOctal (symbol : UInt8) : Bool := 48 ≤ symbol && symbol ≤ 55

def isHex (symbol : UInt8) : Bool :=
  (48 ≤ symbol && symbol ≤ 57) || (65 ≤ symbol && symbol ≤ 70) || (97 ≤ symbol && symbol ≤ 102)

def digit (symbol : UInt8) : Nat :=
  if symbol ≤ 57 then symbol.toNat - 48
  else if symbol ≤ 70 then symbol.toNat - 55
  else symbol.toNat - 87

def number (base : Nat) (digits : Bytes) : Nat :=
  digits.foldl (fun value symbol => base * value + digit symbol) 0

def byNumber (base : Nat) (digits rest : Bytes) : Option (Bytes × Bytes) :=
  if digits ≠ [] ∧ number base digits < 256 then some ([UInt8.ofNat (number base digits)], rest) else none

def byName (width : Nat) (text : Bytes) : Option (Bytes × Bytes) :=
  let digits := text.take width
  if digits.length = width ∧ digits.all isHex = true ∧ Nat.isValidChar (number 16 digits) then
    some (String.utf8EncodeChar (Char.ofNat (number 16 digits)), text.drop width)
  else none

def escape : Bytes → Option (Bytes × Bytes)
  | [] => none
  | symbol :: rest =>
      match (simpleEscapes.find? (fun entry => entry.1 == symbol)).map Prod.snd with
      | some value => some ([value], rest)
      | none =>
          if isOctal symbol then
            let digits := ((symbol :: rest).take 3).takeWhile isOctal
            byNumber 8 digits ((symbol :: rest).drop digits.length)
          else if symbol = 120 then byNumber 16 (rest.takeWhile isHex) (rest.dropWhile isHex)
          else if symbol = 117 then byName 4 rest
          else if symbol = 85 then byName 8 rest
          else none

def addFront (bytes : Bytes) : List Bytes → List Bytes
  | [] => [bytes]
  | first :: rest => (bytes ++ first) :: rest

/-- Reads from inside a literal on: the rest of the literal, and those of the statements that
follow. A statement has its literal between the opening text, which ends with the quote, and
the closing text behind the other quote. -/
def literals (opening closing : Bytes) : Nat → Bytes → Option (List Bytes)
  | 0, _ => none
  | _ + 1, [] => none
  | fuel + 1, symbol :: rest =>
      if symbol = 34 then
        if closing <+: rest then
          let rest := rest.drop closing.length
          if rest = [] then some [[]]
          else if opening <+: rest then
            (literals opening closing fuel (rest.drop opening.length)).map (fun others => [] :: others)
          else none
        else none
      else if symbol = 10 then none
      else if symbol = 92 then
        match escape rest with
        | none => none
        | some (bytes, rest) => (literals opening closing fuel rest).map (addFront bytes)
      else (literals opening closing fuel rest).map (addFront [symbol])

def statements (opening closing text : Bytes) : Option (List Bytes) :=
  if opening <+: text then literals opening closing text.length (text.drop opening.length) else none

/-- `??=`, `??/`, `??'`, `??(`, `??)`, `??!`, `??<`, `??>` and `??-`, by their last symbols. -/
def trigraphs : List (UInt8 × UInt8) :=
  [(61, 35), (47, 92), (39, 94), (40, 91), (41, 93), (33, 124), (60, 123), (62, 125), (45, 126)]

/-- What C++11 does with a text before anything else. -/
def replaceTrigraphs : Bytes → Bytes
  | first :: second :: last :: rest =>
      match (if first = 63 ∧ second = 63 then trigraphs.find? (fun entry => entry.1 == last) else none) with
      | some entry => entry.2 :: replaceTrigraphs rest
      | none => first :: replaceTrigraphs (second :: last :: rest)
  | text => text

/-- No two question marks follow each other, so that nothing is replaced. -/
abbrev SingleMarks (text : Bytes) : Prop := text.IsChain (fun left right => ¬(left = 63 ∧ right = 63))

theorem replaceTrigraphs_eq {text : Bytes} (single : SingleMarks text) : replaceTrigraphs text = text := by
  induction text with
  | nil => rfl
  | cons first text ih =>
      have later := ih single.tail
      match text with
      | [] => rfl
      | [second] => rfl
      | second :: last :: rest =>
          have differ : ¬(first = 63 ∧ second = 63) := single.rel
          rw [replaceTrigraphs, if_neg differ, later]

theorem SingleMarks.append {left right : Bytes} (first : SingleMarks left) (later : SingleMarks right)
    (apart : left.getLast? ≠ some 63 ∨ right.head? ≠ some 63) : SingleMarks (left ++ right) := by
  refine List.isChain_append.mpr ⟨first, later, ?_⟩
  rintro symbol last other head ⟨rfl, rfl⟩
  exact apart.elim (fun differs => differs last) (fun differs => differs head)

theorem addFront_flatten (bytes : Bytes) (list : List Bytes) :
    (addFront bytes list).flatten = bytes ++ list.flatten := by
  cases list with
  | nil => simp [addFront]
  | cons first rest => simp [addFront]

def Ordinary (symbol : UInt8) : Prop := symbol ≠ 92 ∧ symbol ≠ 34

theorem isOctal_ordinary (symbol : UInt8) (octal : isOctal symbol = true) : Ordinary symbol := by
  constructor
  · rintro rfl
    cases octal
  · rintro rfl
    cases octal

theorem isHex_ordinary (symbol : UInt8) (hex : isHex symbol = true) : Ordinary symbol := by
  constructor
  · rintro rfl
    cases hex
  · rintro rfl
    cases hex

/-- How an escape may be written: with ordinary symbols, no fewer than it stands for, or with a
second backslash or a quote, which then stand for themselves. -/
structure Escapes (text bytes rest : Bytes) : Prop where
  split : ∃ used, text = used ++ rest ∧ bytes.length ≤ used.length ∧
    ((∀ symbol ∈ used, Ordinary symbol) ∨ used = [92] ∧ bytes = [92] ∨ used = [34] ∧ bytes = [34])

theorem byNumber_escapes (base : Nat) (lead digits rest bytes tail : Bytes)
    (plain : ∀ symbol ∈ lead ++ digits, Ordinary symbol)
    (done : byNumber base digits rest = some (bytes, tail)) : Escapes (lead ++ digits ++ rest) bytes tail := by
  unfold byNumber at done
  split at done
  · next valid =>
      cases done
      refine ⟨⟨lead ++ digits, rfl, ?_, Or.inl plain⟩⟩
      have positive := List.length_pos_of_ne_nil valid.1
      rw [List.length_append, List.length_singleton]
      omega
  · cases done

theorem byName_escapes (width : Nat) (symbol : UInt8) (rest bytes tail : Bytes) (plain : Ordinary symbol)
    (wide : 4 ≤ width) (done : byName width rest = some (bytes, tail)) :
    Escapes (symbol :: rest) bytes tail := by
  simp only [byName] at done
  split at done
  · next valid =>
      cases done
      refine ⟨⟨symbol :: rest.take width, by simp, ?_, Or.inl ?_⟩⟩
      · have size := Char.utf8Size_le_four (Char.ofNat (number 16 (rest.take width)))
        rw [String.length_utf8EncodeChar, List.length_cons, valid.1]
        omega
      · intro other member
        rcases List.mem_cons.mp member with rfl | inside
        · exact plain
        · exact isHex_ordinary other (List.all_eq_true.mp valid.2.1 other inside)
  · cases done

theorem escape_escapes (text bytes rest : Bytes) (done : escape text = some (bytes, rest)) :
    Escapes text bytes rest := by
  cases text with
  | nil => cases done
  | cons symbol tail =>
      simp only [escape] at done
      split at done
      · next value found =>
          cases done
          obtain ⟨entry, listed, rfl⟩ := Option.map_eq_some_iff.mp found
          have same : entry.1 = symbol := by simpa using List.find?_some listed
          have all : ∀ entry ∈ simpleEscapes, (entry.1 ≠ 92 ∧ entry.1 ≠ 34) ∨
              entry.1 = 92 ∧ entry.2 = 92 ∨ entry.1 = 34 ∧ entry.2 = 34 := by simp [simpleEscapes]
          refine ⟨⟨[symbol], rfl, by simp, ?_⟩⟩
          rcases all entry (List.mem_of_find?_eq_some listed) with plain | ⟨first, second⟩ | ⟨first, second⟩
          · refine Or.inl ?_
            intro other member
            rw [List.mem_singleton.mp member, ← same]
            exact plain
          · exact Or.inr (Or.inl ⟨by rw [← same, first], by rw [second]⟩)
          · exact Or.inr (Or.inr ⟨by rw [← same, first], by rw [second]⟩)
      · split at done
        · have digits := List.prefix_iff_eq_append.mp
            ((List.takeWhile_prefix isOctal (l := (symbol :: tail).take 3)).trans (List.take_prefix 3 _))
          rw [← digits]
          apply byNumber_escapes 8 [] _ _ _ _ _ done
          intro other member
          exact isOctal_ordinary other (List.mem_takeWhile_imp member)
        · split at done
          · next same =>
              subst same
              have digits := List.takeWhile_append_dropWhile (p := isHex) (l := tail)
              rw [← digits]
              apply byNumber_escapes 16 [120] _ _ _ _ _ done
              intro other member
              rcases List.mem_append.mp member with lead | inside
              · rw [List.mem_singleton.mp lead]
                exact ⟨by decide, by decide⟩
              · exact isHex_ordinary other (List.mem_takeWhile_imp inside)
          · split at done
            · next same =>
                subst same
                exact byName_escapes 4 117 tail bytes rest ⟨by decide, by decide⟩ (le_refl _) done
            · split at done
              · next same =>
                  subst same
                  exact byName_escapes 8 85 tail bytes rest ⟨by decide, by decide⟩ (by decide) done
              · cases done

end FastcgiContainer.CppLiteral
