import FastcgiContainer.BasicCredentials
import FastcgiContainer.Runs

/-! The pieces that `StringUtils::split` appends: the fields of the text, and one more, an
empty one, if the text ends with the separator. -/

namespace FastcgiContainer.StringUtils

open Word (Bytes)
open Runs (Apart AreRuns areRuns_all areRuns_append areRuns_none)

def inField (c : UInt8) (symbol : UInt8) : Bool := symbol != c

/-- What the loop appends when it reaches the terminator outside of a field. -/
def lastPiece (c : UInt8) (text : Bytes) : List Bytes := if text.getLast?.any (inField c) then [] else [[]]

variable {c : UInt8}

theorem areRuns_separator {rest : Bytes} {fields : List Bytes} (later : AreRuns (inField c) rest fields) :
    AreRuns (inField c) (c :: rest) fields := by
  have separator : AreRuns (inField c) [c] [] := areRuns_none (by simp [inField])
  have apart : Apart (inField c) [c] rest := by
    intro place left right last here _
    rw [List.mem_singleton.mp (List.mem_of_getElem? here)]
    exact Or.inl (by simp [inField])
  exact areRuns_append apart separator later

theorem areRuns_field {piece rest : Bytes} {fields : List Bytes} (absent : c ∉ piece) (filled : piece ≠ [])
    (later : AreRuns (inField c) (c :: rest) fields) :
    AreRuns (inField c) (piece ++ c :: rest) (piece :: fields) := by
  have apart : Apart (inField c) piece (c :: rest) := by
    intro place left right last _ here
    cases here
    exact Or.inr (by simp [inField])
  exact areRuns_append apart (areRuns_all filled (Range.ne_of_absent absent)) later

theorem lastPiece_cons (text : Bytes) : lastPiece c (c :: text) = lastPiece c text := by
  cases text with
  | nil => simp [lastPiece, inField]
  | cons symbol rest => rw [lastPiece, List.getLast?_cons_cons, lastPiece]

theorem lastPiece_append (front : Bytes) {back : Bytes} (filled : back ≠ []) :
    lastPiece c (front ++ back) = lastPiece c back := by
  rw [lastPiece, List.getLast?_append_of_ne_nil _ filled, lastPiece]

theorem splitLoop_runs (fuel : Nat) (text : Bytes) (enough : text.length ≤ fuel) :
    ∃ fields, AreRuns (inField c) text fields ∧ splitLoop c fuel text = fields ++ lastPiece c text := by
  induction fuel generalizing text with
  | zero =>
      obtain rfl := List.eq_nil_of_length_eq_zero (Nat.le_zero.mp enough)
      exact ⟨[], areRuns_none (by simp), rfl⟩
  | succ fuel ih =>
      by_cases separated : c ∈ text
      · obtain ⟨piece, rest, rfl, absent⟩ := List.eq_append_cons_of_mem separated
        rw [List.length_append, List.length_cons] at enough
        obtain ⟨fields, runs, pieces⟩ := ih rest (by omega)
        have later := areRuns_separator runs
        rw [lastPiece_append piece (List.cons_ne_nil c rest), lastPiece_cons]
        by_cases filled : piece = []
        · subst filled
          refine ⟨fields, later, ?_⟩
          rw [List.nil_append, splitLoop, if_pos rfl, pieces]
        · refine ⟨piece :: fields, areRuns_field absent filled later, ?_⟩
          rw [splitLoop_piece absent filled, pieces, List.cons_append]
      · by_cases filled : text = []
        · subst filled
          exact ⟨[], areRuns_none (by simp), rfl⟩
        · refine ⟨[text], areRuns_all filled (Range.ne_of_absent separated), ?_⟩
          have last : inField c (text.getLast filled) = true :=
            Range.ne_of_absent separated _ (List.getLast_mem filled)
          rw [splitLoop_alone separated _ enough, lastPiece, List.getLast?_eq_some_getLast filled,
            Option.any_some, last]
          rfl

theorem split_runs (str : Bytes) (text : 0 ∉ str) :
    ∃ fields, AreRuns (inField c) str fields ∧
      split str c = fields ++ (if str.getLast? = some c then [[]] else []) := by
  have whole : str.takeWhile (fun symbol => symbol != 0) = str :=
    List.takeWhile_eq_self_iff.mpr (Range.ne_of_absent text)
  unfold split
  by_cases empty : str = []
  · subst empty
    exact ⟨[], areRuns_none (by simp), rfl⟩
  · obtain ⟨fields, runs, pieces⟩ := splitLoop_runs (c := c) str.length str (le_refl _)
    refine ⟨fields, runs, ?_⟩
    rw [if_neg (by simpa using empty), whole, pieces, lastPiece, List.getLast?_eq_some_getLast empty]
    by_cases ends : str.getLast empty = c <;> simp [inField, ends]

/-- The pieces are the maximal runs of symbols other than the separator, each once and in their
order, exactly where the text does not end with the separator. -/
theorem split_fields_iff (str : Bytes) (c : UInt8) (text : 0 ∉ str) :
    AreRuns (fun symbol => symbol != c) str (split str c) ↔ str.getLast? ≠ some c := by
  obtain ⟨fields, runs, pieces⟩ := split_runs (c := c) str text
  rw [pieces]
  constructor
  · intro exact_ ends
    rw [if_pos ends] at exact_
    exact exact_.filled (List.mem_append_right fields List.mem_cons_self)
  · intro ends
    rw [if_neg ends, List.append_nil]
    exact runs

theorem split_fields_iff_words :
    AreRuns (fun symbol => symbol != 32) (ascii "  Basic  Ym9i") (split (ascii "  Basic  Ym9i") 32) :=
  (split_fields_iff (ascii "  Basic  Ym9i") 32 (by decide +kernel)).mpr (by decide +kernel)

/-- A user name with the colon behind it, and a path with a slash at its end. -/
theorem split_trailing :
    (0 ∉ ascii "bob:" ∧ split (ascii "bob:") 58 = [ascii "bob", []] ∧
      ¬AreRuns (fun symbol => symbol != 58) (ascii "bob:") (split (ascii "bob:") 58)) ∧
    (0 ∉ ascii "/var/" ∧ split (ascii "/var/") 47 = [ascii "var", []] ∧
      ¬AreRuns (fun symbol => symbol != 47) (ascii "/var/") (split (ascii "/var/") 47)) := by
  have user : split (ascii "bob:") 58 = [ascii "bob", []] := by decide +kernel
  have path : split (ascii "/var/") 47 = [ascii "var", []] := by decide +kernel
  refine ⟨⟨by simp [ascii], user, ?_⟩, ⟨by simp [ascii], path, ?_⟩⟩
  · intro runs
    rw [user] at runs
    exact runs.filled (by simp)
  · intro runs
    rw [path] at runs
    exact runs.filled (by simp)

end FastcgiContainer.StringUtils
