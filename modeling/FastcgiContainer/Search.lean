import Mathlib.Tactic

/-! The first occurrence of a pattern in a sequence, as `std::search` reports it:
the length of the text stands for "not found". -/

namespace FastcgiContainer.Search

variable {α : Type}

def Occurs (pattern text : List α) (index : Nat) : Prop :=
  pattern <+: text.drop index

theorem occurs_bound (pattern text : List α) (index : Nat) (nonempty : pattern ≠ [])
    (here : Occurs pattern text index) : index + pattern.length ≤ text.length := by
  have length := here.length_le
  have positive : 0 < pattern.length := List.length_pos_of_ne_nil nonempty
  rw [List.length_drop] at length
  omega

theorem occurs_drop (pattern text : List α) (skip index : Nat) :
    Occurs pattern (text.drop skip) index ↔ Occurs pattern text (skip + index) := by
  simp [Occurs, List.drop_drop]

theorem occurs_take (pattern text : List α) (width index : Nat)
    (fits : index + pattern.length ≤ width) :
    Occurs pattern (text.take width) index ↔ Occurs pattern text index := by
  unfold Occurs
  rw [List.drop_take]
  constructor
  · intro here
    exact here.trans (List.take_prefix _ _)
  · intro here
    rw [List.prefix_take_iff]
    exact ⟨here, by omega⟩

theorem occurs_symbol (pattern text : List α) (index offset : Nat) (here : Occurs pattern text index)
    (inside : offset < pattern.length) : text[index + offset]? = pattern[offset]? := by
  obtain ⟨rest, same⟩ := here
  rw [← List.getElem?_drop, ← same, List.getElem?_append_left inside]

theorem not_occurs_front (symbol : α) (rest front back : List α) (absent : symbol ∉ front)
    (index : Nat) (inside : index < front.length) :
    ¬ Occurs (symbol :: rest) (front ++ back) index := by
  intro here
  have first := occurs_symbol _ _ _ 0 here (by simp)
  rw [Nat.add_zero, List.getElem?_append_left inside] at first
  exact absent (List.mem_of_getElem? first)

variable [DecidableEq α]

def search (pattern : List α) : List α → Nat
  | [] => 0
  | head :: tail =>
      if pattern.isPrefixOf (head :: tail) then 0 else search pattern tail + 1

instance (pattern text : List α) (index : Nat) : Decidable (Occurs pattern text index) :=
  inferInstanceAs (Decidable (pattern <+: text.drop index))

theorem search_le (pattern text : List α) : search pattern text ≤ text.length := by
  induction text with
  | nil => simp [search]
  | cons head tail ih =>
      unfold search
      split
      · omega
      · simpa using ih

theorem search_occurs (pattern text : List α) (found : search pattern text < text.length) :
    Occurs pattern text (search pattern text) := by
  induction text with
  | nil => simp at found
  | cons head tail ih =>
      unfold search at found ⊢
      split
      · next here => simpa [Occurs] using here
      · next absent =>
          rw [if_neg absent] at found
          exact ih (by simpa using found)

theorem search_first (pattern text : List α) (index : Nat)
    (before : index < search pattern text) : ¬ Occurs pattern text index := by
  induction text generalizing index with
  | nil => simp [search] at before
  | cons head tail ih =>
      unfold search at before
      split at before
      · omega
      · next absent =>
          cases index with
          | zero => simpa [Occurs] using absent
          | succ index => exact ih index (by omega)

theorem search_eq (pattern text : List α) (index : Nat) (nonempty : pattern ≠ [])
    (here : Occurs pattern text index)
    (first : ∀ earlier < index, ¬ Occurs pattern text earlier) :
    search pattern text = index := by
  have inside := occurs_bound pattern text index nonempty here
  have positive : 0 < pattern.length := List.length_pos_of_ne_nil nonempty
  rcases lt_trichotomy (search pattern text) index with before | same | after
  · exact absurd (search_occurs pattern text (by omega)) (first _ before)
  · exact same
  · exact absurd here (search_first pattern text index after)

theorem search_eq_length (pattern text : List α)
    (absent : ∀ index < text.length, ¬ Occurs pattern text index) :
    search pattern text = text.length := by
  rcases lt_or_eq_of_le (search_le pattern text) with found | same
  · exact absurd (search_occurs pattern text found) (absent _ found)
  · exact same

theorem search_long_pattern (pattern text : List α) (nonempty : pattern ≠ [])
    (long : text.length < pattern.length) : search pattern text = text.length := by
  apply search_eq_length
  intro index inside here
  have := occurs_bound pattern text index nonempty here
  omega

theorem search_bound (pattern text : List α) (nonempty : pattern ≠ [])
    (found : search pattern text < text.length) :
    search pattern text + pattern.length ≤ text.length :=
  occurs_bound pattern text _ nonempty (search_occurs pattern text found)

theorem search_take_found (pattern text : List α) (width : Nat) (nonempty : pattern ≠ [])
    (found : search pattern (text.take width) < (text.take width).length) :
    search pattern text = search pattern (text.take width) := by
  have here := search_occurs pattern (text.take width) found
  have inside := occurs_bound _ _ _ nonempty here
  have within : search pattern (text.take width) + pattern.length ≤ width := by
    rw [List.length_take] at inside
    omega
  apply search_eq pattern text _ nonempty ((occurs_take _ _ _ _ within).mp here)
  intro earlier before occurs
  exact search_first _ _ earlier before
    ((occurs_take pattern text width earlier (by omega)).mpr occurs)

/-- Where a leading block holds no match, the search may resume one pattern
length before the end of the block. -/
theorem search_take_absent (pattern text : List α) (width : Nat) (nonempty : pattern ≠ [])
    (inside : width ≤ text.length) (fits : pattern.length ≤ width)
    (absent : search pattern (text.take width) = width) :
    search pattern text =
      (width - pattern.length) + search pattern (text.drop (width - pattern.length)) := by
  have none : ∀ index < width - pattern.length, ¬ Occurs pattern text index := by
    intro index before occurs
    refine search_first pattern (text.take width) index (by omega) ?_
    exact (occurs_take pattern text width index (by omega)).mpr occurs
  generalize rest : text.drop (width - pattern.length) = tail
  have tailLength : tail.length = text.length - (width - pattern.length) := by
    rw [← rest, List.length_drop]
  rcases lt_or_eq_of_le (search_le pattern tail) with found | missing
  · have here := search_occurs pattern tail found
    rw [← rest, occurs_drop, rest] at here
    apply search_eq pattern text _ nonempty here
    intro earlier before occurs
    by_cases left : earlier < width - pattern.length
    · exact none earlier left occurs
    · refine search_first pattern tail (earlier - (width - pattern.length)) (by omega) ?_
      rw [← rest, occurs_drop]
      rwa [Nat.add_sub_cancel' (by omega)]
  · rw [missing, tailLength, Nat.add_sub_cancel' (by omega)]
    apply search_eq_length
    intro index inText occurs
    by_cases left : index < width - pattern.length
    · exact none index left occurs
    · refine search_first pattern tail (index - (width - pattern.length)) (by omega) ?_
      rw [← rest, occurs_drop]
      rwa [Nat.add_sub_cancel' (by omega)]

theorem search_singleton (symbol : α) (text : List α) :
    search [symbol] text = text.findIdx (fun other => other == symbol) := by
  induction text with
  | nil => rfl
  | cons head tail ih =>
      simp only [search, List.isPrefixOf, Bool.and_true, List.findIdx_cons, ih]
      by_cases same : head = symbol
      · simp [same]
      · have unequal : (head == symbol) = false := by simpa using same
        simp [unequal, Ne.symm same]

theorem search_skip (pattern front back : List α)
    (absent : ∀ index < front.length, ¬ Occurs pattern (front ++ back) index) :
    search pattern (front ++ back) = front.length + search pattern back := by
  induction front with
  | nil => simp
  | cons head tail ih =>
      have here : ¬ pattern.isPrefixOf (head :: (tail ++ back)) = true := by
        simpa [Occurs] using absent 0 (by simp)
      have rest := ih (by
        intro index inside occurs
        exact absent (index + 1) (by simpa using inside) (by simpa [Occurs] using occurs))
      simp only [List.cons_append, search, if_neg here, rest, List.length_cons]
      omega

theorem search_here (pattern back : List α) (nonempty : pattern ≠ []) :
    search pattern (pattern ++ back) = 0 :=
  search_eq pattern _ 0 nonempty (by simp [Occurs]) (by simp)

theorem search_missing (symbol : α) (rest text : List α) (absent : symbol ∉ text) :
    search (symbol :: rest) text = text.length := by
  apply search_eq_length
  intro index inside here
  have gone := not_occurs_front symbol rest text [] absent index inside
  rw [List.append_nil] at gone
  exact gone here

end FastcgiContainer.Search
