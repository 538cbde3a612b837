import Mathlib.Data.List.Chain

/-! A text as lines, which end with a pair of symbols: where a text is one line, and when
a block of lines comes apart into the same lines again. -/

namespace FastcgiContainer.Lines

variable {α : Type} [DecidableEq α] (cr lf : α)

def Plain (text : List α) : Prop := text.IsChain (fun left right => ¬ (left = cr ∧ right = lf))

instance (text : List α) : Decidable (Plain cr lf text) := inferInstanceAs (Decidable (List.IsChain _ _))

def prepend (symbol : α) : List (List α) → List (List α)
  | [] => [[symbol]]
  | first :: others => (symbol :: first) :: others

/-- What stands between the ends of lines; the last piece has none behind it. -/
def lines : List α → List (List α)
  | [] => [[]]
  | [symbol] => [[symbol]]
  | first :: second :: rest =>
      if first = cr ∧ second = lf then [] :: lines rest else prepend first (lines (second :: rest))

def joined (texts : List (List α)) : List α := texts.flatMap (fun text => text ++ [cr, lf])

omit [DecidableEq α] in
theorem prepend_length (symbol : α) {pieces : List (List α)} (some : pieces ≠ []) :
    (prepend symbol pieces).length = pieces.length := by
  cases pieces with
  | nil => exact absurd rfl some
  | cons first others => rfl

omit [DecidableEq α] in
theorem prepend_append (symbol : α) {pieces : List (List α)} (some : pieces ≠ [])
    (others : List (List α)) : prepend symbol (pieces ++ others) = prepend symbol pieces ++ others := by
  cases pieces with
  | nil => exact absurd rfl some
  | cons first rest => rfl

theorem lines_ne_nil (text : List α) : lines cr lf text ≠ [] := by
  fun_induction lines cr lf text with
  | case1 => simp
  | case2 symbol => simp
  | case3 first second rest ends ih => simp
  | case4 first second rest inside ih =>
      cases pieces : lines cr lf (second :: rest) with
      | nil => exact absurd pieces ih
      | cons => simp [prepend]

theorem lines_plain {text : List α} (plain : Plain cr lf text) : lines cr lf text = [text] := by
  fun_induction lines cr lf text with
  | case1 => rfl
  | case2 symbol => rfl
  | case3 first second rest ends ih => exact absurd ends (List.isChain_cons_cons.mp plain).1
  | case4 first second rest inside ih => rw [ih (List.isChain_cons_cons.mp plain).2, prepend]

theorem plain_of_lines {text : List α} (single : (lines cr lf text).length = 1) : Plain cr lf text := by
  fun_induction lines cr lf text with
  | case1 => exact List.isChain_nil
  | case2 symbol => exact List.isChain_singleton symbol
  | case3 first second rest ends ih =>
      have positive := List.length_pos_of_ne_nil (lines_ne_nil cr lf rest)
      simp only [List.length_cons] at single
      omega
  | case4 first second rest inside ih =>
      rw [prepend_length first (lines_ne_nil cr lf (second :: rest))] at single
      exact List.isChain_cons_cons.mpr ⟨inside, ih single⟩

theorem lines_append (differ : cr ≠ lf) (front back : List α) :
    lines cr lf (front ++ cr :: lf :: back) = lines cr lf front ++ lines cr lf back := by
  fun_induction lines cr lf front with
  | case1 => simp [lines]
  | case2 symbol => simp [lines, differ, prepend]
  | case3 first second rest ends ih => simp [lines, ends, ih]
  | case4 first second rest inside ih =>
      rw [List.cons_append] at ih
      rw [List.cons_append, List.cons_append, lines, if_neg inside, ih,
        prepend_append first (lines_ne_nil cr lf (second :: rest))]

theorem lines_joined (differ : cr ≠ lf) (texts : List (List α)) (rest : List α) :
    lines cr lf (joined cr lf texts ++ rest) = texts.flatMap (lines cr lf) ++ lines cr lf rest := by
  induction texts with
  | nil => rfl
  | cons text others ih =>
      have shape : joined cr lf (text :: others) ++ rest =
          text ++ cr :: lf :: (joined cr lf others ++ rest) := by simp [joined]
      rw [shape, lines_append cr lf differ, ih, List.flatMap_cons, List.append_assoc]

theorem lines_last (text : List α) (blank : (lines cr lf text).getLast? = some []) :
    text = [] ∨ text.getLast? = some lf := by
  fun_induction lines cr lf text with
  | case1 => exact Or.inl rfl
  | case2 symbol => simp at blank
  | case3 first second rest ends ih =>
      apply Or.inr
      rw [List.getLast?_cons_of_ne_nil (lines_ne_nil cr lf rest)] at blank
      rcases ih blank with rfl | last
      · simp [ends.2]
      · have some : rest ≠ [] := by
          rintro rfl
          cases last
        rw [List.getLast?_cons_cons, List.getLast?_cons_of_ne_nil some, last]
  | case4 first second rest inside ih =>
      apply Or.inr
      rw [List.getLast?_cons_cons]
      rcases pieces : lines cr lf (second :: rest) with _ | ⟨piece, _ | ⟨other, more⟩⟩
      · exact absurd pieces (lines_ne_nil cr lf (second :: rest))
      · simp [pieces, prepend] at blank
      · rw [pieces] at ih blank
        have last := (ih (by simpa [prepend] using blank)).resolve_left (by simp)
        exact last

def Framed (count : Nat) (text : List α) : Prop :=
  ∃ front, lines cr lf text = front ++ [[], []] ∧ (∀ line ∈ front, line ≠ []) ∧ front.length = count

theorem flatMap_lines_length (texts : List (List α)) :
    texts.length ≤ (texts.flatMap (lines cr lf)).length ∧
      ((texts.flatMap (lines cr lf)).length = texts.length → ∀ text ∈ texts, Plain cr lf text) := by
  induction texts with
  | nil => simp
  | cons text others ih =>
      obtain ⟨more, plain⟩ := ih
      have positive := List.length_pos_of_ne_nil (lines_ne_nil cr lf text)
      simp only [List.flatMap_cons, List.length_append, List.length_cons]
      refine ⟨by omega, ?_⟩
      intro same other member
      rcases List.mem_cons.mp member with rfl | later
      · exact plain_of_lines cr lf (by omega)
      · exact plain (by omega) other later

theorem flatMap_lines_plain {texts : List (List α)} (plain : ∀ text ∈ texts, Plain cr lf text) :
    texts.flatMap (lines cr lf) = texts := by
  induction texts with
  | nil => rfl
  | cons text others ih =>
      rw [List.flatMap_cons, lines_plain cr lf (plain text (by simp)),
        ih (fun other member => plain other (List.mem_cons_of_mem _ member)), List.singleton_append]

theorem framed_iff (differ : cr ≠ lf) (texts : List (List α)) (filled : ∀ text ∈ texts, text ≠ []) :
    Framed cr lf texts.length (joined cr lf texts ++ [cr, lf]) ↔ ∀ text ∈ texts, Plain cr lf text := by
  have ending : lines cr lf [cr, lf] = [[], []] := by simp [lines]
  unfold Framed
  rw [lines_joined cr lf differ, ending]
  constructor
  · rintro ⟨front, pieces, _, count⟩
    apply (flatMap_lines_length cr lf texts).2
    rw [List.append_cancel_right pieces, count]
  · intro plain
    exact ⟨texts, by rw [flatMap_lines_plain cr lf plain], filled, rfl⟩

theorem Framed.length_eq {count : Nat} {text : List α} (framed : Framed cr lf count text) :
    (lines cr lf text).length = count + 2 := by
  obtain ⟨front, pieces, _, amount⟩ := framed
  rw [pieces, List.length_append, amount]
  rfl

theorem not_framed {text : List α} {symbol : α} (last : text.getLast? = some symbol)
    (other : symbol ≠ lf) (count : Nat) : ¬ Framed cr lf count text := by
  rintro ⟨front, pieces, _⟩
  rcases lines_last cr lf text (by simp [pieces]) with rfl | ends
  · cases last
  · rw [last] at ends
    exact other (Option.some.inj ends)

omit [DecidableEq α] in
theorem plain_append {front back : List α} (apart : front.getLast? ≠ some cr ∨ back.head? ≠ some lf) :
    Plain cr lf (front ++ back) ↔ Plain cr lf front ∧ Plain cr lf back := by
  unfold Plain
  rw [List.isChain_append]
  constructor
  · exact fun all => ⟨all.1, all.2.1⟩
  · rintro ⟨left, right⟩
    refine ⟨left, right, ?_⟩
    rintro last ends first begins ⟨rfl, rfl⟩
    rcases apart with other | other
    · exact other ends
    · exact other begins

omit [DecidableEq α] in
theorem plain_of_absent {text : List α} (absent : cr ∉ text) : Plain cr lf text := by
  induction text with
  | nil => exact List.isChain_nil
  | cons first rest ih =>
      have others := ih (fun member => absent (List.mem_cons_of_mem _ member))
      cases rest with
      | nil => exact List.isChain_singleton first
      | cons second more =>
          refine List.isChain_cons_cons.mpr ⟨?_, others⟩
          rintro ⟨rfl, _⟩
          exact absent List.mem_cons_self

omit [DecidableEq α] in
theorem plain_iff (text : List α) : Plain cr lf text ↔ ¬[cr, lf] <:+: text := by
  rw [Plain, List.isChain_iff_forall_rel_of_append_cons_cons]
  constructor
  · rintro apart ⟨front, back, same⟩
    rw [List.append_assoc] at same
    exact apart same.symm ⟨rfl, rfl⟩
  · intro absent left right front back same ends
    obtain ⟨rfl, rfl⟩ := ends
    exact absent ⟨front, back, by rw [same, List.append_assoc]; rfl⟩

end FastcgiContainer.Lines
