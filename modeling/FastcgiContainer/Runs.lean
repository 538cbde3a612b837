import Mathlib.Data.List.Basic

/-! The maximal runs of a list: the pieces, as long as possible, all of whose elements are of
one kind. -/

namespace FastcgiContainer.Runs

variable {α : Type} (inside : α → Bool)

/-- The elements from `start` on up to `stop` are of the kind, and neither neighbour is. -/
structure IsRun (text : List α) (start stop : Nat) : Prop where
  filled : start < stop
  within : stop ≤ text.length
  all : ∀ place symbol, start ≤ place → place < stop → text[place]? = some symbol → inside symbol = true
  before : ∀ place symbol, place + 1 = start → text[place]? = some symbol → inside symbol = false
  after : ∀ symbol, text[stop]? = some symbol → inside symbol = false

def piece (text : List α) (place : Nat × Nat) : List α := (text.drop place.1).take (place.2 - place.1)

/-- The texts of all maximal runs, each once and in their order. -/
def AreRuns (text : List α) (pieces : List (List α)) : Prop :=
  ∃ places : List (Nat × Nat), places.Pairwise (fun left right => left.1 < right.1) ∧
    (∀ start stop, (start, stop) ∈ places ↔ IsRun inside text start stop) ∧ pieces = places.map (piece text)

def Apart (front back : List α) : Prop :=
  ∀ place left right, place + 1 = front.length → front[place]? = some left → back[0]? = some right →
    inside left = false ∨ inside right = false

variable {inside} {text front back : List α} {start stop : Nat}

theorem IsRun.symbol (run : IsRun inside text start stop) (place : Nat) (from_ : start ≤ place)
    (upTo : place < stop) : ∃ symbol, text[place]? = some symbol ∧ inside symbol = true := by
  have within := run.within
  have here : text[place]? = some text[place] := List.getElem?_eq_getElem (by omega)
  exact ⟨_, here, run.all place _ from_ upTo here⟩

theorem AreRuns.filled {pieces : List (List α)} (runs : AreRuns inside text pieces) : [] ∉ pieces := by
  obtain ⟨places, _, listed, rfl⟩ := runs
  intro member
  obtain ⟨⟨start, stop⟩, here, empty⟩ := List.mem_map.mp member
  have run := (listed start stop).mp here
  have order := run.filled
  have within := run.within
  have length := congrArg List.length empty
  simp only [piece, List.length_take, List.length_drop, List.length_nil] at length
  omega

theorem areRuns_none (outside : ∀ symbol ∈ text, inside symbol = false) : AreRuns inside text [] := by
  refine ⟨[], List.Pairwise.nil, ?_, rfl⟩
  intro start stop
  constructor
  · intro member
    cases member
  · intro run
    obtain ⟨symbol, here, kind⟩ := run.symbol start (Nat.le_refl start) run.filled
    rw [outside symbol (List.mem_of_getElem? here)] at kind
    cases kind

theorem areRuns_all (filled : text ≠ []) (kind : ∀ symbol ∈ text, inside symbol = true) :
    AreRuns inside text [text] := by
  have positive := List.length_pos_of_ne_nil filled
  refine ⟨[(0, text.length)], List.pairwise_singleton _ _, ?_, by simp [piece]⟩
  intro start stop
  rw [List.mem_singleton, Prod.mk.injEq]
  constructor
  · rintro ⟨rfl, rfl⟩
    refine ⟨positive, Nat.le_refl _, ?_, ?_, ?_⟩
    · intro place symbol _ _ here
      exact kind symbol (List.mem_of_getElem? here)
    · intro place symbol none
      cases none
    · intro symbol beyond
      rw [List.getElem?_eq_none (Nat.le_refl _)] at beyond
      cases beyond
  · intro run
    have within := run.within
    have order := run.filled
    constructor
    · by_contra later
      have here : text[start - 1]? = some text[start - 1] := List.getElem?_eq_getElem (by omega)
      have outer := run.before (start - 1) _ (by omega) here
      rw [kind _ (List.mem_of_getElem? here)] at outer
      cases outer
    · by_contra shorter
      have here : text[stop]? = some text[stop] := List.getElem?_eq_getElem (by omega)
      have outer := run.after _ here
      rw [kind _ (List.mem_of_getElem? here)] at outer
      cases outer

theorem isRun_front (apart : Apart inside front back) (early : stop ≤ front.length) :
    IsRun inside (front ++ back) start stop ↔ IsRun inside front start stop := by
  have same : ∀ place, place < front.length → (front ++ back)[place]? = front[place]? :=
    fun place bound => List.getElem?_append_left bound
  constructor
  · intro run
    have order := run.filled
    refine ⟨order, early, ?_, ?_, ?_⟩
    · intro place symbol from_ upTo here
      exact run.all place symbol from_ upTo ((same place (by omega)).trans here)
    · intro place symbol next here
      exact run.before place symbol next ((same place (by omega)).trans here)
    · intro symbol here
      exact run.after symbol ((same stop (List.getElem?_eq_some_iff.mp here).1).trans here)
  · intro run
    have order := run.filled
    refine ⟨order, by rw [List.length_append]; omega, ?_, ?_, ?_⟩
    · intro place symbol from_ upTo here
      exact run.all place symbol from_ upTo ((same place (by omega)).symm.trans here)
    · intro place symbol next here
      exact run.before place symbol next ((same place (by omega)).symm.trans here)
    · intro symbol here
      rcases Nat.lt_or_eq_of_le early with inner | whole
      · exact run.after symbol ((same stop inner).symm.trans here)
      · -- the run ends where the texts meet
        rw [List.getElem?_append_right (Nat.le_of_eq whole.symm), whole, Nat.sub_self] at here
        obtain ⟨last, found, kind⟩ := run.symbol (stop - 1) (by omega) (by omega)
        rcases apart (stop - 1) last symbol (by omega) found here with outer | outer
        · rw [kind] at outer
          cases outer
        · exact outer

theorem isRun_back (apart : Apart inside front back) :
    IsRun inside (front ++ back) (front.length + start) (front.length + stop) ↔ IsRun inside back start stop := by
  have same : ∀ place, (front ++ back)[front.length + place]? = back[place]? := by
    intro place
    rw [List.getElem?_append_right (Nat.le_add_right _ _), Nat.add_sub_cancel_left]
  constructor
  · intro run
    have order := run.filled
    have within := run.within
    rw [List.length_append] at within
    refine ⟨by omega, by omega, ?_, ?_, ?_⟩
    · intro place symbol from_ upTo here
      exact run.all (front.length + place) symbol (by omega) (by omega) ((same place).trans here)
    · intro place symbol next here
      exact run.before (front.length + place) symbol (by omega) ((same place).trans here)
    · intro symbol here
      exact run.after symbol ((same stop).trans here)
  · intro run
    have order := run.filled
    have within := run.within
    refine ⟨by omega, by rw [List.length_append]; omega, ?_, ?_, ?_⟩
    · intro place symbol from_ upTo here
      obtain ⟨offset, rfl⟩ := Nat.exists_eq_add_of_le (show front.length ≤ place by omega)
      exact run.all offset symbol (by omega) (by omega) ((same offset).symm.trans here)
    · intro place symbol next here
      by_cases old : front.length ≤ place
      · obtain ⟨offset, rfl⟩ := Nat.exists_eq_add_of_le old
        exact run.before offset symbol (by omega) ((same offset).symm.trans here)
      · -- the run begins where the texts meet
        rw [List.getElem?_append_left (by omega)] at here
        obtain ⟨first, found, kind⟩ := run.symbol 0 (by omega) (by omega)
        rcases apart place symbol first (by omega) here found with outer | outer
        · exact outer
        · rw [kind] at outer
          cases outer
    · intro symbol here
      exact run.after symbol ((same stop).symm.trans here)

theorem isRun_append (apart : Apart inside front back) :
    IsRun inside (front ++ back) start stop ↔ IsRun inside front start stop ∨
      ∃ first last, start = front.length + first ∧ stop = front.length + last ∧ IsRun inside back first last := by
  constructor
  · intro run
    by_cases early : stop ≤ front.length
    · exact Or.inl ((isRun_front apart early).mp run)
    · by_cases late : front.length ≤ start
      · obtain ⟨first, rfl⟩ := Nat.exists_eq_add_of_le late
        obtain ⟨last, rfl⟩ := Nat.exists_eq_add_of_le (show front.length ≤ stop by omega)
        exact Or.inr ⟨first, last, rfl, rfl, (isRun_back apart).mp run⟩
      · obtain ⟨left, leftFound, leftKind⟩ := run.symbol (front.length - 1) (by omega) (by omega)
        obtain ⟨right, rightFound, rightKind⟩ := run.symbol front.length (by omega) (by omega)
        rw [List.getElem?_append_left (by omega)] at leftFound
        rw [List.getElem?_append_right (Nat.le_refl _), Nat.sub_self] at rightFound
        rcases apart (front.length - 1) left right (by omega) leftFound rightFound with outer | outer
        · rw [leftKind] at outer
          cases outer
        · rw [rightKind] at outer
          cases outer
  · rintro (run | ⟨first, last, rfl, rfl, run⟩)
    · exact (isRun_front apart run.within).mpr run
    · exact (isRun_back apart).mpr run

theorem areRuns_append {first second : List (List α)} (apart : Apart inside front back)
    (left : AreRuns inside front first) (right : AreRuns inside back second) :
    AreRuns inside (front ++ back) (first ++ second) := by
  obtain ⟨starts, firstOrder, firstListed, rfl⟩ := left
  obtain ⟨later, secondOrder, secondListed, rfl⟩ := right
  have bounds : ∀ place ∈ starts, place.1 < place.2 ∧ place.2 ≤ front.length := by
    intro place member
    have run := (firstListed place.1 place.2).mp member
    exact ⟨run.filled, run.within⟩
  refine ⟨starts ++ later.map (fun place => (front.length + place.1, front.length + place.2)), ?_, ?_, ?_⟩
  · rw [List.pairwise_append]
    refine ⟨firstOrder, ?_, ?_⟩
    · rw [List.pairwise_map]
      exact secondOrder.imp (fun before => Nat.add_lt_add_left before _)
    · intro place member other moved
      obtain ⟨origin, _, rfl⟩ := List.mem_map.mp moved
      have inner := bounds place member
      simp only
      omega
  · intro start stop
    rw [isRun_append apart, List.mem_append, firstListed, List.mem_map]
    apply or_congr_right
    constructor
    · rintro ⟨⟨from_, upTo⟩, member, same⟩
      obtain ⟨rfl, rfl⟩ := Prod.mk.inj same
      exact ⟨from_, upTo, rfl, rfl, (secondListed from_ upTo).mp member⟩
    · rintro ⟨from_, upTo, rfl, rfl, run⟩
      exact ⟨(from_, upTo), (secondListed from_ upTo).mpr run, rfl⟩
  · rw [List.map_append, List.map_map]
    congr 1
    · apply List.map_congr_left
      intro place member
      have inner := bounds place member
      rw [piece, piece, List.drop_append_of_le_length (by omega),
        List.take_append_of_le_length (by rw [List.length_drop]; omega)]
    · apply List.map_congr_left
      intro place _
      rw [Function.comp, piece, piece, List.drop_length_add_append, Nat.add_sub_add_left]

end FastcgiContainer.Runs
