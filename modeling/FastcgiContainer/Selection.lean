import Mathlib.Tactic

/-! Choosing from a list by a test that may fail to decide: the first item that is taken, and
all of them. -/

namespace FastcgiContainer.Selection

variable {α β : Type}

/-- The first item that is taken, behind items that are refused. -/
inductive First (takes refuses : α → Prop) : List α → Option α → Prop where
  | nothing : First takes refuses [] none
  | here {item : α} {rest : List α} (taken : takes item) : First takes refuses (item :: rest) (some item)
  | later {item : α} {rest : List α} {found : Option α} (refused : refuses item)
      (after : First takes refuses rest found) : First takes refuses (item :: rest) found

/-- The items that are taken, where all others are refused. -/
inductive Every (takes refuses : α → Prop) : List α → List α → Prop where
  | nil : Every takes refuses [] []
  | taken {item : α} {rest chosen : List α} (taken : takes item) (after : Every takes refuses rest chosen) :
      Every takes refuses (item :: rest) (item :: chosen)
  | left {item : α} {rest chosen : List α} (refused : refuses item) (after : Every takes refuses rest chosen) :
      Every takes refuses (item :: rest) chosen

section Same

variable {takes refuses : α → Prop}

theorem first_none_iff (items : List α) : First takes refuses items none ↔ ∀ item ∈ items, refuses item := by
  induction items with
  | nil => exact ⟨fun _ => nofun, fun _ => .nothing⟩
  | cons item rest ih =>
      rw [List.forall_mem_cons]
      constructor
      · intro first
        cases first with
        | later refused after => exact ⟨refused, ih.mp after⟩
      · rintro ⟨refused, others⟩
        exact .later refused (ih.mpr others)

theorem first_some_iff (items : List α) (found : α) : First takes refuses items (some found) ↔
    ∃ front back, items = front ++ found :: back ∧ (∀ item ∈ front, refuses item) ∧ takes found := by
  induction items with
  | nil => exact ⟨nofun, by simp⟩
  | cons item rest ih =>
      constructor
      · intro first
        cases first with
        | here taken => exact ⟨[], rest, rfl, nofun, taken⟩
        | later refused after =>
            obtain ⟨front, back, rfl, others, taken⟩ := ih.mp after
            exact ⟨item :: front, back, rfl, List.forall_mem_cons.mpr ⟨refused, others⟩, taken⟩
      · rintro ⟨front, back, split, others, taken⟩
        cases front with
        | nil =>
            cases split
            exact .here taken
        | cons first front =>
            cases split
            rw [List.forall_mem_cons] at others
            exact .later others.1 (ih.mpr ⟨front, back, rfl, others.2, taken⟩)

end Same

structure Along (related : α → β → Prop) (takes refuses : α → Prop) (takes' refuses' : β → Prop) : Prop where
  taken : ∀ item other, related item other → (takes item ↔ takes' other)
  refused : ∀ item other, related item other → (refuses item ↔ refuses' other)

section Related

variable {related : α → β → Prop} {takes refuses : α → Prop} {takes' refuses' : β → Prop}

theorem Along.flip (along : Along related takes refuses takes' refuses') :
    Along (fun other item => related item other) takes' refuses' takes refuses :=
  ⟨fun other item pair => (along.taken item other pair).symm, fun other item pair => (along.refused item other pair).symm⟩

theorem First.transfer (along : Along related takes refuses takes' refuses') {items : List α} {others : List β}
    (pairs : List.Forall₂ related items others) {found : Option α} (first : First takes refuses items found) :
    ∃ other, Option.Rel related found other ∧ First takes' refuses' others other := by
  induction first generalizing others with
  | nothing =>
      cases pairs
      exact ⟨none, .none, .nothing⟩
  | here taken =>
      cases pairs with
      | cons pair _ => exact ⟨some _, .some pair, .here ((along.taken _ _ pair).mp taken)⟩
  | later refused _ ih =>
      cases pairs with
      | cons pair rest =>
          obtain ⟨other, same, after⟩ := ih rest
          exact ⟨other, same, .later ((along.refused _ _ pair).mp refused) after⟩

theorem Every.transfer (along : Along related takes refuses takes' refuses') {items : List α} {others : List β}
    (pairs : List.Forall₂ related items others) {chosen : List α} (every : Every takes refuses items chosen) :
    ∃ other, List.Forall₂ related chosen other ∧ Every takes' refuses' others other := by
  induction every generalizing others with
  | nil =>
      cases pairs
      exact ⟨[], .nil, .nil⟩
  | taken taken _ ih =>
      cases pairs with
      | cons pair rest =>
          obtain ⟨other, same, after⟩ := ih rest
          exact ⟨_ :: other, .cons pair same, .taken ((along.taken _ _ pair).mp taken) after⟩
  | left refused _ ih =>
      cases pairs with
      | cons pair rest =>
          obtain ⟨other, same, after⟩ := ih rest
          exact ⟨other, same, .left ((along.refused _ _ pair).mp refused) after⟩

end Related

end FastcgiContainer.Selection
