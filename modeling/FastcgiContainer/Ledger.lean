import Mathlib.Tactic

/-! Items that pass from hand to hand: each that was taken in is held, and by one hand, until
it is closed, in one way. -/

namespace FastcgiContainer

/-- Items are numbered in the order in which they are taken in. `held` has one copy for each
hand that holds an item; an item is closed as one of several kinds. -/
structure Ledger (κ : Type) where
  taken : Nat
  held : Multiset Nat
  closed : κ → Set Nat

namespace Ledger

variable {κ : Type}

def closing (closed : κ → Set Nat) (kind : κ) (item : Nat) : κ → Set Nat :=
  fun other => {query | query ∈ closed other ∨ query = item ∧ other = kind}

/-- What may happen to the items. Passing one on changes nothing here. -/
inductive Step : Ledger κ → Ledger κ → Prop where
  | take (ledger : Ledger κ) :
      Step ledger { ledger with taken := ledger.taken + 1, held := ledger.taken ::ₘ ledger.held }
  | close (ledger : Ledger κ) {item : Nat} {others : Multiset Nat} (kind : κ)
      (present : ledger.held = item ::ₘ others) :
      Step ledger { ledger with held := others, closed := closing ledger.closed kind item }

abbrev Steps : Ledger κ → Ledger κ → Prop := Relation.ReflTransGen Step

structure Balanced (ledger : Ledger κ) : Prop where
  once : ledger.held.Nodup
  known : ∀ item ∈ ledger.held, item < ledger.taken
  taken : ∀ kind, ∀ item ∈ ledger.closed kind, item < ledger.taken
  either : ∀ item < ledger.taken, item ∈ ledger.held ↔ ∀ kind, item ∉ ledger.closed kind
  apart : ∀ item kind other, item ∈ ledger.closed kind → item ∈ ledger.closed other → kind = other

theorem balanced_empty : Balanced (⟨0, 0, fun _ => ∅⟩ : Ledger κ) :=
  ⟨Multiset.nodup_zero, fun _ member => absurd member (Multiset.notMem_zero _), nofun, nofun, nofun⟩

theorem Balanced.open {ledger : Ledger κ} (balanced : ledger.Balanced) {item : Nat} (held : item ∈ ledger.held)
    (kind : κ) : item ∉ ledger.closed kind :=
  (balanced.either item (balanced.known item held)).mp held kind

theorem Step.balanced {ledger next : Ledger κ} (step : Step ledger next) (before : ledger.Balanced) :
    next.Balanced := by
  cases step with
  | take =>
      have fresh : ledger.taken ∉ ledger.held := fun member => absurd (before.known _ member) (lt_irrefl _)
      have unclosed : ∀ kind, ledger.taken ∉ ledger.closed kind :=
        fun kind member => absurd (before.taken kind _ member) (lt_irrefl _)
      refine ⟨Multiset.nodup_cons.mpr ⟨fresh, before.once⟩, ?_, ?_, ?_, before.apart⟩
      · intro item member
        rcases Multiset.mem_cons.mp member with rfl | old
        · exact Nat.lt_succ_self _
        · exact Nat.lt_succ_of_lt (before.known item old)
      · exact fun kind item member => Nat.lt_succ_of_lt (before.taken kind item member)
      · intro item below
        rcases Nat.lt_succ_iff_lt_or_eq.mp below with old | rfl
        · rw [Multiset.mem_cons, or_iff_right (Nat.ne_of_lt old)]
          exact before.either item old
        · simp [unclosed]
  | @close item others kind present =>
      have once := before.once
      rw [present, Multiset.nodup_cons] at once
      have held : item ∈ ledger.held := present ▸ Multiset.mem_cons_self item others
      refine ⟨once.2, ?_, ?_, ?_, ?_⟩
      · exact fun other member => before.known other (present ▸ Multiset.mem_cons_of_mem member)
      · rintro kind other (member | ⟨rfl, -⟩)
        · exact before.taken kind other member
        · exact before.known other held
      · intro other below
        by_cases same : other = item
        · subst same
          have closed : other ∈ closing ledger.closed kind other kind := Or.inr ⟨rfl, rfl⟩
          exact ⟨fun member => absurd member once.1, fun none => absurd closed (none kind)⟩
        · have before := before.either other below
          rw [present, Multiset.mem_cons, or_iff_right same] at before
          simp [before, closing, same]
      · rintro query first second (left | ⟨rfl, rfl⟩) (right | ⟨equal, rfl⟩)
        · exact before.apart query first second left right
        · exact absurd left (equal ▸ before.open held first)
        · exact absurd right (before.open held second)
        · rfl

theorem Steps.balanced {ledger next : Ledger κ} (steps : Steps ledger next) (before : ledger.Balanced) :
    next.Balanced := by
  induction steps with
  | refl => exact before
  | tail _ step ih => exact step.balanced ih

theorem Steps.closed {ledger next : Ledger κ} (steps : Steps ledger next) (kind : κ) :
    ledger.closed kind ⊆ next.closed kind := by
  induction steps with
  | refl => exact subset_rfl
  | tail _ step ih =>
      cases step with
      | take => exact ih
      | close => exact ih.trans (fun _ member => Or.inl member)

end Ledger

theorem sum_set {α M : Type} [AddCommMonoid M] (weigh : α → M) (items : List α) (index : Nat) (old new : α)
    (here : items[index]? = some old) :
    ((items.set index new).map weigh).sum + weigh old = (items.map weigh).sum + weigh new := by
  induction items generalizing index with
  | nil => cases here
  | cons item rest ih =>
      cases index with
      | zero =>
          cases here
          simp only [List.set_cons_zero, List.map_cons, List.sum_cons]
          rw [add_right_comm, add_comm (weigh new), add_right_comm]
      | succ index =>
          simp only [List.set_cons_succ, List.map_cons, List.sum_cons]
          rw [add_assoc, ih index here, add_assoc]

theorem countP_set {α : Type} (has : α → Bool) (items : List α) (index : Nat) (old new : α)
    (here : items[index]? = some old) :
    (items.set index new).countP has + (has old).toNat = items.countP has + (has new).toNat := by
  induction items generalizing index with
  | nil => cases here
  | cons item rest ih =>
      cases index with
      | zero =>
          cases here
          simp only [List.set_cons_zero, List.countP_cons]
          cases has old <;> cases has new <;> simp
      | succ index =>
          have later := ih index here
          simp only [List.set_cons_succ, List.countP_cons]
          omega

end FastcgiContainer
