import Mathlib.Tactic
import Mathlib.Logic.Relation

/-! Ranks along a relation that has finitely many sources and no cycle. -/

namespace FastcgiContainer

open Relation (TransGen)

namespace Acyclic

variable {α : Type} (related : α → α → Prop) (sources : List α)

def ahead (node : α) : Set α := {other | other ∈ sources ∧ TransGen related node other}

open Classical in
noncomputable def rank (node : α) : Nat :=
  if node ∈ sources then 1 + (ahead related sources node).ncard else 0

theorem ahead_finite (node : α) : (ahead related sources node).Finite :=
  sources.finite_toSet.subset (fun _ member => member.1)

theorem rank_le (node : α) : rank related sources node ≤ 1 + {other | other ∈ sources}.ncard := by
  unfold rank
  split
  · have part : (ahead related sources node).ncard ≤ {other | other ∈ sources}.ncard :=
      Set.ncard_le_ncard (fun _ member => member.1) sources.finite_toSet
    omega
  · exact Nat.zero_le _

variable (source : ∀ node other, related node other → node ∈ sources)
  (acyclic : ∀ node, ¬ TransGen related node node)

include source acyclic

theorem rank_lt (node other : α) (edge : related node other) :
    rank related sources other < rank related sources node := by
  unfold rank
  rw [if_pos (source node other edge)]
  split
  · next further =>
      have less : (ahead related sources other).ncard < (ahead related sources node).ncard := by
        apply Set.ncard_lt_ncard _ (ahead_finite related sources node)
        rw [Set.ssubset_iff_of_subset]
        · exact ⟨other, ⟨further, TransGen.single edge⟩, fun member => acyclic other member.2⟩
        · intro last member
          exact ⟨member.1, TransGen.head edge member.2⟩
      omega
  · omega

end Acyclic

end FastcgiContainer
