import Mathlib.Tactic
import Mathlib.Logic.Relation

/-! Orders in which every node stands behind its successors. -/

namespace FastcgiContainer

open Relation (TransGen)

variable {α : Type} {next : α → α → Prop} {order : List α} {node : α}

def Postorder (next : α → α → Prop) (order : List α) : Prop :=
  ∀ before node after, order = before ++ node :: after → ∀ other, next node other → other ∈ before

namespace Postorder

theorem nil : Postorder next [] := by
  intro before node after split
  simp at split

theorem push (sorted : Postorder next order) (ready : ∀ other, next node other → other ∈ order) :
    Postorder next (order ++ [node]) := by
  intro before found after split
  rcases List.eq_nil_or_concat after with rfl | ⟨rest, last, rfl⟩
  · obtain ⟨same, equal⟩ := List.append_inj' split rfl
    cases equal
    rw [← same]
    exact ready
  · have shorter : order = before ++ found :: rest := by
      have split' : order ++ [node] = (before ++ found :: rest) ++ [last] := by
        rw [split]
        simp
      exact (List.append_inj' split' rfl).1
    exact sorted before found rest shorter

theorem init (sorted : Postorder next (order ++ [node])) : Postorder next order := by
  intro before found after split
  exact sorted before found (after ++ [node]) (by rw [split]; simp)

theorem sublist (sorted : Postorder next order) (member : node ∈ order) {other : α}
    (edge : next node other) : [other, node].Sublist order := by
  obtain ⟨before, after, rfl⟩ := List.append_of_mem member
  have earlier : other ∈ before := sorted before node after rfl other edge
  exact (List.singleton_sublist.mpr earlier).append (List.singleton_sublist.mpr List.mem_cons_self)

theorem acc (sorted : Postorder next order) (member : node ∈ order) :
    Acc (fun left right => next right left) node := by
  induction order using List.reverseRecOn generalizing node with
  | nil => simp at member
  | append_singleton order last ih =>
      have older : ∀ other ∈ order, Acc (fun left right => next right left) other :=
        fun other known => ih sorted.init known
      rcases List.mem_append.mp member with known | new
      · exact older node known
      · obtain rfl := List.mem_singleton.mp new
        constructor
        intro other edge
        exact older other (sorted order node [] rfl other edge)

theorem acyclic (sorted : Postorder next order) (member : node ∈ order) :
    ¬TransGen next node node := by
  intro cycle
  have descends := (sorted.acc member).transGen
  have back : TransGen (fun left right => next right left) node node := cycle.swap
  generalize same : node = other at descends
  clear member
  induction descends with
  | intro here _ ih =>
      subst same
      exact ih node back rfl

end Postorder

theorem not_sublist_swap {left right : α} (once : order.Nodup) (forward : [left, right].Sublist order) :
    ¬[right, left].Sublist order := by
  induction order with
  | nil => cases forward
  | cons head rest ih =>
      intro backward
      obtain ⟨fresh, unique⟩ := List.nodup_cons.mp once
      cases forward with
      | cons _ first =>
          cases backward with
          | cons _ second => exact ih unique first second
          | cons_cons _ second => exact fresh (first.subset (by simp))
      | cons_cons _ first =>
          have member : right ∈ rest := List.singleton_sublist.mp first
          cases backward with
          | cons _ second => exact fresh (second.subset (by simp))
          | cons_cons _ second => exact fresh member

end FastcgiContainer
