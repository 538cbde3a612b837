import FastcgiContainer.OrderedMap

/-! Values written under names, one after the other, and maps from the keys of the elements of a
list. -/

namespace FastcgiContainer.Writes

section Writes

variable {K V : Type} [DecidableEq K]

def writeAll (store : K → Option V) (writes : List (K × V)) : K → Option V :=
  writes.foldl (fun store write => Function.update store write.1 (some write.2)) store

theorem writeAll_append (store : K → Option V) (first later : List (K × V)) :
    writeAll store (first ++ later) = writeAll (writeAll store first) later := List.foldl_append

theorem writeAll_other (store : K → Option V) (writes : List (K × V)) (key : K)
    (absent : ∀ write ∈ writes, write.1 ≠ key) : writeAll store writes key = store key := by
  induction writes generalizing store with
  | nil => rfl
  | cons write rest ih =>
      have here := absent write List.mem_cons_self
      rw [writeAll, List.foldl_cons]
      refine (ih _ (fun other member => absent other (List.mem_cons_of_mem write member))).trans ?_
      exact Function.update_of_ne (Ne.symm here) _ _

theorem writeAll_mem (store : K → Option V) (writes : List (K × V)) (distinct : (writes.map Prod.fst).Nodup)
    {write : K × V} (member : write ∈ writes) : writeAll store writes write.1 = some write.2 := by
  obtain ⟨before, after, rfl⟩ := List.append_of_mem member
  have absent : ∀ other ∈ after, other.1 ≠ write.1 := by
    intro other later same
    rw [List.map_append, List.map_cons] at distinct
    have apart := (List.nodup_cons.mp (List.Nodup.of_append_right distinct)).1
    exact apart (List.mem_map.mpr ⟨other, later, same⟩)
  have split : before ++ write :: after = (before ++ [write]) ++ after := by simp
  rw [split, writeAll_append, writeAll_other _ after write.1 absent, writeAll_append]
  exact Function.update_self _ _ _

end Writes

section Indexes

variable {α K V : Type} {less : K → K → Bool}

/-- A map that leads from the keys of elements, which are different, to their values. -/
structure Indexes [DecidableEq K] (map : OrderedMap K V less) (list : List α) (key : α → Option K) (value : α → V) :
    Prop where
  found : ∀ name, map.find? name = (list.find? (fun entry => key entry == some name)).map value
  distinct : (list.filterMap key).Nodup

variable [DecidableEq K] {map : OrderedMap K V less} {list : List α} {key : α → Option K} {value : α → V}

theorem Indexes.empty : Indexes (OrderedMap.empty : OrderedMap K V less) ([] : List α) key value :=
  ⟨fun _ => rfl, List.nodup_nil⟩

theorem Indexes.absent_iff (indexes : Indexes map list key value) (name : K) :
    map.find? name = none ↔ ∀ entry ∈ list, key entry ≠ some name := by
  rw [indexes.found, Option.map_eq_none_iff, List.find?_eq_none]
  simp

theorem Indexes.present (indexes : Indexes map list key value) {name : K} {known : V}
    (here : map.find? name = some known) : ∃ entry ∈ list, key entry = some name ∧ known = value entry := by
  rw [indexes.found] at here
  obtain ⟨entry, listed, rfl⟩ := Option.map_eq_some_iff.mp here
  exact ⟨entry, List.mem_of_find?_eq_some listed, by simpa using List.find?_some listed, rfl⟩

theorem Indexes.concat_none (indexes : Indexes map list key value) {entry : α} (unnamed : key entry = none) :
    Indexes map (list ++ [entry]) key value := by
  constructor
  · intro name
    rw [indexes.found, List.find?_append]
    simp [unnamed]
  · rw [List.filterMap_append]
    simpa [unnamed] using indexes.distinct

theorem Indexes.concat [KeyOrder less]
    (exact_ : ∀ left right, OrderedMap.equivalent less left right = true → left = right)
    (indexes : Indexes map list key value) {entry : α} {name : K} (named : key entry = some name)
    (free : map.find? name = none) : Indexes (map.assign name (value entry)) (list ++ [entry]) key value := by
  have absent := (indexes.absent_iff name).mp free
  constructor
  · intro other
    rw [OrderedMap.find?_assign exact_, List.find?_append]
    by_cases same : name = other
    · subst same
      have missed : list.find? (fun entry => key entry == some name) = none := by
        rw [List.find?_eq_none]
        simpa using absent
      simp [missed, named]
    · have differ : (some name == some other) = false := by simpa using same
      rw [if_neg same, indexes.found, List.find?_cons, named, differ, List.find?_nil, Option.or_none]
  · have single : [entry].filterMap key = [name] := by simp [named]
    rw [List.filterMap_append, single, List.nodup_append']
    refine ⟨indexes.distinct, List.nodup_singleton name, ?_⟩
    rw [List.disjoint_singleton]
    intro member
    obtain ⟨other, listed, same⟩ := List.mem_filterMap.mp member
    exact absent other listed same

end Indexes

end FastcgiContainer.Writes
