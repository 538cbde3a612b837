import Mathlib.Tactic
import Mathlib.Data.List.Lex

/-! Ordered maps in the manner of `std::map`: an association list kept sorted by
a strict comparison of keys, so that iteration order is part of the value. -/

namespace FastcgiContainer

/-- The comparisons that may order a map. -/
class KeyOrder {α : Type} (less : α → α → Bool) : Prop where
  irrefl : ∀ key, less key key = false
  trans : ∀ first second third, less first second = true → less second third = true →
    less first third = true

@[ext] structure OrderedMap (α β : Type) (less : α → α → Bool) where
  entries : List (α × β)
  sorted : entries.Pairwise (fun left right => less left.1 right.1 = true)

namespace OrderedMap

variable {α β : Type} {less : α → α → Bool}

instance [DecidableEq α] [DecidableEq β] : DecidableEq (OrderedMap α β less) :=
  fun left right => decidable_of_iff (left.entries = right.entries) OrderedMap.ext_iff.symm

def empty : OrderedMap α β less := ⟨[], List.Pairwise.nil⟩

instance : Inhabited (OrderedMap α β less) := ⟨empty⟩

@[simp] theorem empty_entries : (empty : OrderedMap α β less).entries = [] := rfl

/-- Keys are equivalent when neither precedes the other. -/
def equivalent (less : α → α → Bool) (left right : α) : Bool :=
  !less left right && !less right left

theorem equivalent_symm {left right : α} (same : equivalent less left right = true) :
    equivalent less right left = true := by
  rw [equivalent, Bool.and_comm]
  exact same

def lookup (less : α → α → Bool) (entries : List (α × β)) (key : α) : Option β :=
  (entries.find? (fun entry => equivalent less entry.1 key)).map Prod.snd

def find? (map : OrderedMap α β less) (key : α) : Option β := lookup less map.entries key

/-- Places an entry in key order; an equivalent key already present keeps its
spelling, and keeps its value unless `overwrite` is set. -/
def placeEntry (less : α → α → Bool) (overwrite : Bool) (key : α) (value : β) :
    List (α × β) → List (α × β)
  | [] => [(key, value)]
  | (other, current) :: rest =>
      if less other key then (other, current) :: placeEntry less overwrite key value rest
      else if less key other then (key, value) :: (other, current) :: rest
      else (other, if overwrite then value else current) :: rest

theorem placeEntry_key (overwrite : Bool) (key : α) (value : β) (entries : List (α × β))
    (entry : α × β) (member : entry ∈ placeEntry less overwrite key value entries) :
    entry.1 = key ∨ ∃ old ∈ entries, old.1 = entry.1 := by
  induction entries with
  | nil =>
      simp only [placeEntry, List.mem_singleton] at member
      exact Or.inl (congrArg Prod.fst member)
  | cons head rest ih =>
      obtain ⟨other, current⟩ := head
      unfold placeEntry at member
      split at member
      · rcases List.mem_cons.mp member with rfl | later
        · exact Or.inr ⟨(other, current), by simp, rfl⟩
        · rcases ih later with same | ⟨old, inside, same⟩
          · exact Or.inl same
          · exact Or.inr ⟨old, by simp [inside], same⟩
      · split at member
        · rcases List.mem_cons.mp member with rfl | later
          · exact Or.inl rfl
          · exact Or.inr ⟨entry, later, rfl⟩
        · rcases List.mem_cons.mp member with rfl | later
          · exact Or.inr ⟨(other, current), by simp, rfl⟩
          · exact Or.inr ⟨entry, by simp [later], rfl⟩

theorem placeEntry_sorted [KeyOrder less] (overwrite : Bool) (key : α) (value : β)
    (entries : List (α × β))
    (sorted : entries.Pairwise (fun left right => less left.1 right.1 = true)) :
    (placeEntry less overwrite key value entries).Pairwise
      (fun left right => less left.1 right.1 = true) := by
  induction entries with
  | nil => simp [placeEntry]
  | cons head rest ih =>
      obtain ⟨other, current⟩ := head
      obtain ⟨front, tail⟩ := List.pairwise_cons.mp sorted
      unfold placeEntry
      split
      · next before =>
          refine List.pairwise_cons.mpr ⟨?_, ih tail⟩
          intro entry member
          rcases placeEntry_key overwrite key value rest entry member with same | ⟨old, inside, same⟩
          · simpa [same] using before
          · simpa [same] using front old inside
      · split
        · next after =>
            refine List.pairwise_cons.mpr ⟨?_, sorted⟩
            intro entry member
            rcases List.mem_cons.mp member with rfl | later
            · exact after
            · exact KeyOrder.trans key other entry.1 after (front entry later)
        · exact List.pairwise_cons.mpr ⟨front, tail⟩

/-- `std::map::insert`: an existing entry wins. -/
def insert [KeyOrder less] (map : OrderedMap α β less) (key : α) (value : β) :
    OrderedMap α β less :=
  ⟨placeEntry less false key value map.entries, placeEntry_sorted _ _ _ _ map.sorted⟩

/-- Assignment through `operator[]`: the new value wins. -/
def assign [KeyOrder less] (map : OrderedMap α β less) (key : α) (value : β) :
    OrderedMap α β less :=
  ⟨placeEntry less true key value map.entries, placeEntry_sorted _ _ _ _ map.sorted⟩

theorem placeEntry_last (overwrite : Bool) (key : α) (value : β) (entries : List (α × β))
    (last : ∀ entry ∈ entries, less entry.1 key = true) :
    placeEntry less overwrite key value entries = entries ++ [(key, value)] := by
  induction entries with
  | nil => rfl
  | cons head rest ih =>
      have front := last head (by simp)
      have tail := ih (fun entry member => last entry (by simp [member]))
      simp [placeEntry, front, tail]

theorem lookup_beyond [KeyOrder less]
    (exact : ∀ left right, equivalent less left right = true → left = right)
    (entries : List (α × β)) (key : α) (beyond : ∀ entry ∈ entries, less key entry.1 = true) :
    lookup less entries key = none := by
  unfold lookup
  rw [Option.map_eq_none_iff, List.find?_eq_none]
  intro entry member same
  have after := beyond entry member
  have irrefl : less key key = false := KeyOrder.irrefl key
  rw [exact entry.1 key same, irrefl] at after
  simp at after

/-- After an insertion the new key leads to the entry it had before, if any, and
all other keys to what they had. -/
theorem lookup_placeEntry [KeyOrder less]
    (exact : ∀ left right, equivalent less left right = true → left = right) (key : α) (value : β)
    (entries : List (α × β))
    (sorted : entries.Pairwise (fun left right => less left.1 right.1 = true)) (query : α) :
    lookup less (placeEntry less false key value entries) query =
      if equivalent less key query = true then (lookup less entries query).or (some value)
      else lookup less entries query := by
  have self : ∀ other, equivalent less other other = true := by
    intro other
    have irrefl : less other other = false := KeyOrder.irrefl other
    simp [equivalent, irrefl]
  induction entries with
  | nil => by_cases same : equivalent less key query = true <;> simp [placeEntry, lookup, same]
  | cons head rest ih =>
      obtain ⟨other, current⟩ := head
      obtain ⟨front, tail⟩ := List.pairwise_cons.mp sorted
      unfold placeEntry
      split
      · next before =>
          by_cases here : equivalent less other query = true
          · have differ : ¬ equivalent less key query = true := by
              intro same
              have irrefl : less key key = false := KeyOrder.irrefl key
              rw [exact _ _ here, ← exact _ _ same, irrefl] at before
              simp at before
            simp [lookup, here, differ]
          · have later := ih tail
            simp only [lookup, List.find?_cons, here] at later ⊢
            exact later
      · split
        · next after =>
            by_cases same : equivalent less key query = true
            · have gone := lookup_beyond exact ((other, current) :: rest) query (by
                intro entry member
                rw [← exact _ _ same]
                rcases List.mem_cons.mp member with rfl | later
                · exact after
                · exact KeyOrder.trans _ _ _ after (front entry later))
              rw [if_pos same, gone]
              simp [lookup, same]
            · rw [if_neg same]
              simp [lookup, same]
        · next notBefore notAfter =>
            have twin : equivalent less other key = true := by simp [equivalent, notBefore, notAfter]
            obtain rfl := exact _ _ twin
            by_cases same : equivalent less other query = true <;> simp [lookup, same]

/-- After an assignment the new key leads to the new value. Keys that are equivalent
must compare alike, but need not be equal. -/
theorem lookup_placeEntry_overwrite [KeyOrder less]
    (alike : ∀ left right, equivalent less left right = true →
      ∀ other, less left other = less right other ∧ less other left = less other right)
    (key : α) (value : β) (entries : List (α × β))
    (sorted : entries.Pairwise (fun left right => less left.1 right.1 = true)) (query : α) :
    lookup less (placeEntry less true key value entries) query =
      if equivalent less key query = true then some value else lookup less entries query := by
  induction entries with
  | nil => by_cases same : equivalent less key query = true <;> simp [placeEntry, lookup, same]
  | cons head rest ih =>
      obtain ⟨other, current⟩ := head
      obtain ⟨front, tail⟩ := List.pairwise_cons.mp sorted
      have later := ih tail
      unfold placeEntry
      split
      · next before =>
          by_cases here : equivalent less other query = true
          · have differ : ¬ equivalent less key query = true := by
              intro same
              rw [← (alike _ _ (equivalent_symm same) other).2] at before
              simp [equivalent, before] at here
            simp [lookup, here, differ]
          · simp only [lookup, List.find?_cons, here] at later ⊢
            exact later
      · split
        · by_cases same : equivalent less key query = true <;> simp [lookup, same]
        · next notBefore notAfter =>
            have twin : equivalent less other key = true := by simp [equivalent, notBefore, notAfter]
            have agree : equivalent less other query = equivalent less key query := by
              simp only [equivalent, (alike _ _ twin query).1, (alike _ _ twin query).2]
            by_cases same : equivalent less key query = true <;> simp [lookup, agree, same]

theorem mem_placeEntry (key : α) (value : β) (entries : List (α × β)) (entry : α × β)
    (member : entry ∈ placeEntry less false key value entries) :
    entry = (key, value) ∨ entry ∈ entries := by
  induction entries with
  | nil => exact Or.inl (List.mem_singleton.mp member)
  | cons head rest ih =>
      obtain ⟨other, current⟩ := head
      simp only [placeEntry] at member
      split at member
      · rcases List.mem_cons.mp member with rfl | later
        · exact Or.inr (by simp)
        · exact (ih later).imp_right (fun old => by simp [old])
      · split at member
        · exact List.mem_cons.mp member
        · exact Or.inr (by simpa using member)

theorem placeEntry_perm (overwrite : Bool) (key : α) (value : β) (entries : List (α × β))
    (absent : ∀ entry ∈ entries, equivalent less entry.1 key = false) :
    (placeEntry less overwrite key value entries).Perm ((key, value) :: entries) := by
  induction entries with
  | nil => exact List.Perm.refl _
  | cons head rest ih =>
      obtain ⟨other, current⟩ := head
      have apart := absent (other, current) List.mem_cons_self
      simp only [placeEntry]
      split
      next before =>
        exact ((ih (fun entry member => absent entry (List.mem_cons_of_mem _ member))).cons _).trans
          (List.Perm.swap _ _ _)
      next notBefore =>
        split
        next after => exact List.Perm.refl _
        next notAfter => simp [equivalent, notBefore, notAfter] at apart

theorem insert_perm [KeyOrder less] (map : OrderedMap α β less) (key : α) (value : β)
    (absent : map.find? key = none) : (map.insert key value).entries.Perm ((key, value) :: map.entries) := by
  apply placeEntry_perm
  simp only [find?, lookup, Option.map_eq_none_iff, List.find?_eq_none] at absent
  intro entry member
  exact Bool.eq_false_iff.mpr (absent entry member)

/-- Inserting the entries of a sorted list, all of them beyond the map's own,
appends them in order. -/
theorem foldl_insert [KeyOrder less] (map : OrderedMap α β less) (added : List (α × β))
    (sorted : (map.entries ++ added).Pairwise (fun left right => less left.1 right.1 = true)) :
    (added.foldl (fun current entry => current.insert entry.1 entry.2) map).entries =
      map.entries ++ added := by
  induction added generalizing map with
  | nil => simp
  | cons head rest ih =>
      have last : ∀ entry ∈ map.entries, less entry.1 head.1 = true := by
        intro entry member
        exact (List.pairwise_append.mp sorted).2.2 entry member head (by simp)
      have placed : (map.insert head.1 head.2).entries = map.entries ++ [head] :=
        placeEntry_last false head.1 head.2 map.entries last
      have step := ih (map.insert head.1 head.2) (by simpa [placed] using sorted)
      simpa [placed] using step

theorem foldl_insert_empty [KeyOrder less] (map : OrderedMap α β less) :
    map.entries.foldl (fun current entry => current.insert entry.1 entry.2) empty = map := by
  apply OrderedMap.ext
  simpa using foldl_insert (empty : OrderedMap α β less) map.entries (by simpa using map.sorted)

def filter (keep : α × β → Bool) (map : OrderedMap α β less) : OrderedMap α β less :=
  ⟨map.entries.filter keep, map.sorted.filter keep⟩

def erase (map : OrderedMap α β less) (key : α) : OrderedMap α β less :=
  map.filter (fun entry => !equivalent less entry.1 key)

theorem entry_of_find? (map : OrderedMap α β less) (key : α) (value : β)
    (found : map.find? key = some value) :
    ∃ entry ∈ map.entries, equivalent less entry.1 key = true ∧ entry.2 = value := by
  obtain ⟨entry, listed, rfl⟩ := Option.map_eq_some_iff.mp found
  have same := List.find?_some listed
  exact ⟨entry, List.mem_of_find?_eq_some listed, same, rfl⟩

theorem find?_entry [KeyOrder less] (map : OrderedMap α β less) (entry : α × β)
    (member : entry ∈ map.entries) : map.find? entry.1 = some entry.2 := by
  obtain ⟨entries, sorted⟩ := map
  simp only [find?, lookup]
  induction entries with
  | nil => cases member
  | cons head rest ih =>
      obtain ⟨front, tail⟩ := List.pairwise_cons.mp sorted
      rcases List.mem_cons.mp member with rfl | later
      · have irrefl : less entry.1 entry.1 = false := KeyOrder.irrefl entry.1
        simp [equivalent, irrefl]
      · have before := front entry later
        have other : equivalent less head.1 entry.1 = false := by simp [equivalent, before]
        rw [List.find?_cons, other]
        exact ih tail later

section Exact

variable [KeyOrder less] (exact : ∀ left right, equivalent less left right = true → left = right)

include exact

theorem equivalent_iff (left right : α) : equivalent less left right = true ↔ left = right := by
  constructor
  · exact exact left right
  · rintro rfl
    have irrefl : less left left = false := KeyOrder.irrefl left
    simp [equivalent, irrefl]

theorem find?_eq_some (map : OrderedMap α β less) (query : α) (value : β) :
    map.find? query = some value ↔ (query, value) ∈ map.entries := by
  obtain ⟨entries, sorted⟩ := map
  simp only [find?, lookup]
  induction entries with
  | nil => simp
  | cons head rest ih =>
      obtain ⟨front, tail⟩ := List.pairwise_cons.mp sorted
      by_cases here : equivalent less head.1 query = true
      · have same := exact _ _ here
        simp only [List.find?_cons, here, Option.map_some, Option.some.injEq, List.mem_cons]
        constructor
        · intro value
          exact Or.inl (Prod.ext same.symm value.symm)
        · rintro (first | later)
          · rw [← first]
          · have before := front _ later
            have irrefl : less head.1 head.1 = false := KeyOrder.irrefl head.1
            simp only [← same, irrefl] at before
            cases before
      · have differ : (query, value) ≠ head := by
          rintro rfl
          exact here ((equivalent_iff exact _ _).mpr rfl)
        simp only [List.find?_cons, here, List.mem_cons, differ, false_or]
        exact ih tail

theorem find?_filter (map : OrderedMap α β less) (keep : α × β → Bool) (query : α) (value : β)
    (found : (map.filter keep).find? query = some value) : map.find? query = some value := by
  rw [find?_eq_some exact] at found ⊢
  exact List.mem_of_mem_filter found

theorem erase_length (map : OrderedMap α β less) (key : α) (present : (map.find? key).isSome = true) :
    (map.erase key).entries.length < map.entries.length := by
  obtain ⟨value, found⟩ := Option.isSome_iff_exists.mp present
  rw [find?_eq_some exact] at found
  apply List.length_filter_lt_length_iff_exists.mpr
  refine ⟨(key, value), found, ?_⟩
  simp [(equivalent_iff exact key key).mpr rfl]

/-- The value of a key that is present is replaced, and the sum over the map changes by what
the values weigh. -/
theorem sum_assign {M : Type} [AddCommMonoid M] (weigh : α × β → M) (map : OrderedMap α β less) (key : α)
    (old new : β) (found : map.find? key = some old) :
    ((map.assign key new).entries.map weigh).sum + weigh (key, old) =
      (map.entries.map weigh).sum + weigh (key, new) := by
  obtain ⟨entries, sorted⟩ := map
  simp only [find?, lookup, assign] at found ⊢
  induction entries with
  | nil => cases found
  | cons head rest ih =>
      obtain ⟨front, tail⟩ := List.pairwise_cons.mp sorted
      unfold placeEntry
      split
      · next before =>
          have other : equivalent less head.1 key = false := by simp [equivalent, before]
          rw [List.find?_cons, other] at found
          simp only [List.map_cons, List.sum_cons]
          rw [add_assoc, ih tail found, add_assoc]
      · next notBefore =>
          split
          · next after =>
              have beyond : ((head :: rest).find? (fun entry => equivalent less entry.1 key)).map Prod.snd = none := by
                rw [Option.map_eq_none_iff, List.find?_eq_none]
                intro entry member
                rcases List.mem_cons.mp member with rfl | later
                · simp [equivalent, after]
                · simp [equivalent, KeyOrder.trans key head.1 entry.1 after (front entry later)]
              rw [beyond] at found
              cases found
          · next notAfter =>
              have same : equivalent less head.1 key = true := by simp [equivalent, notBefore, notAfter]
              rw [List.find?_cons, same] at found
              cases found
              obtain rfl := exact _ _ same
              simp only [List.map_cons, List.sum_cons, if_true]
              rw [add_right_comm, add_comm (weigh (head.1, new)), add_right_comm]

variable [DecidableEq α]

theorem find?_insert (map : OrderedMap α β less) (key : α) (value : β) (query : α) :
    (map.insert key value).find? query =
      if key = query then (map.find? query).or (some value) else map.find? query := by
  have placed := lookup_placeEntry exact key value map.entries map.sorted query
  rw [if_congr (equivalent_iff exact key query) rfl rfl] at placed
  exact placed

theorem find?_assign (map : OrderedMap α β less) (key : α) (value : β) (query : α) :
    (map.assign key value).find? query = if key = query then some value else map.find? query := by
  have placed := lookup_placeEntry_overwrite (fun left right same other => by
    rw [exact left right same]
    exact ⟨rfl, rfl⟩) key value map.entries map.sorted query
  rw [if_congr (equivalent_iff exact key query) rfl rfl] at placed
  exact placed

theorem find?_erase (map : OrderedMap α β less) (key query : α) :
    (map.erase key).find? query = if key = query then none else map.find? query := by
  simp only [find?, lookup, erase, filter, List.find?_filter]
  split
  · next same =>
      rw [Option.map_eq_none_iff, List.find?_eq_none]
      intro entry _
      simp [same]
  · next differ =>
      congr 2
      funext entry
      by_cases here : equivalent less entry.1 query = true
      · have other : equivalent less entry.1 key = false := by
          rw [Bool.eq_false_iff, ne_eq, equivalent_iff exact, exact _ _ here]
          exact fun same => differ same.symm
        simp [here, other]
      · simp [here]

end Exact

def mapValues {γ : Type} (change : β → γ) (map : OrderedMap α β less) : OrderedMap α γ less :=
  ⟨map.entries.map (fun entry => (entry.1, change entry.2)), by
    rw [List.pairwise_map]
    exact map.sorted⟩

theorem find?_mapValues {γ : Type} (change : β → γ) (map : OrderedMap α β less) (key : α) :
    (map.mapValues change).find? key = (map.find? key).map change := by
  simp only [find?, lookup, mapValues, List.find?_map, Option.map_map]
  rfl

end OrderedMap

/-- Lexicographic comparison of strings through a numeric key of their symbols. -/
def lexLess {α : Type} (key : α → Int) (left right : List α) : Bool :=
  decide (left.map key < right.map key)

instance {α : Type} (key : α → Int) : KeyOrder (lexLess key) where
  irrefl := by
    intro text
    simp [lexLess]
  trans := by
    intro first second third before after
    simp only [lexLess, decide_eq_true_eq] at before after ⊢
    exact lt_trans before after

end FastcgiContainer
