import FastcgiContainer.Acyclic
import FastcgiContainer.ConfigVariables

/-! When the loop of `XmlConfig::resolveVariables` stops. Every turn takes away one closing
brace and puts in those of a value; where each of these belongs to a reference that lies
further down, the braces get lighter. -/

namespace FastcgiContainer

open Word (Bytes)
open Relation (TransGen)

namespace XmlConfig

/-- The text ends in a reference that lacks its brace. -/
def Opens (text name : Bytes) : Prop := isName name = true ∧ ∃ lead, text = lead ++ 36 :: 123 :: name

theorem Opens.prepend {text name : Bytes} (opened : Opens text name) (front : Bytes) :
    Opens (front ++ text) name := by
  obtain ⟨named, lead, rfl⟩ := opened
  exact ⟨named, front ++ lead, by simp⟩

theorem opens_tail (more name other : Bytes) (named : isName name = true)
    (same : 36 :: 123 :: name = more ++ 36 :: 123 :: other) : name = other := by
  have plain := isName_plain name named
  match more with
  | [] =>
      simp only [List.nil_append, List.cons.injEq, true_and] at same
      exact same
  | [first] =>
      simp only [List.cons_append, List.nil_append, List.cons.injEq] at same
      exact absurd same.2.1 (by decide)
  | first :: second :: rest =>
      simp only [List.cons_append, List.cons.injEq] at same
      exact absurd (same.2.2 ▸ by simp : (36 : UInt8) ∈ name) plain.1

theorem opens_unique {text name other : Bytes} (left : Opens text name) (right : Opens text other) :
    name = other := by
  obtain ⟨named, lead, rfl⟩ := left
  obtain ⟨alsoNamed, front, same⟩ := right
  rcases List.append_eq_append_iff.mp same with ⟨more, _, tail⟩ | ⟨more, _, tail⟩
  · exact opens_tail more name other named tail
  · exact (opens_tail more other name alsoNamed tail).symm

theorem opens_beyond {front back name : Bytes} (opened : Opens (front ++ 125 :: back) name) :
    Opens back name := by
  obtain ⟨named, lead, same⟩ := opened
  have plain := isName_plain name named
  rcases List.append_eq_append_iff.mp same with ⟨more, _, tail⟩ | ⟨more, _, tail⟩
  · cases more with
    | nil => simp at tail
    | cons first rest =>
        rw [List.cons_append, List.cons.injEq] at tail
        exact ⟨named, rest, tail.2⟩
  · have inside : (125 : UInt8) ∈ 36 :: 123 :: name := by
      rw [tail]
      simp
    simp only [List.mem_cons] at inside
    rcases inside with dollar | brace | symbol
    · exact absurd dollar (by decide)
    · exact absurd brace (by decide)
    · exact absurd symbol plain.2.2

theorem reference_split (front name back : Bytes) :
    front ++ reference name ++ back = (front ++ 36 :: 123 :: name) ++ 125 :: back := by
  simp [reference]

/-- Every closing brace of a text ends a reference. -/
def Complete (text : Bytes) : Prop := ∀ front back, text = front ++ 125 :: back → ∃ name, Opens front name

def Refers (vars : VarMap) (name other : Bytes) : Prop :=
  ∃ value front back, vars.find? name = some value ∧ isName other = true ∧
    value = front ++ reference other ++ back

theorem refers_of_opens (vars : VarMap) (name other value front back : Bytes)
    (found : vars.find? name = some value) (split : value = front ++ 125 :: back) (opened : Opens front other) :
    Refers vars name other := by
  obtain ⟨named, lead, rfl⟩ := opened
  exact ⟨value, lead, back, found, named, by rw [split, reference_split]⟩

section Potential

/-- The sum of the weights of the closing braces of a text; a brace weighs what the text in
front of it makes of it. -/
def potential (weigh : Bytes → Nat) : Bytes → Bytes → Nat
  | _, [] => 0
  | front, symbol :: rest => (if symbol = 125 then weigh front else 0) + potential weigh (front ++ [symbol]) rest

theorem potential_append (weigh : Bytes → Nat) (front text back : Bytes) :
    potential weigh front (text ++ back) = potential weigh front text + potential weigh (front ++ text) back := by
  induction text generalizing front with
  | nil => simp [potential]
  | cons symbol rest ih =>
      rw [List.cons_append, potential, potential, ih (front ++ [symbol])]
      simp [Nat.add_assoc]

theorem potential_brace (weigh : Bytes → Nat) (front back : Bytes) :
    potential weigh front (125 :: back) = weigh front + potential weigh (front ++ [125]) back := by
  rw [potential, if_pos rfl]

theorem potential_bounded (weigh : Bytes → Nat) (front value : Bytes) (bound : Nat)
    (each : ∀ before after, value = before ++ 125 :: after → weigh (front ++ before) ≤ bound) :
    potential weigh front value ≤ value.count 125 * bound := by
  induction value generalizing front with
  | nil => simp [potential]
  | cons symbol rest ih =>
      have later := ih (front ++ [symbol]) (by
        intro before after split
        have here := each (symbol :: before) after (by rw [split]; rfl)
        simpa using here)
      rw [potential]
      by_cases brace : symbol = 125
      · have first := each [] rest (by rw [brace]; rfl)
        rw [List.append_nil] at first
        rw [if_pos brace, brace, List.count_cons_self, Nat.add_mul, Nat.one_mul]
        rw [brace] at later
        omega
      · rw [if_neg brace, List.count_cons_of_ne brace]
        omega

variable (rank : Bytes → Nat) (top base : Nat)

open Classical in
/-- A brace that ends a reference weighs by the rank of its name, any other one by the top. -/
noncomputable def weight (front : Bytes) : Nat :=
  if opened : ∃ name, Opens front name then base ^ rank (Classical.choose opened) else base ^ top

theorem weight_opens {front name : Bytes} (opened : Opens front name) :
    weight rank top base front = base ^ rank name := by
  have some : ∃ name, Opens front name := ⟨name, opened⟩
  rw [weight, dif_pos some, opens_unique (Classical.choose_spec some) opened]

variable (bounded : ∀ name, rank name ≤ top) (positive : 0 < base)

include bounded positive

theorem weight_le (front : Bytes) : weight rank top base front ≤ base ^ top := by
  unfold weight
  split
  · exact Nat.pow_le_pow_right positive (bounded _)
  · exact le_refl _

theorem weight_behind (front next mid : Bytes) :
    weight rank top base (next ++ mid) ≤ weight rank top base (front ++ 125 :: mid) := by
  by_cases opened : ∃ name, Opens (front ++ 125 :: mid) name
  · obtain ⟨name, opened⟩ := opened
    have inside := opens_beyond opened
    rw [weight_opens rank top base opened, weight_opens rank top base (inside.prepend next)]
  · have heaviest : weight rank top base (front ++ 125 :: mid) = base ^ top := dif_neg opened
    rw [heaviest]
    exact weight_le rank top base bounded positive _

theorem potential_behind (front next mid back : Bytes) :
    potential (weight rank top base) (next ++ mid) back ≤
      potential (weight rank top base) (front ++ 125 :: mid) back := by
  induction back generalizing mid with
  | nil => exact le_refl _
  | cons symbol rest ih =>
      have here := weight_behind rank top base bounded positive front next mid
      have later := ih (mid ++ [symbol])
      rw [potential, potential]
      rw [← List.append_assoc, ← List.cons_append, ← List.append_assoc] at later
      split
      · omega
      · omega

theorem potential_replace (front key back value : Bytes) (named : isName key = true) (complete : Complete value)
    (lower : ∀ name before after, value = before ++ 125 :: after → Opens before name → rank name < rank key)
    (few : value.count 125 < base) :
    potential (weight rank top base) [] (front ++ value ++ back) <
      potential (weight rank top base) [] (front ++ reference key ++ back) := by
  have consumed : weight rank top base (front ++ 36 :: 123 :: key) = base ^ rank key :=
    weight_opens rank top base ⟨named, front, rfl⟩
  have put : potential (weight rank top base) front value < base ^ rank key := by
    by_cases closed : (125 : UInt8) ∈ value
    · obtain ⟨first, last, split⟩ := List.append_of_mem closed
      obtain ⟨name, opened⟩ := complete first last split
      have ranked := lower name first last split opened
      have sum := potential_bounded (weight rank top base) front value (base ^ (rank key - 1)) (by
        intro before after cut
        obtain ⟨other, alsoOpened⟩ := complete before after cut
        rw [weight_opens rank top base (alsoOpened.prepend front)]
        have less := lower other before after cut alsoOpened
        exact Nat.pow_le_pow_right positive (by omega))
      calc potential (weight rank top base) front value
          ≤ value.count 125 * base ^ (rank key - 1) := sum
        _ < base * base ^ (rank key - 1) := Nat.mul_lt_mul_of_pos_right few (Nat.pow_pos positive)
        _ = base ^ rank key := by rw [← Nat.pow_succ', Nat.succ_eq_add_one, Nat.sub_add_cancel (by omega)]
    · have none := potential_bounded (weight rank top base) front value 0
        (fun before after cut => absurd (by rw [cut]; simp) closed)
      have some := Nat.pow_pos (n := rank key) positive
      omega
  have behind := potential_behind rank top base bounded positive (front ++ 36 :: 123 :: key) (front ++ value) [] back
  rw [List.append_nil] at behind
  rw [reference_split, List.append_assoc, potential_append, potential_append, potential_append,
    potential_append, potential_brace, List.nil_append, List.nil_append, consumed]
  omega

end Potential

def Settled (vars : VarMap) : Except Exn Bytes → Prop
  | .ok text => ∀ front name back, isName name = true → text ≠ front ++ reference name ++ back
  | .error exn => ∃ key, exn = nonexistent key ∧ vars.find? key = none

def Stops (vars : VarMap) (val : Bytes) : Prop :=
  ∃ fuel outcome, resolveVariables vars fuel val = some outcome ∧ Settled vars outcome

theorem resolveVariables_turn (vars : VarMap) (val : Bytes) :
    ((∀ front name back, isName name = true → val ≠ front ++ reference name ++ back) ∧
        ∀ fuel, resolveVariables vars (fuel + 1) val = some (.ok val)) ∨
      ∃ front key back, isName key = true ∧ val = front ++ reference key ++ back ∧
        ((vars.find? key = none ∧ ∀ fuel, resolveVariables vars (fuel + 1) val = some (.error (nonexistent key))) ∨
          ∃ value, vars.find? key = some value ∧ ∀ fuel,
            resolveVariables vars (fuel + 1) val = resolveVariables vars fuel (front ++ value ++ back)) := by
  cases found : regexSearch val with
  | none =>
      refine Or.inl ⟨regexSearch_none val found, ?_⟩
      intro fuel
      simp only [resolveVariables, found]
  | some place =>
      obtain ⟨front, key, back⟩ := place
      obtain ⟨split, named⟩ := regexSearch_some val front key back found
      refine Or.inr ⟨front, key, back, named, split, ?_⟩
      cases held : vars.find? key with
      | none =>
          refine Or.inl ⟨rfl, ?_⟩
          intro fuel
          simp only [resolveVariables, found, findVariable, held]
      | some value =>
          refine Or.inr ⟨value, rfl, ?_⟩
          intro fuel
          simp only [resolveVariables, found, findVariable, held]

theorem braces_bounded (vars : VarMap) :
    ∃ base, 0 < base ∧ ∀ name value, vars.find? name = some value → value.count 125 < base := by
  refine ⟨1 + (vars.entries.map (fun entry => entry.2.count 125)).sum, by omega, ?_⟩
  intro name value found
  have member := (OrderedMap.find?_eq_some stringLess_exact vars name value).mp found
  have part : value.count 125 ≤ (vars.entries.map (fun entry => entry.2.count 125)).sum :=
    List.single_le_sum (fun _ _ => Nat.zero_le _) _
      (List.mem_map_of_mem (f := fun entry : Bytes × Bytes => entry.2.count 125) member)
  omega

theorem stops_of_acyclic (vars : VarMap)
    (complete : ∀ name value, vars.find? name = some value → Complete value)
    (acyclic : ∀ name, ¬ TransGen (Refers vars) name name) (val : Bytes) : Stops vars val := by
  obtain ⟨base, positive, few⟩ := braces_bounded vars
  have source : ∀ name other, Refers vars name other → name ∈ vars.entries.map Prod.fst := by
    rintro name other ⟨value, _, _, found, _⟩
    exact List.mem_map_of_mem (f := Prod.fst)
      ((OrderedMap.find?_eq_some stringLess_exact vars name value).mp found)
  let rank := Acyclic.rank (Refers vars) (vars.entries.map Prod.fst)
  obtain ⟨top, bounded⟩ : ∃ top, ∀ name, rank name ≤ top := ⟨_, Acyclic.rank_le _ _⟩
  -- on the weight of the closing braces, which every turn makes smaller
  induction size : potential (weight rank top base) [] val using Nat.strong_induction_on generalizing val with
  | _ size ih =>
      rcases resolveVariables_turn vars val with ⟨clear, done⟩ | ⟨front, key, back, named, rfl, missing | next⟩
      · exact ⟨1, .ok val, done 0, clear⟩
      · exact ⟨1, .error (nonexistent key), missing.2 0, key, rfl, missing.1⟩
      · obtain ⟨value, found, next⟩ := next
        have lighter := potential_replace rank top base bounded positive front key back value named
          (complete key value found)
          (fun name before after split opened => Acyclic.rank_lt _ _ source acyclic key name
            (refers_of_opens vars key name value before after found split opened))
          (few key value found)
        obtain ⟨fuel, outcome, done, settled⟩ := ih _ (by omega) (front ++ value ++ back) rfl
        exact ⟨fuel + 1, outcome, by rw [next fuel, done], settled⟩

theorem references_apart {front name back front' name' back' : Bytes} (named : isName name = true)
    (named' : isName name' = true)
    (same : front ++ reference name ++ back = front' ++ reference name' ++ back') :
    (front = front' ∧ name = name' ∧ back = back') ∨
      (∃ mid, front' = front ++ reference name ++ mid) ∨ ∃ mid, back' = mid ++ reference name ++ back := by
  rw [reference_split, reference_split] at same
  rcases List.append_eq_append_iff.mp same with ⟨more, front_eq, tail⟩ | ⟨more, front_eq, tail⟩
  · cases more with
    | nil =>
        rw [List.append_nil] at front_eq
        have left : Opens (front' ++ 36 :: 123 :: name') name := ⟨named, front, front_eq⟩
        have equal : name = name' := opens_unique left ⟨named', front', rfl⟩
        subst equal
        exact Or.inl ⟨(List.append_cancel_right front_eq).symm, rfl, (List.cons.inj tail).2⟩
    | cons first rest =>
        obtain ⟨rfl, restTail⟩ := List.cons.inj tail
        have opened : Opens (front ++ 36 :: 123 :: name ++ 125 :: rest) name' := ⟨named', front', front_eq.symm⟩
        obtain ⟨_, lead, inside⟩ := opens_beyond opened
        subst inside
        refine Or.inr (Or.inl ⟨lead, ?_⟩)
        have cut : front' ++ 36 :: 123 :: name' =
            (front ++ reference name ++ lead) ++ 36 :: 123 :: name' := by
          rw [front_eq]
          simp [reference]
        exact List.append_cancel_right cut
  · cases more with
    | nil =>
        rw [List.append_nil] at front_eq
        have left : Opens (front ++ 36 :: 123 :: name) name := ⟨named, front, rfl⟩
        have equal : name = name' := opens_unique left ⟨named', front', front_eq⟩
        subst equal
        exact Or.inl ⟨List.append_cancel_right front_eq, rfl, (List.cons.inj tail).2.symm⟩
    | cons first rest =>
        obtain ⟨rfl, restTail⟩ := List.cons.inj tail
        have opened : Opens (front' ++ 36 :: 123 :: name' ++ 125 :: rest) name := ⟨named, front, front_eq.symm⟩
        obtain ⟨_, lead, inside⟩ := opens_beyond opened
        subst inside
        refine Or.inr (Or.inr ⟨lead, ?_⟩)
        rw [restTail]
        simp [reference]

/-- Every closing brace of a text that stands behind another one ends a reference to a
variable that exists. -/
def Resolvable (vars : VarMap) : Bytes → Bytes → Prop
  | _, [] => True
  | front, symbol :: rest =>
      (symbol = 125 → ∃ name, Opens front name ∧ (vars.find? name).isSome = true) ∧
        Resolvable vars (front ++ [symbol]) rest

theorem resolvable_append (vars : VarMap) (front text back : Bytes) :
    Resolvable vars front (text ++ back) ↔ Resolvable vars front text ∧ Resolvable vars (front ++ text) back := by
  induction text generalizing front with
  | nil => simp [Resolvable]
  | cons symbol rest ih =>
      rw [List.cons_append, Resolvable, Resolvable, ih (front ++ [symbol]), and_assoc]
      simp

theorem resolvable_value (vars : VarMap) (front value : Bytes) (complete : Complete value)
    (known : ∀ name before after, isName name = true → value = before ++ reference name ++ after →
      (vars.find? name).isSome = true) (read rest : Bytes) (split : value = read ++ rest) :
    Resolvable vars (front ++ read) rest := by
  induction rest generalizing read with
  | nil => trivial
  | cons symbol rest ih =>
      refine ⟨?_, ?_⟩
      · rintro rfl
        obtain ⟨name, named, lead, rfl⟩ := complete read rest split
        have exists_ := known name lead rest named (by rw [split, reference_split])
        exact ⟨name, Opens.prepend ⟨named, lead, rfl⟩ front, exists_⟩
      · rw [List.append_assoc]
        exact ih (read ++ [symbol]) (by rw [split]; simp)

theorem resolvable_behind (vars : VarMap) (front next mid back : Bytes)
    (before : Resolvable vars (front ++ 125 :: mid) back) : Resolvable vars (next ++ mid) back := by
  induction back generalizing mid with
  | nil => trivial
  | cons symbol rest ih =>
      refine ⟨?_, ?_⟩
      · intro brace
        obtain ⟨name, opened, known⟩ := before.1 brace
        exact ⟨name, (opens_beyond opened).prepend next, known⟩
      · rw [List.append_assoc]
        apply ih (mid ++ [symbol])
        have later := before.2
        rwa [List.append_assoc, List.cons_append] at later

theorem resolvable_replace (vars : VarMap) (front key back value : Bytes)
    (text : Resolvable vars [] (front ++ reference key ++ back)) (inner : Resolvable vars front value) :
    Resolvable vars [] (front ++ value ++ back) := by
  rw [List.append_assoc, resolvable_append, resolvable_append]
  rw [List.append_assoc, resolvable_append, resolvable_append] at text
  obtain ⟨before, _, behind⟩ := text
  refine ⟨before, inner, ?_⟩
  have same : front ++ reference key = (front ++ 36 :: 123 :: key) ++ 125 :: [] := by simp [reference]
  rw [List.nil_append, same] at behind
  have moved := resolvable_behind vars _ (front ++ value) [] back behind
  rwa [List.append_nil] at moved

theorem resolvable_known (vars : VarMap) (front key back : Bytes) (named : isName key = true)
    (text : Resolvable vars [] (front ++ reference key ++ back)) : (vars.find? key).isSome = true := by
  rw [reference_split, resolvable_append] at text
  obtain ⟨name, opened, known⟩ := text.2.1 rfl
  have itself : Opens (front ++ 36 :: 123 :: key) key := ⟨named, front, rfl⟩
  rwa [opens_unique itself opened]

/-- The text leads to a variable that leads back to itself. -/
def Circular (vars : VarMap) (text : Bytes) : Prop :=
  ∃ front name back, isName name = true ∧ text = front ++ reference name ++ back ∧
    TransGen (Refers vars) name name

theorem circular_replace (vars : VarMap) (front key back value : Bytes) (named : isName key = true)
    (found : vars.find? key = some value) (circular : Circular vars (front ++ reference key ++ back)) :
    Circular vars (front ++ value ++ back) := by
  obtain ⟨before, name, after, nameNamed, same, cycle⟩ := circular
  rcases references_apart named nameNamed same with ⟨rfl, rfl, rfl⟩ | ⟨mid, rfl⟩ | ⟨mid, rfl⟩
  · obtain ⟨other, edge, onward⟩ := TransGen.head'_iff.mp cycle
    have round : TransGen (Refers vars) other other := TransGen.tail' onward edge
    obtain ⟨held, first, last, holds, otherNamed, split⟩ := edge
    have same : value = held := Option.some.inj (found.symm.trans holds)
    exact ⟨front ++ first, other, last ++ back, otherNamed, by rw [same, split]; simp, round⟩
  · have tail : back = mid ++ reference name ++ after := by
      have cut : (front ++ reference key) ++ back = (front ++ reference key) ++ (mid ++ reference name ++ after) := by
        rw [same]
        simp
      exact List.append_cancel_left cut
    exact ⟨front ++ value ++ mid, name, after, nameNamed, by rw [tail]; simp, cycle⟩
  · have head : front = before ++ reference name ++ mid := by
      have cut : front ++ (reference key ++ back) =
          (before ++ reference name ++ mid) ++ (reference key ++ back) := by
        rw [← List.append_assoc, same]
        simp
      exact List.append_cancel_right cut
    exact ⟨before, name, mid ++ value ++ back, nameNamed, by rw [head]; simp, cycle⟩

theorem endless_of_circular (vars : VarMap)
    (complete : ∀ name value, vars.find? name = some value → Complete value)
    (known : ∀ name other, Refers vars name other → (vars.find? other).isSome = true) (fuel : Nat) (val : Bytes)
    (resolvable : Resolvable vars [] val) (circular : Circular vars val) :
    resolveVariables vars fuel val = none := by
  induction fuel generalizing val with
  | zero => rfl
  | succ fuel ih =>
      rcases resolveVariables_turn vars val with ⟨clear, _⟩ | ⟨front, key, back, named, rfl, missing | next⟩
      · obtain ⟨front, name, back, named, split, _⟩ := circular
        exact absurd split (clear front name back named)
      · have present := resolvable_known vars front key back named resolvable
        rw [missing.1] at present
        cases present
      · obtain ⟨value, found, next⟩ := next
        have inner := resolvable_value vars front value (complete key value found)
          (fun name before after otherNamed split =>
            known key name ⟨value, before, after, found, otherNamed, split⟩) [] value rfl
        rw [List.append_nil] at inner
        rw [next fuel]
        exact ih _ (resolvable_replace vars front key back value resolvable inner)
          (circular_replace vars front key back value named found circular)

/-- Where the braces of the values belong to references, the loop stops for every string if
no variable leads back to itself; and where the variables referred to exist, a variable that
does keeps the loop going. -/
theorem variables_resolved (vars : VarMap)
    (complete : ∀ name value, vars.find? name = some value → Complete value) :
    ((∀ name, ¬ TransGen (Refers vars) name name) → ∀ val, Stops vars val) ∧
      ((∀ name other, Refers vars name other → (vars.find? other).isSome = true) →
        ∀ name, TransGen (Refers vars) name name → ∀ fuel, resolveVariables vars fuel (reference name) = none) := by
  constructor
  · intro acyclic val
    exact stops_of_acyclic vars complete acyclic val
  · intro known name cycle fuel
    obtain ⟨last, _, value, front, back, found, named, split⟩ := TransGen.tail'_iff.mp cycle
    have whole : reference name = [] ++ reference name ++ [] := by simp
    have present : (vars.find? name).isSome = true :=
      known last name ⟨value, front, back, found, named, split⟩
    apply endless_of_circular vars complete known fuel (reference name)
    · have closed : reference name = (36 :: 123 :: name) ++ [125] := by simp [reference]
      rw [closed, resolvable_append]
      refine ⟨?_, fun _ => ⟨name, ⟨named, [], rfl⟩, present⟩, trivial⟩
      have plain := (isName_plain name named).2.2
      have braceless := resolvable_value vars [] (36 :: 123 :: name)
        (by
          intro before after cut
          have inside : (125 : UInt8) ∈ 36 :: 123 :: name := by
            rw [cut]
            simp
          exact absurd inside (by simp [plain]))
        (by
          intro other before after _ cut
          have inside : (125 : UInt8) ∈ 36 :: 123 :: name := by
            rw [cut]
            simp [reference]
          exact absurd inside (by simp [plain])) [] (36 :: 123 :: name) rfl
      exact braceless
    · exact ⟨[], name, [], named, whole, cycle⟩

theorem resolveVariables_next (vars : VarMap) (fuel : Nat) (val front key back value text : Bytes)
    (found : regexSearch val = some (front, key, back)) (held : vars.find? key = some value)
    (whole : front ++ value ++ back = text) :
    resolveVariables vars (fuel + 1) val = resolveVariables vars fuel text := by
  simp only [resolveVariables, found, findVariable, held, whole]

theorem refers_found (vars : VarMap) (name other value : Bytes) (found : vars.find? name = some value)
    (refers : Refers vars name other) : regexSearch value ≠ none := by
  obtain ⟨held, front, back, holds, named, split⟩ := refers
  intro missed
  obtain rfl : held = value := Option.some.inj (holds.symm.trans found)
  exact regexSearch_none held missed front other back named split

theorem acyclic_of_single (vars : VarMap) (single : Bytes)
    (only : ∀ name other, Refers vars name other → single = name) (apart : ¬ Refers vars single single)
    (name : Bytes) : ¬ TransGen (Refers vars) name name := by
  intro cycle
  obtain ⟨first, leaving, _⟩ := TransGen.head'_iff.mp cycle
  obtain ⟨last, _, returning⟩ := TransGen.tail'_iff.mp cycle
  have same := only name first leaving
  subst same
  have before := only last single returning
  subst before
  exact apart returning

theorem refers_symbol (vars : VarMap) (name other value : Bytes) (symbol : UInt8)
    (found : vars.find? name = some value) (refers : Refers vars name other) (member : symbol ∈ other) :
    symbol ∈ value := by
  obtain ⟨held, front, back, holds, _, split⟩ := refers
  rw [← Option.some.inj (holds.symm.trans found), split]
  simp [reference, member]

def chained : VarMap :=
  (OrderedMap.empty.insert (ascii "base") (ascii "80")).insert (ascii "port") (ascii "$\x7bbase\x7d80")

theorem chained_find? (name value : Bytes) (found : chained.find? name = some value) :
    (name = ascii "port" ∧ value = ascii "$\x7bbase\x7d80") ∨ (name = ascii "base" ∧ value = ascii "80") := by
  have entries : chained.entries =
      [(ascii "base", ascii "80"), (ascii "port", ascii "$\x7bbase\x7d80")] := by decide +kernel
  have member := (OrderedMap.find?_eq_some stringLess_exact chained name value).mp found
  rw [entries] at member
  simp only [List.mem_cons, Prod.mk.injEq, List.not_mem_nil, or_false] at member
  exact member.symm

theorem variables_resolved_chained : Stops chained (ascii "$\x7b$\x7bport\x7d") := by
  have complete : ∀ name value, chained.find? name = some value → Complete value := by
    intro name value found before after split
    rcases chained_find? name value found with ⟨_, rfl⟩ | ⟨_, rfl⟩
    · have cut : ascii "$\x7bbase\x7d80" = ascii "$\x7bbase" ++ 125 :: ascii "80" := by decide +kernel
      rw [cut, List.append_cons_inj_of_notMem (by decide +kernel) (by decide +kernel)] at split
      exact ⟨ascii "base", by decide +kernel, [], split.1.symm⟩
    · exact absurd (by rw [split]; simp : (125 : UInt8) ∈ ascii "80") (by decide +kernel)
  apply (variables_resolved chained complete).1
  apply acyclic_of_single chained (ascii "port")
  · intro name other refers
    have start := refers
    obtain ⟨value, _, _, found, _⟩ := start
    rcases chained_find? name value found with ⟨rfl, _⟩ | ⟨rfl, rfl⟩
    · rfl
    · exact absurd (by decide +kernel) (refers_found chained _ other _ found refers)
  · intro refers
    have inside := refers_symbol chained _ _ _ 112 (by decide +kernel : _ = some (ascii "$\x7bbase\x7d80")) refers
      (by decide +kernel)
    exact absurd inside (by decide +kernel)

def circular : VarMap := OrderedMap.empty.insert (ascii "a") (ascii "$\x7ba\x7d")

/-- No variable of these leads back to itself, but the first one closes what the second one
has left open. -/
def interleaved : VarMap :=
  (OrderedMap.empty.insert (ascii "a") (ascii "b\x7d")).insert (ascii "b") (ascii "$\x7b$\x7ba\x7d")

theorem circular_endless (fuel : Nat) : resolveVariables circular fuel (ascii "$\x7ba\x7d") = none := by
  induction fuel with
  | zero => rfl
  | succ fuel ih =>
      rw [resolveVariables_next circular fuel _ [] (ascii "a") [] (ascii "$\x7ba\x7d") (ascii "$\x7ba\x7d")
        (by decide +kernel) (by decide +kernel) (by decide +kernel), ih]

theorem interleaved_endless (fuel : Nat) :
    resolveVariables interleaved fuel (ascii "$\x7b$\x7ba\x7d\x7d") = none := by
  induction fuel using Nat.strong_induction_on with
  | _ fuel ih =>
      match fuel with
      | 0 => rfl
      | 1 => decide +kernel
      | fuel + 2 =>
          rw [resolveVariables_next interleaved (fuel + 1) _ (ascii "$\x7b") (ascii "a") (ascii "\x7d")
              (ascii "b\x7d") (ascii "$\x7bb\x7d\x7d") (by decide +kernel) (by decide +kernel) (by decide +kernel),
            resolveVariables_next interleaved fuel _ [] (ascii "b") (ascii "\x7d") (ascii "$\x7b$\x7ba\x7d")
              (ascii "$\x7b$\x7ba\x7d\x7d") (by decide +kernel) (by decide +kernel) (by decide +kernel),
            ih fuel (by omega)]

theorem interleaved_acyclic (name : Bytes) : ¬ TransGen (Refers interleaved) name name := by
  have entries : interleaved.entries =
      [(ascii "a", ascii "b\x7d"), (ascii "b", ascii "$\x7b$\x7ba\x7d")] := by decide +kernel
  apply acyclic_of_single interleaved (ascii "b")
  · intro name other refers
    have start := refers
    obtain ⟨value, _, _, found, _⟩ := start
    have unread := refers_found interleaved name other value found refers
    rw [OrderedMap.find?_eq_some stringLess_exact, entries] at found
    simp only [List.mem_cons, Prod.mk.injEq, List.not_mem_nil, or_false] at found
    rcases found with ⟨rfl, rfl⟩ | ⟨rfl, rfl⟩
    · exact absurd (by decide +kernel) unread
    · rfl
  · intro refers
    have inside := refers_symbol interleaved _ _ _ 98
      (by decide +kernel : _ = some (ascii "$\x7b$\x7ba\x7d")) refers (by decide +kernel)
    exact absurd inside (by decide +kernel)

/-- Two configurations that are read and never resolved: in the second one no variable leads
back to itself. -/
theorem variables_never_resolved :
    (findVariables [(some (ascii "$\x7ba\x7d"), some (ascii "a"))] = .ok circular ∧
        ∀ fuel, resolveVariables circular fuel (ascii "$\x7ba\x7d") = none) ∧
      findVariables [(some (ascii "b\x7d"), some (ascii "a")),
          (some (ascii "$\x7b$\x7ba\x7d"), some (ascii "b"))] = .ok interleaved ∧
        (∀ name, ¬ TransGen (Refers interleaved) name name) ∧
        ∀ fuel, resolveVariables interleaved fuel (ascii "$\x7b$\x7ba\x7d\x7d") = none :=
  ⟨⟨rfl, circular_endless⟩, rfl, interleaved_acyclic, interleaved_endless⟩

end XmlConfig

end FastcgiContainer
