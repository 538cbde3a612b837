import FastcgiContainer.Ctype

/-! `AttributesHolder`: attributes, and listeners that are told of changes. A listener is known
by its place in a vector, and the places move when a listener is removed. -/

namespace FastcgiContainer

open Word (Bytes)

section Ascending

/-! Places in ascending lists of numbers. -/

def below (list : List Nat) (bound : Nat) : Nat := list.countP (fun number => number < bound)

theorem below_append (front back : List Nat) (bound : Nat) :
    below (front ++ back) bound = below front bound + below back bound := List.countP_append

theorem below_cons (number : Nat) (rest : List Nat) (bound : Nat) :
    below (number :: rest) bound = below rest bound + if number < bound then 1 else 0 := by
  simp [below, List.countP_cons]

theorem below_le (list : List Nat) (bound : Nat) : below list bound ≤ list.length := List.countP_le_length

theorem below_of_all (list : List Nat) (bound : Nat) (all : ∀ number ∈ list, number < bound) :
    below list bound = list.length := by
  rw [below, List.countP_eq_length]
  simpa using all

theorem below_perm {list other : List Nat} (same : list.Perm other) (bound : Nat) : below list bound = below other bound :=
  same.countP_eq _

theorem getElem_lt_iff (list : List Nat) (ascending : list.Pairwise (· < ·)) (bound index : Nat)
    (inside : index < list.length) : list[index] < bound ↔ index < below list bound := by
  induction list generalizing index with
  | nil => cases inside
  | cons number rest ih =>
      obtain ⟨first, later⟩ := List.pairwise_cons.mp ascending
      rw [below_cons]
      cases index with
      | zero =>
          have start : (number :: rest)[0] = number := rfl
          rw [start]
          split
          · omega
          · next beyond =>
              have none : below rest bound = 0 := by
                rw [below, List.countP_eq_zero]
                intro other member
                have greater := first other member
                simp only [decide_eq_true_eq]
                omega
              omega
      | succ index =>
          have within : index < rest.length := Nat.lt_of_succ_lt_succ inside
          have shift : (number :: rest)[index + 1] = rest[index] := rfl
          have greater := first rest[index] (List.getElem_mem within)
          rw [shift, ih later index within]
          split
          · omega
          · next beyond =>
              have none : ¬rest[index] < bound := by omega
              rw [ih later index within] at none
              omega

theorem index_eq_below (list : List Nat) (ascending : list.Pairwise (· < ·)) (index : Nat)
    (inside : index < list.length) : index = below list list[index] := by
  have lower := (getElem_lt_iff list ascending list[index] index inside).not.mp (by omega)
  by_contra other
  have less : below list list[index] < index := by omega
  have before := (getElem_lt_iff list ascending list[index] (below list list[index]) (by omega)).not.mpr (by omega)
  exact before (List.pairwise_iff_getElem.mp ascending _ index (by omega) inside less)

theorem below_eraseIdx (list : List Nat) (index bound : Nat) (inside : index < list.length) :
    below list bound = below (list.eraseIdx index) bound + if list[index] < bound then 1 else 0 := by
  rw [← below_cons]
  exact (below_perm (List.getElem_cons_eraseIdx_perm inside) bound).symm

end Ascending

inductive ListenerEventType where
  | updateAttribute
  | removeAttribute
  deriving DecidableEq, Repr

structure AttributesHolder (α β : Type) where
  attributes : OrderedMap Bytes β stringLess
  listeners : List α
  invokeListeners : Bool

namespace AttributesHolder

variable {α β : Type}

/-- The holder, and the listeners that are called, each with what it is told. What a listener
throws is caught. -/
def setAttributeInternal (holder : AttributesHolder α β) (name : Bytes) (attr : β) :
    AttributesHolder α β × List (α × ListenerEventType × Bytes × β) :=
  ({ holder with attributes := holder.attributes.assign name attr },
    if holder.invokeListeners then holder.listeners.map (fun f => (f, .updateAttribute, name, attr)) else [])

def addListener (holder : AttributesHolder α β) (f : α) : AttributesHolder α β × Nat :=
  let listeners := holder.listeners ++ [f]
  ({ holder with listeners := listeners }, listeners.length - 1)

def removeListener (holder : AttributesHolder α β) (index : Nat) : AttributesHolder α β :=
  if holder.listeners.length > index then { holder with listeners := holder.listeners.eraseIdx index } else holder

theorem removeListener_eq (holder : AttributesHolder α β) (index : Nat) :
    holder.removeListener index = { holder with listeners := holder.listeners.eraseIdx index } := by
  unfold removeListener
  split
  · rfl
  · next beyond => rw [List.eraseIdx_of_length_le (Nat.le_of_not_lt beyond)]

theorem addListener_eq (holder : AttributesHolder α β) (f : α) :
    holder.addListener f = ({ holder with listeners := holder.listeners ++ [f] }, holder.listeners.length) := by
  simp [addListener]

end AttributesHolder

/-- A call that adds a listener, or one that removes by the handle of a listener, which is
named by the number of listeners added before it. -/
inductive ListenerCall where
  | addListener
  | removeListener (added : Nat)
  deriving DecidableEq, Repr

namespace ListenerCall

structure Client (α β : Type) where
  holder : AttributesHolder α β
  handles : List Nat

variable {α β : Type}

def call (listener : Nat → α) (client : Client α β) : ListenerCall → Client α β
  | addListener =>
      let (holder, handle) := client.holder.addListener (listener client.handles.length)
      ⟨holder, client.handles ++ [handle]⟩
  | removeListener added =>
      match client.handles[added]? with
      | none => client
      | some handle => { client with holder := client.holder.removeListener handle }

def Client.start : Client α β := ⟨⟨.empty, [], true⟩, []⟩

def run (listener : Nat → α) (calls : List ListenerCall) : Client α β := calls.foldl (call listener) Client.start

def kept (calls : List ListenerCall) : List Nat :=
  (List.range (calls.count addListener)).filter (fun added => removeListener added ∉ calls)

def sinceAdded : Nat → List ListenerCall → List ListenerCall
  | _, [] => []
  | added, removeListener _ :: rest => sinceAdded added rest
  | 0, addListener :: rest => rest
  | added + 1, addListener :: rest => sinceAdded added rest

def Throughout (holds : List ListenerCall → ListenerCall → Prop) (calls : List ListenerCall) : Prop :=
  ∀ front call back, calls = front ++ call :: back → holds front call

/-- A handle is used after it was returned, and once at most. -/
def Proper : List ListenerCall → Prop :=
  Throughout (fun front call => ∀ added, call = removeListener added →
    added < front.count addListener ∧ removeListener added ∉ front)

/-- No listener is removed while one that was added before it is removed since its addition. -/
def Undisturbed : List ListenerCall → Prop :=
  Throughout (fun front call => ∀ added, call = removeListener added →
    ∀ earlier < added, removeListener earlier ∉ sinceAdded added front)

section Runs

theorem throughout_append (holds : List ListenerCall → ListenerCall → Prop) (calls : List ListenerCall)
    (last : ListenerCall) :
    Throughout holds (calls ++ [last]) ↔ Throughout holds calls ∧ holds calls last := by
  constructor
  · intro all
    constructor
    · intro front call back split
      exact all front call (back ++ [last]) (by rw [split]; simp)
    · exact all calls last [] rfl
  · rintro ⟨all, final⟩ front call back split
    rcases List.eq_nil_or_concat back with rfl | ⟨others, other, rfl⟩
    · obtain ⟨rfl, same⟩ := List.append_inj' split rfl
      cases same
      exact final
    · rw [List.concat_eq_append, ← List.cons_append, ← List.append_assoc] at split
      obtain ⟨same, _⟩ := List.append_inj' split rfl
      exact all front call others same

theorem throughout_nil (holds : List ListenerCall → ListenerCall → Prop) : Throughout holds [] := by
  intro front call back split
  cases front <;> cases split

theorem run_append (listener : Nat → α) (calls : List ListenerCall) (last : ListenerCall) :
    (run listener (calls ++ [last]) : Client α β) = call listener (run listener calls) last := by
  simp [run]

theorem handles_length (listener : Nat → α) (calls : List ListenerCall) :
    (run listener calls : Client α β).handles.length = calls.count addListener := by
  induction calls using List.reverseRecOn with
  | nil => rfl
  | append_singleton calls last ih =>
      rw [run_append, List.count_append, ← ih]
      cases last with
      | addListener => simp [call]
      | removeListener added =>
          simp only [call]
          split <;> simp

def places (calls : List ListenerCall) : List Nat := (run id calls : Client Nat Unit).holder.listeners

def handles (calls : List ListenerCall) : List Nat := (run id calls : Client Nat Unit).handles

theorem run_places (listener : Nat → α) (calls : List ListenerCall) :
    (run listener calls : Client α β).holder.listeners = (places calls).map listener ∧
      (run listener calls : Client α β).handles = handles calls ∧
      (run listener calls : Client α β).holder.invokeListeners = true := by
  induction calls using List.reverseRecOn with
  | nil => exact ⟨rfl, rfl, rfl⟩
  | append_singleton calls last ih =>
      obtain ⟨listeners, same, enabled⟩ := ih
      unfold handles at same ⊢
      unfold places at listeners ⊢
      simp only [run_append]
      cases last with
      | addListener =>
          simp only [call, AttributesHolder.addListener_eq, listeners, same]
          refine ⟨?_, ?_, enabled⟩
          · simp
          · simp
      | removeListener added =>
          simp only [call, same]
          split
          · exact ⟨listeners, same, enabled⟩
          · next handle known =>
              simp only [AttributesHolder.removeListener_eq, listeners]
              exact ⟨List.eraseIdx_map _ _ _, trivial, enabled⟩

theorem places_add (calls : List ListenerCall) :
    places (calls ++ [addListener]) = places calls ++ [calls.count addListener] ∧
      handles (calls ++ [addListener]) = handles calls ++ [(places calls).length] := by
  have count := handles_length (β := Unit) id calls
  simp only [places, handles, run_append, call, AttributesHolder.addListener_eq, id, count, and_self]

theorem places_remove (calls : List ListenerCall) (added handle : Nat) (known : (handles calls)[added]? = some handle) :
    places (calls ++ [removeListener added]) = (places calls).eraseIdx handle ∧
      handles (calls ++ [removeListener added]) = handles calls := by
  unfold handles at known ⊢
  simp only [places, run_append, call, known, AttributesHolder.removeListener_eq, and_self]

structure Ordered (calls : List ListenerCall) : Prop where
  ascending : (places calls).Pairwise (· < ·)
  bounded : ∀ added ∈ places calls, added < calls.count addListener
  behind : ∀ added handle, (handles calls)[added]? = some handle → below (places calls) added ≤ handle

theorem handle_bounded (calls : List ListenerCall) (added handle : Nat) (known : (handles calls)[added]? = some handle) :
    added < calls.count addListener := by
  obtain ⟨inside, _⟩ := List.getElem?_eq_some_iff.mp known
  rwa [handles, handles_length] at inside

theorem handle_known (calls : List ListenerCall) (added : Nat) (inside : added < calls.count addListener) :
    ∃ handle, (handles calls)[added]? = some handle := by
  rw [← handles_length (β := Unit) id calls] at inside
  exact ⟨_, List.getElem?_eq_getElem inside⟩

theorem ordered (calls : List ListenerCall) (proper : Proper calls) : Ordered calls := by
  induction calls using List.reverseRecOn with
  | nil => exact ⟨List.Pairwise.nil, by simp [places, run, Client.start], by simp [handles, run, Client.start]⟩
  | append_singleton calls last ih =>
      obtain ⟨before, here⟩ := (throughout_append _ calls last).mp proper
      obtain ⟨ascending, bounded, behind⟩ := ih before
      cases last with
      | addListener =>
          obtain ⟨placed, returned⟩ := places_add calls
          refine ⟨?_, ?_, ?_⟩
          · rw [placed, List.pairwise_append]
            exact ⟨ascending, List.pairwise_singleton _ _, by simpa using bounded⟩
          · intro added member
            rw [List.count_append, List.count_singleton_self]
            rw [placed, List.mem_append, List.mem_singleton] at member
            rcases member with old | rfl
            · exact Nat.lt_succ_of_lt (bounded added old)
            · exact Nat.lt_succ_self _
          · intro added handle known
            have inside := handle_bounded _ added handle known
            rw [List.count_append, List.count_singleton_self] at inside
            rw [placed, below_append]
            have alone : below [calls.count addListener] added = 0 := by
              rw [below_cons, if_neg (by omega)]
              rfl
            rw [alone, Nat.add_zero]
            rw [returned, List.getElem?_append] at known
            split at known
            · exact behind added handle known
            · next new =>
                have all := below_le (places calls) added
                obtain ⟨_, rfl⟩ := List.getElem?_eq_some_iff.mp known
                simpa using all
      | removeListener removed =>
          obtain ⟨handle, known⟩ := handle_known calls removed (here removed rfl).1
          obtain ⟨placed, returned⟩ := places_remove calls removed handle known
          have part := List.eraseIdx_sublist (places calls) handle
          rw [← placed] at part
          refine ⟨ascending.sublist part, ?_, ?_⟩
          · intro added member
            rw [List.count_append, List.count_singleton]
            exact Nat.lt_of_lt_of_le (bounded added (part.mem member)) (Nat.le_add_right _ _)
          · intro added other found
            rw [returned] at found
            exact (part.countP_le).trans (behind added other found)

theorem kept_ascending (calls : List ListenerCall) : (kept calls).Pairwise (· < ·) :=
  List.pairwise_lt_range.filter _

theorem kept_add (calls : List ListenerCall) (proper : Proper calls) :
    kept (calls ++ [addListener]) = kept calls ++ [calls.count addListener] := by
  have fresh : removeListener (calls.count addListener) ∉ calls := by
    intro member
    obtain ⟨front, back, split⟩ := List.append_of_mem member
    have early := (proper front _ back split _ rfl).1
    have whole := congrArg (List.count addListener) split
    rw [List.count_append] at whole
    omega
  have same : ∀ added, removeListener added ∈ calls ++ [addListener] ↔ removeListener added ∈ calls := by simp
  simp only [kept, List.count_append, List.count_singleton_self, List.range_succ, List.filter_append, same]
  simp [fresh]

theorem kept_remove (calls : List ListenerCall) (removed : Nat) (inside : removed < calls.count addListener)
    (fresh : removeListener removed ∉ calls) :
    (kept calls).Perm (removed :: kept (calls ++ [removeListener removed])) := by
  have member : removed ∈ kept calls := by
    simp [kept, inside, fresh]
  have distinct : (kept calls).Nodup := (kept_ascending calls).imp (fun less => Nat.ne_of_lt less)
  have count : (calls ++ [removeListener removed]).count addListener = calls.count addListener := by simp
  have same : kept (calls ++ [removeListener removed]) = (kept calls).erase removed := by
    rw [distinct.erase_eq_filter, kept, count, kept, List.filter_filter]
    apply List.filter_congr
    intro added _
    by_cases this_one : added = removed
    · simp [this_one]
    · simp [this_one]
  rw [same]
  exact List.perm_cons_erase member

theorem eq_of_perm_of_ascending {list other : List Nat} (same : list.Perm other) (left : list.Pairwise (· < ·))
    (right : other.Pairwise (· < ·)) : list = other :=
  same.eq_of_pairwise (fun _ _ _ _ less greater => absurd less (Nat.lt_asymm greater)) left right

theorem below_kept_remove (calls : List ListenerCall) (removed : Nat) (inside : removed < calls.count addListener)
    (fresh : removeListener removed ∉ calls) (bound : Nat) :
    below (kept calls) bound =
      below (kept (calls ++ [removeListener removed])) bound + if removed < bound then 1 else 0 := by
  rw [below_perm (kept_remove calls removed inside fresh) bound, below_cons]

theorem victim_behind (calls : List ListenerCall) (proper : Proper calls) (removed handle : Nat)
    (known : (handles calls)[removed]? = some handle) (inside : handle < (places calls).length) :
    removed ≤ (places calls)[handle] := by
  obtain ⟨ascending, _, behind⟩ := ordered calls proper
  have beyond := (getElem_lt_iff (places calls) ascending removed handle inside).not.mpr
    (Nat.not_lt.mpr (behind removed handle known))
  omega

theorem below_kept_le (calls : List ListenerCall) (proper : Proper calls) (bound : Nat) :
    below (kept calls) bound ≤ below (places calls) bound := by
  induction calls using List.reverseRecOn with
  | nil => exact le_refl _
  | append_singleton calls last ih =>
      obtain ⟨before, here⟩ := (throughout_append _ calls last).mp proper
      have least := ih before
      cases last with
      | addListener =>
          rw [kept_add calls before, (places_add calls).1, below_append, below_append]
          exact Nat.add_le_add_right least _
      | removeListener removed =>
          obtain ⟨inside, fresh⟩ := here removed rfl
          obtain ⟨handle, known⟩ := handle_known calls removed inside
          have dropped := below_kept_remove calls removed inside fresh bound
          rw [(places_remove calls removed handle known).1]
          by_cases within : handle < (places calls).length
          · have later := victim_behind calls before removed handle known within
            have taken := below_eraseIdx (places calls) handle bound within
            split at dropped <;> split at taken <;> omega
          · rw [List.eraseIdx_of_length_le (Nat.le_of_not_lt within)]
            omega

/-- A removal is right only if all before it were, and it then is if the handle is still the
place of its listener. -/
theorem remove_exact_iff (calls : List ListenerCall) (removed handle : Nat)
    (proper : Proper (calls ++ [removeListener removed])) (known : (handles calls)[removed]? = some handle) :
    places (calls ++ [removeListener removed]) = kept (calls ++ [removeListener removed]) ↔
      places calls = kept calls ∧ handle = below (kept calls) removed := by
  obtain ⟨before, here⟩ := (throughout_append _ calls _).mp proper
  obtain ⟨inside, fresh⟩ := here removed rfl
  have least := below_kept_le calls before (removed + 1)
  have dropped := below_kept_remove calls removed inside fresh (removed + 1)
  rw [if_pos (Nat.lt_succ_self removed)] at dropped
  have ascending := (ordered calls before).ascending
  have perm := kept_remove calls removed inside fresh
  rw [(places_remove calls removed handle known).1]
  constructor
  · intro exact_
    by_cases within : handle < (places calls).length
    · have later := victim_behind calls before removed handle known within
      have taken := below_eraseIdx (places calls) handle (removed + 1) within
      rw [exact_] at taken
      have hit : (places calls)[handle] = removed := by
        split at taken <;> omega
      have whole := List.getElem_cons_eraseIdx_perm within
      rw [hit, exact_] at whole
      have same := eq_of_perm_of_ascending (whole.symm.trans perm.symm) ascending (kept_ascending calls)
      have place := index_eq_below (places calls) ascending handle within
      rw [hit] at place
      exact ⟨same, same ▸ place⟩
    · rw [List.eraseIdx_of_length_le (Nat.le_of_not_lt within)] at exact_
      rw [exact_] at least
      omega
  · rintro ⟨same, place⟩
    have member : removed ∈ kept calls := perm.symm.subset List.mem_cons_self
    obtain ⟨index, within, found⟩ := List.getElem_of_mem member
    have there := index_eq_below (kept calls) (kept_ascending calls) index within
    rw [found, ← place] at there
    subst there
    have whole := List.getElem_cons_eraseIdx_perm within
    rw [found] at whole
    rw [same]
    exact eq_of_perm_of_ascending (whole.trans perm).cons_inv
      ((kept_ascending calls).sublist (List.eraseIdx_sublist _ _)) (kept_ascending _)

theorem add_exact_iff (calls : List ListenerCall) (proper : Proper calls) :
    places (calls ++ [addListener]) = kept (calls ++ [addListener]) ↔ places calls = kept calls := by
  rw [kept_add calls proper, (places_add calls).1, List.append_left_inj]

theorem sinceAdded_append (added : Nat) (calls more : List ListenerCall) (inside : added < calls.count addListener) :
    sinceAdded added (calls ++ more) = sinceAdded added calls ++ more := by
  induction calls generalizing added with
  | nil => simp at inside
  | cons first rest ih =>
      cases first with
      | removeListener other => exact ih added (by simpa using inside)
      | addListener =>
          cases added with
          | zero => rfl
          | succ added => exact ih added (by simpa using inside)

theorem sinceAdded_new (calls : List ListenerCall) : sinceAdded (calls.count addListener) (calls ++ [addListener]) = [] := by
  induction calls with
  | nil => rfl
  | cons first rest ih =>
      cases first with
      | removeListener other => simpa [sinceAdded] using ih
      | addListener => simpa [sinceAdded] using ih

def disturbs (added : Nat) : ListenerCall → Bool
  | addListener => false
  | removeListener earlier => earlier < added

/-- How often a listener moved to the front since it was added. -/
def disturbances (added : Nat) (calls : List ListenerCall) : Nat := (sinceAdded added calls).countP (disturbs added)

theorem disturbances_eq_zero (added : Nat) (calls : List ListenerCall) :
    disturbances added calls = 0 ↔ ∀ earlier < added, removeListener earlier ∉ sinceAdded added calls := by
  rw [disturbances, List.countP_eq_zero]
  constructor
  · intro none earlier less member
    exact none _ member (by simpa [disturbs] using less)
  · intro none call member disturbing
    cases call with
    | addListener => cases disturbing
    | removeListener earlier => exact none earlier (by simpa [disturbs] using disturbing) member

theorem handle_eq (calls : List ListenerCall) (proper : Proper calls) (exact_ : places calls = kept calls)
    (added handle : Nat) (known : (handles calls)[added]? = some handle) :
    handle = below (kept calls) added + disturbances added calls := by
  induction calls using List.reverseRecOn with
  | nil => simp [handles, run, Client.start] at known
  | append_singleton calls last ih =>
      obtain ⟨before, here⟩ := (throughout_append _ calls last).mp proper
      cases last with
      | addListener =>
          have same := (add_exact_iff calls before).mp exact_
          have length : (handles calls).length = calls.count addListener := handles_length id calls
          have inside := handle_bounded _ added handle known
          rw [List.count_append, List.count_singleton_self] at inside
          have alone : below [calls.count addListener] added = 0 := by
            rw [below_cons, if_neg (by omega)]
            rfl
          rw [kept_add calls before, below_append, alone, Nat.add_zero]
          rw [(places_add calls).2, List.getElem?_append, length] at known
          split at known
          · next old =>
              have first := ih before same known
              have quiet : [addListener].countP (disturbs added) = 0 := rfl
              rw [disturbances, sinceAdded_append added calls _ old, List.countP_append, ← disturbances, quiet]
              exact first
          · next new =>
              obtain rfl : added = calls.count addListener := by omega
              rw [Nat.sub_self, List.getElem?_cons_zero, Option.some.injEq] at known
              have all : ∀ number ∈ kept calls, number < calls.count addListener := by
                intro number member
                exact List.mem_range.mp (List.mem_of_mem_filter member)
              rw [disturbances, sinceAdded_new, List.countP_nil, below_of_all _ _ all, ← known, same, Nat.add_zero]
      | removeListener removed =>
          obtain ⟨inside, fresh⟩ := here removed rfl
          obtain ⟨place, found⟩ := handle_known calls removed inside
          have same := ((remove_exact_iff calls removed place proper found).mp exact_).1
          rw [(places_remove calls removed place found).2] at known
          have first := ih before same known
          have dropped := below_kept_remove calls removed inside fresh added
          have moved : [removeListener removed].countP (disturbs added) = if removed < added then 1 else 0 := by
            simp [disturbs]
          rw [disturbances, sinceAdded_append added calls _ (handle_bounded calls added handle known),
            List.countP_append, ← disturbances, moved]
          omega

/-- Exactly the listeners that should be told are told, whatever they are, if and only if no
removal was disturbed. -/
theorem places_exact_iff (calls : List ListenerCall) (proper : Proper calls) :
    places calls = kept calls ↔ Undisturbed calls := by
  induction calls using List.reverseRecOn with
  | nil => exact iff_of_true rfl (throughout_nil _)
  | append_singleton calls last ih =>
      obtain ⟨before, here⟩ := (throughout_append _ calls last).mp proper
      rw [Undisturbed, throughout_append, ← Undisturbed, ← ih before]
      cases last with
      | addListener =>
          rw [add_exact_iff calls before]
          simp
      | removeListener removed =>
          obtain ⟨handle, known⟩ := handle_known calls removed (here removed rfl).1
          rw [remove_exact_iff calls removed handle proper known]
          refine and_congr_right (fun same => ?_)
          have place := handle_eq calls before same removed handle known
          have still : handle = below (kept calls) removed ↔ disturbances removed calls = 0 := by omega
          rw [still, disturbances_eq_zero]
          simp

end Runs

def notified (client : Client α β) (name : Bytes) (attr : β) : List (α × ListenerEventType × Bytes × β) :=
  (client.holder.setAttributeInternal name attr).2

/-- Whatever the listeners, those are told that were added and not removed, exactly if no
listener is removed after one that was added before it was removed in the meantime. -/
theorem notified_exact_iff (calls : List ListenerCall) (proper : Proper calls) :
    (∀ (α β : Type) (listener : Nat → α) (name : Bytes) (attr : β),
      notified (run listener calls) name attr =
        (kept calls).map (fun added => (listener added, .updateAttribute, name, attr))) ↔
    Undisturbed calls := by
  rw [← places_exact_iff calls proper]
  constructor
  · intro all
    have told := all Nat Unit id [] ()
    obtain ⟨listeners, _, enabled⟩ := run_places (β := Unit) id calls
    rw [notified, AttributesHolder.setAttributeInternal, enabled, if_pos rfl, listeners, List.map_id] at told
    have numbers := congrArg (List.map Prod.fst) told
    rw [List.map_map, List.map_map] at numbers
    exact (List.map_id (places calls)).symm.trans (numbers.trans (List.map_id (kept calls)))
  · intro same α β listener name attr
    obtain ⟨listeners, _, enabled⟩ := run_places (β := β) listener calls
    rw [notified, AttributesHolder.setAttributeInternal, enabled, if_pos rfl, listeners, same, List.map_map]
    rfl

theorem notified_exact_iff_last_first :
    notified (run id [addListener, addListener, removeListener 1, addListener, removeListener 0]) (ascii "name") 5 =
      [(2, .updateAttribute, ascii "name", 5)] := by
  have proper : Proper ([] ++ [addListener] ++ [addListener] ++ [removeListener 1] ++ [addListener] ++
      [removeListener 0]) := by
    simp only [Proper, throughout_append, throughout_nil]
    simp
  have undisturbed : Undisturbed ([] ++ [addListener] ++ [addListener] ++ [removeListener 1] ++ [addListener] ++
      [removeListener 0]) := by
    simp only [Undisturbed, throughout_append, throughout_nil]
    simp [sinceAdded]
  exact (notified_exact_iff _ proper).mpr undisturbed Nat Nat id (ascii "name") 5

/-- The second of three listeners keeps being told instead of the third, when the first two
are removed in the order in which they were added. -/
theorem handle_moved :
    Proper [addListener, addListener, addListener, removeListener 0, removeListener 1] ∧
      kept [addListener, addListener, addListener, removeListener 0, removeListener 1] = [2] ∧
      notified (run id [addListener, addListener, addListener, removeListener 0, removeListener 1]) (ascii "name") 5 =
        [(1, .updateAttribute, ascii "name", 5)] := by
  refine ⟨?_, by decide, by decide +kernel⟩
  have proper : Proper ([] ++ [addListener] ++ [addListener] ++ [addListener] ++ [removeListener 0] ++
      [removeListener 1]) := by
    simp only [Proper, throughout_append, throughout_nil]
    simp
  exact proper

end ListenerCall

end FastcgiContainer
