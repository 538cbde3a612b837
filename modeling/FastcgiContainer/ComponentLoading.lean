import FastcgiContainer.ComponentSet
import FastcgiContainer.Postorder

/-! Loading is a depth-first search over the components. A component is entered at most
once, and is recorded as loaded after all those that its `onLoad` found. -/

namespace FastcgiContainer

open Word (Bytes)
open Relation (TransGen)

namespace OnLoad

def asks (kinds : Bytes → Option String) : OnLoad → List Bytes
  | .done => []
  | .fail _ => []
  | .find name rest => name :: asks kinds (rest (kinds name))

def fails (kinds : Bytes → Option String) : OnLoad → Bool
  | .done => false
  | .fail _ => true
  | .find name rest => fails kinds (rest (kinds name))

end OnLoad

namespace ComponentSet

abbrev Table := Bytes → Option Component

def kinds (table : Table) (name : Bytes) : Option String := (table name).map Component.type

/-- The `onLoad` of one existing component looks for another. -/
def DependsOn (table : Table) (name other : Bytes) : Prop :=
  ∃ component, table name = some component ∧ other ∈ component.onLoad.asks (kinds table) ∧
    (table other).isSome = true

def started (set : ComponentSet) (name : Bytes) : Bool :=
  (set.components.find? name).any ComponentContainer.isLoadingStarted

theorem isComponentLoaded_iff {set : ComponentSet} {name : Bytes} :
    set.isComponentLoaded name = true ↔ name ∈ set.loadingStack :=
  List.contains_iff_mem

def Busy (set : ComponentSet) (name : Bytes) : Prop :=
  set.started name = true ∧ name ∉ set.loadingStack

def Follows (later earlier : LoadEvent) : Prop :=
  ∃ name, later = .returned name ∧ earlier = .completed name

structure Loading (table : Table) (set : ComponentSet) : Prop where
  held : ∀ name, (set.components.find? name).map ComponentContainer.component = table name
  loaded : ∀ name ∈ set.loadingStack, set.started name = true
  sorted : Postorder (DependsOn table) set.loadingStack
  called : ∀ name, set.events.count (.called name) = if set.started name then 1 else 0
  completed : ∀ name ∈ set.loadingStack, LoadEvent.completed name ∈ set.events
  returned : Postorder Follows set.events

structure Grows (set next : ComponentSet) : Prop where
  started : ∀ name, set.started name = true → next.started name = true
  loaded : ∀ name ∈ set.loadingStack, name ∈ next.loadingStack

theorem Grows.refl (set : ComponentSet) : Grows set set := ⟨fun _ here => here, fun _ here => here⟩

theorem Grows.trans {first second third : ComponentSet} (left : Grows first second)
    (right : Grows second third) : Grows first third :=
  ⟨fun name here => right.started name (left.started name here),
    fun name here => right.loaded name (left.loaded name here)⟩

section Loading

variable {table : Table} {set : ComponentSet} {name : Bytes}

theorem Loading.log_returned (loading : Loading table set) (loaded : name ∈ set.loadingStack) :
    Loading table (set.log (.returned name)) := by
  refine ⟨loading.held, loading.loaded, loading.sorted, ?_, ?_, ?_⟩
  · intro other
    simp only [log, List.count_append, List.count_singleton]
    rw [loading.called other]
    rfl
  · intro other member
    exact List.mem_append_left _ (loading.completed other member)
  · apply loading.returned.push
    rintro event ⟨other, same, rfl⟩
    cases same
    exact loading.completed name loaded

theorem started_startLoading (cont : ComponentContainer) (query : Bytes) :
    (set.startLoading name cont).started query = (decide (name = query) || set.started query) := by
  simp only [started, startLoading, find?_assign]
  by_cases same : name = query
  · simp [same]
  · simp [same]

theorem Loading.start (loading : Loading table set) {cont : ComponentContainer}
    (found : set.components.find? name = some cont) (idle : cont.isLoadingStarted = false) :
    Loading table (set.startLoading name cont) := by
  have unstarted : set.started name = false := by simp [started, found, idle]
  refine ⟨?_, ?_, loading.sorted, ?_, ?_, ?_⟩
  · intro query
    simp only [startLoading, find?_assign]
    split
    · next same =>
        subst same
        rw [← loading.held name, found]
        rfl
    · exact loading.held query
  · intro query member
    rw [started_startLoading, loading.loaded query member, Bool.or_true]
  · intro query
    rw [started_startLoading]
    simp only [startLoading, List.count_append, List.count_singleton]
    rw [loading.called query]
    by_cases same : name = query
    · subst same
      simp [unstarted]
    · simp [same]
  · intro query member
    exact List.mem_append_left _ (loading.completed query member)
  · apply loading.returned.push
    rintro event ⟨other, same, _⟩
    cases same

theorem Loading.push (loading : Loading table set) (begun : set.started name = true)
    (ready : ∀ other, DependsOn table name other → other ∈ set.loadingStack) :
    Loading table (set.pushLoaded name) := by
  refine ⟨loading.held, ?_, loading.sorted.push ready, ?_, ?_, ?_⟩
  · intro query member
    rcases List.mem_append.mp member with old | new
    · exact loading.loaded query old
    · rw [List.mem_singleton.mp new]
      exact begun
  · intro query
    simp only [pushLoaded, List.count_append, List.count_singleton]
    rw [loading.called query]
    rfl
  · intro query member
    simp only [pushLoaded] at member ⊢
    rcases List.mem_append.mp member with old | new
    · exact List.mem_append_left _ (loading.completed query old)
    · rw [List.mem_singleton.mp new]
      exact List.mem_append_right _ (List.mem_singleton.mpr rfl)
  · apply loading.returned.push
    rintro event ⟨other, same, _⟩
    cases same

end Loading

/-- No component depends on itself, and no `onLoad` throws an exception of its own. -/
structure Clean (table : Table) : Prop where
  acyclic : ∀ name, ¬TransGen (DependsOn table) name name
  succeeds : ∀ name component, table name = some component →
    component.onLoad.fails (kinds table) = false

/-- What a call of `sendOnLoad` leaves. It fails in a clean set only if something that is
busy does not lead to the component. -/
structure Sent (table : Table) (set : ComponentSet) (name : Bytes) (next : ComponentSet)
    (outcome : Except Thrown Unit) : Prop where
  loading : Loading table next
  grows : Grows set next
  loads : outcome = .ok () → name ∈ next.loadingStack
  settles : outcome = .ok () → ∀ other, Busy next other → Busy set other
  clean : Clean table → (∀ other, Busy set other → TransGen (DependsOn table) other name) →
    outcome = .ok ()

structure Found (table : Table) (set : ComponentSet) (name : Bytes) (next : ComponentSet)
    (outcome : Except Thrown (Option String)) : Prop where
  loading : Loading table next
  grows : Grows set next
  answers : ∀ found, outcome = .ok found → found = kinds table name
  loads : ∀ found, outcome = .ok found → (table name).isSome = true → name ∈ next.loadingStack
  settles : ∀ found, outcome = .ok found → ∀ other, Busy next other → Busy set other
  clean : Clean table → ((table name).isSome = true →
    ∀ other, Busy set other → TransGen (DependsOn table) other name) → ∃ found, outcome = .ok found

structure Ran (table : Table) (set : ComponentSet) (onLoad : OnLoad) (next : ComponentSet)
    (outcome : Except Thrown Unit) : Prop where
  loading : Loading table next
  grows : Grows set next
  loads : outcome = .ok () → ∀ other ∈ onLoad.asks (kinds table), (table other).isSome = true →
    other ∈ next.loadingStack
  settles : outcome = .ok () → ∀ other, Busy next other → Busy set other
  clean : Clean table → onLoad.fails (kinds table) = false →
    (∀ other ∈ onLoad.asks (kinds table), (table other).isSome = true →
      ∀ busy, Busy set busy → TransGen (DependsOn table) busy other) → outcome = .ok ()

def unstarted (names : Finset Bytes) (set : ComponentSet) : Nat :=
  (names.filter (fun name => set.started name = false)).card

def Sends (table : Table) (names : Finset Bytes) (bound : Nat)
    (send : ComponentSet → Bytes → Result Unit) : Prop :=
  ∀ set name, Loading table set → (table name).isSome = true → unstarted names set < bound →
    ∃ next outcome, send set name = some (next, outcome) ∧ Sent table set name next outcome

section Specification

variable {table : Table} {names : Finset Bytes} {bound : Nat}
  {send : ComponentSet → Bytes → Result Unit} {set next : ComponentSet} {name : Bytes}

theorem unstarted_grows (grows : Grows set next) : unstarted names next ≤ unstarted names set := by
  apply Finset.card_le_card
  intro query member
  rw [Finset.mem_filter] at member ⊢
  refine ⟨member.1, ?_⟩
  by_contra begun
  have also := grows.started query (by simpa using begun)
  rw [member.2] at also
  cases also

theorem unstarted_startLoading (cont : ComponentContainer) (listed : name ∈ names)
    (idle : set.started name = false) : unstarted names (set.startLoading name cont) < unstarted names set := by
  apply Finset.card_lt_card
  rw [Finset.ssubset_iff_of_subset]
  · refine ⟨name, by simp [listed, idle], ?_⟩
    simp [started_startLoading]
  · intro query member
    rw [Finset.mem_filter] at member ⊢
    refine ⟨member.1, ?_⟩
    have both := member.2
    rw [started_startLoading, Bool.or_eq_false_iff] at both
    exact both.2

theorem find_spec (sends : Sends table names bound send) (loading : Loading table set) (name : Bytes)
    (small : unstarted names set < bound) :
    ∃ next outcome, find send set name = some (next, outcome) ∧ Found table set name next outcome := by
  have held := loading.held name
  unfold find
  cases present : set.components.find? name with
  | none =>
      rw [present] at held
      have missing : table name = none := held.symm
      refine ⟨set, .ok none, rfl, loading, .refl set, ?_, ?_, fun _ _ _ busy => busy,
        fun _ _ => ⟨none, rfl⟩⟩
      · intro found same
        cases same
        simp [kinds, missing]
      · intro found _ existing
        simp [missing] at existing
  | some cont =>
      rw [present] at held
      have kind : some cont.component.type = kinds table name := by
        rw [kinds, ← held]
        rfl
      have existing : (table name).isSome = true := by simp [← held]
      simp only
      by_cases loaded : name ∈ set.loadingStack
      · rw [if_pos (isComponentLoaded_iff.mpr loaded)]
        refine ⟨_, _, rfl, loading.log_returned loaded, ⟨fun _ here => here, fun _ here => here⟩, ?_,
          fun _ _ _ => loaded, fun _ _ _ busy => busy, fun _ _ => ⟨_, rfl⟩⟩
        intro found same
        cases same
        exact kind
      · rw [if_neg (isComponentLoaded_iff.not.mpr loaded)]
        obtain ⟨next, outcome, done, sent⟩ := sends set name loading existing small
        rw [done]
        cases outcome with
        | error exn =>
            refine ⟨next, .error exn, rfl, sent.loading, sent.grows, (fun _ wrong => by cases wrong),
              (fun _ wrong => by cases wrong), (fun _ wrong => by cases wrong), ?_⟩
            intro clean leads
            exact absurd (sent.clean clean (leads existing)) (by simp)
        | ok value =>
            have now := sent.loads rfl
            refine ⟨_, _, rfl, sent.loading.log_returned now,
              sent.grows.trans ⟨fun _ here => here, fun _ here => here⟩, ?_, fun _ _ _ => now,
              fun _ _ => sent.settles rfl, fun _ _ => ⟨_, rfl⟩⟩
            intro found same
            cases same
            exact kind

theorem runOnLoad_spec (sends : Sends table names bound send) (onLoad : OnLoad)
    (loading : Loading table set) (small : unstarted names set < bound) :
    ∃ next outcome, runOnLoad send onLoad set = some (next, outcome) ∧
      Ran table set onLoad next outcome := by
  induction onLoad generalizing set with
  | done =>
      refine ⟨set, .ok (), rfl, loading, .refl set, ?_, fun _ _ here => here, fun _ _ _ => rfl⟩
      intro _ other member
      simp [OnLoad.asks] at member
  | fail exn =>
      refine ⟨set, .error exn, rfl, loading, .refl set, (fun wrong => by cases wrong),
        (fun wrong => by cases wrong), ?_⟩
      intro _ fine
      simp [OnLoad.fails] at fine
  | find name rest ih =>
      obtain ⟨middle, answer, asked, looked⟩ := find_spec sends loading name small
      simp only [runOnLoad, asked]
      cases answer with
      | error exn =>
          refine ⟨middle, .error exn, rfl, looked.loading, looked.grows, (fun wrong => by cases wrong),
            (fun wrong => by cases wrong), ?_⟩
          intro fine _ leads
          obtain ⟨found, wrong⟩ := looked.clean fine (leads name (by simp [OnLoad.asks]))
          cases wrong
      | ok found =>
          obtain rfl := looked.answers found rfl
          have settled := looked.settles _ rfl
          obtain ⟨next, outcome, done, ran⟩ := ih (kinds table name) looked.loading
            (lt_of_le_of_lt (unstarted_grows looked.grows) small)
          refine ⟨next, outcome, done, ran.loading, looked.grows.trans ran.grows, ?_, ?_, ?_⟩
          · intro fine other member existing
            simp only [OnLoad.asks, List.mem_cons] at member
            rcases member with rfl | later
            · exact ran.grows.loaded other (looked.loads _ rfl existing)
            · exact ran.loads fine other later existing
          · intro fine other busy
            exact settled other (ran.settles fine other busy)
          · intro fine succeeds leads
            apply ran.clean fine succeeds
            intro other member existing busy here
            apply leads other _ existing busy (settled busy here)
            exact List.mem_cons_of_mem name member

theorem grows_startLoading (cont : ComponentContainer) : Grows set (set.startLoading name cont) := by
  refine ⟨?_, fun _ here => here⟩
  intro query begun
  rw [started_startLoading, begun, Bool.or_true]

theorem grows_pushLoaded : Grows set (set.pushLoaded name) :=
  ⟨fun _ here => here, fun _ here => List.mem_append_left _ here⟩

theorem busy_startLoading {cont : ComponentContainer} {other : Bytes}
    (busy : Busy (set.startLoading name cont) other) : name = other ∨ Busy set other := by
  obtain ⟨begun, unloaded⟩ := busy
  rw [started_startLoading, Bool.or_eq_true, decide_eq_true_iff] at begun
  exact begun.imp_right (fun before => ⟨before, unloaded⟩)

theorem busy_pushLoaded {other : Bytes} (busy : Busy (set.pushLoaded name) other) :
    name ≠ other ∧ Busy set other := by
  obtain ⟨begun, unloaded⟩ := busy
  simp only [pushLoaded, List.mem_append, List.mem_singleton, not_or] at unloaded
  exact ⟨Ne.symm unloaded.2, begun, unloaded.1⟩

/-- A component that is entered, when its `onLoad` has run. -/
theorem Ran.sent {cont : ComponentContainer} {next : ComponentSet} {outcome : Except Thrown Unit}
    (ran : Ran table (set.startLoading name cont) cont.component.onLoad next outcome)
    (held : table name = some cont.component) :
    Sent table set name (if outcome = .ok () then next.pushLoaded name else next)
      (outcome.mapError rethrow) := by
  have edge : ∀ other, DependsOn table name other →
      other ∈ cont.component.onLoad.asks (kinds table) ∧ (table other).isSome = true := by
    rintro other ⟨component, same, member, existing⟩
    obtain rfl := Option.some.inj (held.symm.trans same)
    exact ⟨member, existing⟩
  cases outcome with
  | error exn =>
      refine ⟨ran.loading, (grows_startLoading cont).trans ran.grows, (fun wrong => by cases wrong),
        (fun wrong => by cases wrong), ?_⟩
      intro clean leads
      have fine := ran.clean clean (clean.succeeds name _ held) (by
        intro other member existing busy here
        have step : DependsOn table name other := ⟨_, held, member, existing⟩
        rcases busy_startLoading here with rfl | before
        · exact .single step
        · exact (leads busy before).tail step)
      cases fine
  | ok value =>
      rw [if_pos rfl]
      have begun : next.started name = true := by
        apply ran.grows.started
        rw [started_startLoading, decide_eq_true rfl, Bool.true_or]
      refine ⟨ran.loading.push begun ?_, ?_, ?_, ?_, fun _ _ => rfl⟩
      · intro other depends
        exact ran.loads rfl other (edge other depends).1 (edge other depends).2
      · exact (grows_startLoading cont).trans (ran.grows.trans grows_pushLoaded)
      · intro _
        exact List.mem_append_right _ (List.mem_singleton.mpr rfl)
      · intro _ other busy
        obtain ⟨differs, before⟩ := busy_pushLoaded busy
        exact (busy_startLoading (ran.settles rfl other before)).resolve_left differs

theorem sendOnLoad_spec (listed : ∀ name, (table name).isSome = true → name ∈ names) (depth : Nat) :
    Sends table names depth (sendOnLoad depth) := by
  induction depth with
  | zero =>
      intro set name _ _ small
      exact absurd small (Nat.not_lt_zero _)
  | succ depth ih =>
      intro set name loading existing small
      unfold sendOnLoad
      by_cases loaded : name ∈ set.loadingStack
      · rw [if_pos (isComponentLoaded_iff.mpr loaded)]
        exact ⟨set, .ok (), rfl, loading, .refl set, fun _ => loaded, fun _ _ here => here,
          fun _ _ => rfl⟩
      · rw [if_neg (isComponentLoaded_iff.not.mpr loaded)]
        have held := loading.held name
        cases found : set.components.find? name with
        | none =>
            rw [found] at held
            simp [← held] at existing
        | some cont =>
            rw [found] at held
            simp only
            cases begun : cont.isLoadingStarted with
            | true =>
                rw [if_pos rfl]
                refine ⟨set, _, rfl, loading, .refl set, (fun wrong => by cases wrong),
                  (fun wrong => by cases wrong), ?_⟩
                intro clean leads
                have busy : Busy set name := ⟨by simp [started, found, begun], loaded⟩
                exact absurd (leads name busy) (clean.acyclic name)
            | false =>
                rw [if_neg (by simp)]
                have idle : set.started name = false := by simp [started, found, begun]
                have fewer := unstarted_startLoading cont (listed name existing) idle
                obtain ⟨next, outcome, done, ran⟩ := runOnLoad_spec ih cont.component.onLoad
                  (loading.start found begun) (by omega)
                rw [done]
                have sent := ran.sent held.symm
                cases outcome with
                | error exn => exact ⟨next, .error (rethrow exn), rfl, sent⟩
                | ok value => exact ⟨next.pushLoaded name, .ok (), rfl, sent⟩

theorem sendToAll_spec (sends : Sends table names bound send) (components : List Bytes)
    (existing : ∀ name ∈ components, (table name).isSome = true) (loading : Loading table set)
    (small : unstarted names set < bound) :
    ∃ next outcome, sendToAll send components set = some (next, outcome) ∧ Loading table next ∧
      Grows set next ∧ (outcome = .ok () → ∀ name ∈ components, name ∈ next.loadingStack) ∧
      (Clean table → (∀ other, ¬Busy set other) → outcome = .ok ()) := by
  induction components generalizing set with
  | nil =>
      refine ⟨set, .ok (), rfl, loading, .refl set, ?_, fun _ _ => rfl⟩
      intro _ name member
      simp at member
  | cons name rest ih =>
      obtain ⟨middle, answer, asked, sent⟩ := sends set name loading (existing name (by simp)) small
      simp only [sendToAll, asked]
      cases answer with
      | error exn =>
          refine ⟨middle, .error exn, rfl, sent.loading, sent.grows, (fun wrong => by cases wrong), ?_⟩
          intro clean calm
          have fine := sent.clean clean (fun other busy => absurd busy (calm other))
          cases fine
      | ok value =>
          obtain ⟨next, outcome, done, finished, grows, loads, clean⟩ :=
            ih (fun other member => existing other (List.mem_cons_of_mem name member)) sent.loading
              (lt_of_le_of_lt (unstarted_grows sent.grows) small)
          refine ⟨next, outcome, done, finished, sent.grows.trans grows, ?_, ?_⟩
          · intro fine other member
            rcases List.mem_cons.mp member with rfl | later
            · exact grows.loaded other (sent.loads rfl)
            · exact loads fine other later
          · intro fine calm
            apply clean fine
            intro other busy
            exact calm other (sent.settles rfl other busy)

end Specification

section Depth

variable {send deeper : ComponentSet → Bytes → Result Unit}
  (more : ∀ set name result, send set name = some result → deeper set name = some result)

include more

theorem find_mono (set : ComponentSet) (name : Bytes) (result : ComponentSet × Except Thrown (Option String))
    (done : find send set name = some result) : find deeper set name = some result := by
  unfold find at done ⊢
  cases present : set.components.find? name with
  | none =>
      rw [present] at done
      exact done
  | some cont =>
      rw [present] at done
      simp only at done ⊢
      split
      · next loaded =>
          rw [if_pos loaded] at done
          exact done
      · next unloaded =>
          rw [if_neg unloaded] at done
          cases sent : send set name with
          | none => simp [sent] at done
          | some inner =>
              rw [sent] at done
              rw [more set name inner sent]
              exact done

theorem runOnLoad_mono (onLoad : OnLoad) (set : ComponentSet) (result : ComponentSet × Except Thrown Unit)
    (done : runOnLoad send onLoad set = some result) : runOnLoad deeper onLoad set = some result := by
  induction onLoad generalizing set with
  | done => exact done
  | fail exn => exact done
  | find name rest ih =>
      simp only [runOnLoad] at done ⊢
      cases found : find send set name with
      | none => simp [found] at done
      | some inner =>
          rw [found] at done
          rw [find_mono more set name inner found]
          obtain ⟨middle, answer⟩ := inner
          cases answer with
          | error exn => exact done
          | ok value => exact ih value middle done

theorem sendToAll_mono (components : List Bytes) (set : ComponentSet)
    (result : ComponentSet × Except Thrown Unit) (done : sendToAll send components set = some result) :
    sendToAll deeper components set = some result := by
  induction components generalizing set with
  | nil => exact done
  | cons name rest ih =>
      simp only [sendToAll] at done ⊢
      cases sent : send set name with
      | none => simp [sent] at done
      | some inner =>
          rw [sent] at done
          rw [more set name inner sent]
          obtain ⟨middle, answer⟩ := inner
          cases answer with
          | error exn => exact done
          | ok value => exact ih middle done

end Depth

theorem sendOnLoad_mono (depth : Nat) (set : ComponentSet) (name : Bytes)
    (result : ComponentSet × Except Thrown Unit) (done : sendOnLoad depth set name = some result) :
    sendOnLoad (depth + 1) set name = some result := by
  induction depth generalizing set name result with
  | zero => cases done
  | succ depth ih =>
      rw [sendOnLoad] at done ⊢
      split
      · next loaded =>
          rw [if_pos loaded] at done
          exact done
      · next unloaded =>
          rw [if_neg unloaded] at done
          cases found : set.components.find? name with
          | none =>
              rw [found] at done
              exact done
          | some cont =>
              rw [found] at done
              simp only at done ⊢
              split
              · next begun =>
                  rw [if_pos begun] at done
                  exact done
              · next idle =>
                  rw [if_neg idle] at done
                  cases ran : runOnLoad (sendOnLoad depth) cont.component.onLoad
                      (set.startLoading name cont) with
                  | none => simp [ran] at done
                  | some inner =>
                      rw [ran] at done
                      rw [runOnLoad_mono ih _ _ inner ran]
                      exact done

theorem sendOnLoad_deeper {depth more : Nat} (order : depth ≤ more) (set : ComponentSet) (name : Bytes)
    (result : ComponentSet × Except Thrown Unit) (done : sendOnLoad depth set name = some result) :
    sendOnLoad more set name = some result := by
  induction order with
  | refl => exact done
  | step _ ih => exact sendOnLoad_mono _ set name result ih

section Init

variable (loader : Loader)

def created (entry : ComponentConfig) : Option Component :=
  (loader entry.type).bind (fun createComponent =>
    ((createComponent entry.componentXPath).toOption).map (fun onLoad => ⟨entry.type, onLoad⟩))

def tableOf (config : List ComponentConfig) : Table :=
  fun name => (config.find? (fun entry => entry.name == name)).bind (created loader)

variable {loader} {config : List ComponentConfig} {set next : ComponentSet}

theorem add_created {entry : ComponentConfig} {component : Component}
    (made : created loader entry = some component) :
    set.add loader entry =
      .ok { set with components := set.components.insert entry.name ⟨component, false⟩ } := by
  unfold created at made
  cases factory : loader entry.type with
  | none => simp [factory] at made
  | some createComponent =>
      rw [factory] at made
      cases outcome : createComponent entry.componentXPath with
      | error exn => simp [outcome, Except.toOption] at made
      | ok onLoad =>
          simp only [Option.bind_some, outcome, Except.toOption, Option.map_some] at made
          simp only [add, factory, outcome]
          rw [← Option.some.inj made]

theorem add_failed (set : ComponentSet) {entry : ComponentConfig} (missing : created loader entry = none) :
    ∃ exn, set.add loader entry = .error exn := by
  unfold created at missing
  cases factory : loader entry.type with
  | none =>
      refine ⟨.exception ("Cannot find component factory for type: " ++ entry.type), ?_⟩
      simp only [add, factory]
  | some createComponent =>
      rw [factory] at missing
      cases outcome : createComponent entry.componentXPath with
      | error exn => exact ⟨rethrow exn, by simp only [add, factory, outcome]⟩
      | ok onLoad => simp [outcome, Except.toOption] at missing

theorem addAll_cases (loader : Loader) (config : List ComponentConfig) (set : ComponentSet) :
    ∃ next outcome, addAll loader config set = (next, outcome) ∧
      next.loadingStack = set.loadingStack ∧ next.events = set.events ∧
      ((∃ exn, outcome = .error exn) ∧ (∃ entry ∈ config, created loader entry = none) ∨
        outcome = .ok () ∧ ∀ name, next.components.find? name = (set.components.find? name).or
          ((tableOf loader config name).map (fun component => ⟨component, false⟩))) := by
  induction config generalizing set with
  | nil => exact ⟨set, .ok (), rfl, rfl, rfl, Or.inr ⟨rfl, fun name => by simp [tableOf]⟩⟩
  | cons entry rest ih =>
      cases made : created loader entry with
      | none =>
          obtain ⟨exn, failed⟩ := add_failed set made
          refine ⟨set, .error exn, by rw [addAll, failed], rfl, rfl, Or.inl ⟨⟨exn, rfl⟩, entry, ?_⟩⟩
          exact ⟨by simp, made⟩
      | some component =>
          obtain ⟨next, outcome, done, stack, events, result⟩ := ih
            { set with components := set.components.insert entry.name ⟨component, false⟩ }
          refine ⟨next, outcome, by rw [addAll, add_created made]; exact done, stack, events, ?_⟩
          rcases result with ⟨failed, other, member, missing⟩ | ⟨fine, contents⟩
          · exact Or.inl ⟨failed, other, List.mem_cons_of_mem entry member, missing⟩
          · refine Or.inr ⟨fine, ?_⟩
            intro name
            rw [contents name, find?_insert]
            unfold tableOf
            by_cases same : entry.name = name
            · rw [if_pos same, List.find?_cons_of_pos (by simpa using same)]
              cases set.components.find? name <;> simp [made]
            · rw [if_neg same, List.find?_cons_of_neg (by simpa using same)]

theorem tableOf_eq {name : Bytes} {component : Component}
    (held : tableOf loader config name = some component) :
    ∃ entry ∈ config, entry.name = name ∧ created loader entry = some component := by
  obtain ⟨entry, found, made⟩ := Option.bind_eq_some_iff.mp held
  have named := List.find?_some found
  exact ⟨entry, List.mem_of_find?_eq_some found, by simpa using named, made⟩

theorem tableOf_isSome (creates : ∀ entry ∈ config, (created loader entry).isSome = true)
    {entry : ComponentConfig} (member : entry ∈ config) :
    (tableOf loader config entry.name).isSome = true := by
  cases found : config.find? (fun other => other.name == entry.name) with
  | none =>
      have missing := List.find?_eq_none.mp found entry member
      simp at missing
  | some first =>
      simp only [tableOf, found, Option.bind_some]
      exact creates first (List.mem_of_find?_eq_some found)

theorem tableOf_listed (name : Bytes) (existing : (tableOf loader config name).isSome = true) :
    name ∈ (config.map ComponentConfig.name).toFinset := by
  obtain ⟨component, held⟩ := Option.isSome_iff_exists.mp existing
  obtain ⟨entry, member, named, _⟩ := tableOf_eq held
  rw [List.mem_toFinset, List.mem_map]
  exact ⟨entry, member, named⟩

theorem loading_added (stack : set.loadingStack = []) (events : set.events = []) {table : Table}
    (contents : ∀ name, set.components.find? name =
      (table name).map (fun component => ⟨component, false⟩)) :
    Loading table set ∧ ∀ name, set.started name = false := by
  have idle : ∀ name, set.started name = false := by
    intro name
    rw [started, contents]
    cases table name <;> rfl
  refine ⟨⟨?_, ?_, ?_, ?_, ?_, ?_⟩, idle⟩
  · intro name
    rw [contents]
    cases table name <;> rfl
  · intro name member
    simp [stack] at member
  · rw [stack]
    exact Postorder.nil
  · intro name
    simp [events, idle name]
  · intro name member
    simp [stack] at member
  · rw [events]
    exact Postorder.nil

theorem mem_components {table : Table} (loading : Loading table set) (name : Bytes) :
    name ∈ set.components.entries.map Prod.fst ↔ (table name).isSome = true := by
  rw [← loading.held name, Option.isSome_map, Option.isSome_iff_exists, List.mem_map]
  constructor
  · rintro ⟨⟨key, cont⟩, member, rfl⟩
    exact ⟨cont, (OrderedMap.find?_eq_some stringLess_exact _ _ _).mpr member⟩
  · rintro ⟨cont, found⟩
    exact ⟨(name, cont), (OrderedMap.find?_eq_some stringLess_exact _ _ _).mp found, rfl⟩

/-- The outcome of `init`, which needs no more nested calls than there are components. -/
theorem init_spec (loader : Loader) (config : List ComponentConfig) :
    ∃ set outcome, (∀ depth, config.length < depth → init loader config depth = some (set, outcome)) ∧
      ((∃ exn, outcome = .error exn) ∧ set.loadingStack = [] ∧
          (∃ entry ∈ config, created loader entry = none) ∨
        Loading (tableOf loader config) set ∧
          (outcome = .ok () →
            ∀ name, (tableOf loader config name).isSome = true → name ∈ set.loadingStack) ∧
          (Clean (tableOf loader config) → outcome = .ok ())) := by
  obtain ⟨set, answer, added, stack, events, result⟩ := addAll_cases loader config empty
  rcases result with ⟨⟨exn, rfl⟩, missing⟩ | ⟨rfl, contents⟩
  · refine ⟨set, .error exn, ?_, Or.inl ⟨⟨exn, rfl⟩, stack, missing⟩⟩
    intro depth _
    rw [init, added]
  · obtain ⟨loading, idle⟩ := loading_added stack events contents
    have components := mem_components loading
    have few : unstarted (config.map ComponentConfig.name).toFinset set < config.length + 1 := by
      apply Nat.lt_succ_of_le
      calc unstarted (config.map ComponentConfig.name).toFinset set
          ≤ (config.map ComponentConfig.name).toFinset.card := Finset.card_filter_le _ _
        _ ≤ (config.map ComponentConfig.name).length := List.toFinset_card_le _
        _ = config.length := List.length_map _
    obtain ⟨next, outcome, done, finished, _, loads, clean⟩ := sendToAll_spec
      (sendOnLoad_spec (fun name => tableOf_listed name) (config.length + 1)) _
      (fun name member => (components name).mp member) loading few
    refine ⟨next, outcome, ?_, Or.inr ⟨finished, ?_, ?_⟩⟩
    · intro depth enough
      simp only [init, added, sendOnLoadToComponents]
      exact sendToAll_mono (sendOnLoad_deeper enough) _ _ _ done
    · intro fine name existing
      exact loads fine name ((components name).mpr existing)
    · intro fine
      apply clean fine
      rintro name ⟨begun, _⟩
      rw [idle name] at begun
      cases begun

end Init

/-- `init` ends. If no component depends on itself and no `onLoad` throws an exception of
its own, it succeeds, each `onLoad` was called once, and a component was found only after its
`onLoad` had completed. Otherwise a component that depends on itself is not loaded, and `init`
throws. -/
theorem components_are_loaded_once (loader : Loader) (config : List ComponentConfig) :
    ∃ set outcome, (∀ depth, config.length < depth → init loader config depth = some (set, outcome)) ∧
      ((∀ entry ∈ config, (created loader entry).isSome = true) →
        (∀ entry ∈ config, ∀ component, created loader entry = some component →
          component.onLoad.fails (kinds (tableOf loader config)) = false) →
        (∀ name, ¬TransGen (DependsOn (tableOf loader config)) name name) →
        outcome = .ok () ∧
          (∀ entry ∈ config, set.events.count (.called entry.name) = 1) ∧
          ∀ before name after, set.events = before ++ .returned name :: after →
            LoadEvent.completed name ∈ before) ∧
      ∀ name, TransGen (DependsOn (tableOf loader config)) name name →
        (∃ exn, outcome = .error exn) ∧ set.isComponentLoaded name = false := by
  obtain ⟨set, outcome, done, result⟩ := init_spec loader config
  refine ⟨set, outcome, done, ?_, ?_⟩
  · intro creates succeeds acyclic
    rcases result with ⟨_, _, entry, member, missing⟩ | ⟨loading, loads, clean⟩
    · have made := creates entry member
      rw [missing] at made
      cases made
    · have fine : outcome = .ok () := by
        apply clean
        refine ⟨acyclic, ?_⟩
        intro name component held
        obtain ⟨entry, member, _, made⟩ := tableOf_eq held
        exact succeeds entry member component made
      refine ⟨fine, ?_, ?_⟩
      · intro entry member
        have loaded := loads fine entry.name (tableOf_isSome creates member)
        rw [loading.called, loading.loaded entry.name loaded, if_pos rfl]
      · intro before name after split
        exact loading.returned before (.returned name) after split (.completed name) ⟨name, rfl, rfl⟩
  · intro name cycle
    rcases result with ⟨failed, unloaded, _⟩ | ⟨loading, loads, _⟩
    · exact ⟨failed, by simp [isComponentLoaded, unloaded]⟩
    · have unloaded : name ∉ set.loadingStack := fun loaded => loading.sorted.acyclic loaded cycle
      refine ⟨?_, Bool.eq_false_iff.mpr (isComponentLoaded_iff.not.mpr unloaded)⟩
      cases outcome with
      | error exn => exact ⟨exn, rfl⟩
      | ok value =>
          obtain ⟨other, ⟨component, held, _⟩, _⟩ := TransGen.head'_iff.mp cycle
          exact absurd (loads rfl name (by simp [held])) unloaded

def smallLoader : Loader := fun type =>
  if type = "logger" then some (fun _ => .ok .done)
  else some (fun _ => .ok (.find [98] (fun _ => .done)))

def chain : List ComponentConfig := [⟨[97], "realm", []⟩, ⟨[98], "logger", []⟩]

def loop : List ComponentConfig := [⟨[97], "logger", []⟩, ⟨[98], "realm", []⟩]

theorem chain_dependsOn {name other : Bytes} (depends : DependsOn (tableOf smallLoader chain) name other) :
    name = [97] ∧ other = [98] := by
  obtain ⟨component, held, member, _⟩ := depends
  obtain ⟨entry, listed, rfl, made⟩ := tableOf_eq held
  simp only [chain, List.mem_cons, List.not_mem_nil, or_false] at listed
  rcases listed with rfl | rfl
  · cases made
    simp only [OnLoad.asks, List.mem_cons, List.not_mem_nil, or_false] at member
    exact ⟨rfl, member⟩
  · cases made
    simp [OnLoad.asks] at member

theorem components_are_loaded_once_chain :
    (∃ set, init smallLoader chain 3 = some (set, .ok ()) ∧
      ∀ entry ∈ chain, set.events.count (.called entry.name) = 1) ∧
    ∃ set exn, init smallLoader loop 3 = some (set, .error exn) ∧ set.isComponentLoaded [98] = false := by
  constructor
  · obtain ⟨set, outcome, done, clean, _⟩ := components_are_loaded_once smallLoader chain
    have straight : ∀ name, ¬TransGen (DependsOn (tableOf smallLoader chain)) name name := by
      intro name cycle
      obtain ⟨other, first, _⟩ := TransGen.head'_iff.mp cycle
      obtain ⟨another, _, last⟩ := TransGen.tail'_iff.mp cycle
      have starts := (chain_dependsOn first).1
      have ends := (chain_dependsOn last).2
      rw [starts] at ends
      exact absurd ends (by decide)
    have succeeds : ∀ entry ∈ chain, ∀ component, created smallLoader entry = some component →
        component.onLoad.fails (kinds (tableOf smallLoader chain)) = false := by
      intro entry listed component made
      simp only [chain, List.mem_cons, List.not_mem_nil, or_false] at listed
      rcases listed with rfl | rfl
      · cases made
        rfl
      · cases made
        rfl
    obtain ⟨rfl, once, _⟩ := clean (by decide) succeeds straight
    exact ⟨set, done 3 (by decide), once⟩
  · obtain ⟨set, outcome, done, _, cyclic⟩ := components_are_loaded_once smallLoader loop
    have edge : DependsOn (tableOf smallLoader loop) [98] [98] :=
      ⟨⟨"realm", .find [98] (fun _ => .done)⟩, rfl, by simp [OnLoad.asks], rfl⟩
    obtain ⟨⟨exn, rfl⟩, unloaded⟩ := cyclic [98] (.single edge)
    exact ⟨set, exn, done 3 (by decide), unloaded⟩

end ComponentSet

end FastcgiContainer
