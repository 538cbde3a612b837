import FastcgiContainer.ComponentLoading

/-! Components are unloaded in the order in which they were loaded. What a component depends
on is loaded first, and so it is unloaded first as well. -/

namespace FastcgiContainer

open Word (Bytes)

namespace ComponentSet

/-- No component is recorded twice, and none that is busy is recorded by another call. -/
structure Keeps (set next : ComponentSet) : Prop where
  nodup : set.loadingStack.Nodup → next.loadingStack.Nodup
  busy : ∀ name, Busy set name → Busy next name

theorem Keeps.refl (set : ComponentSet) : Keeps set set := ⟨fun here => here, fun _ here => here⟩

theorem Keeps.trans {first second third : ComponentSet} (left : Keeps first second)
    (right : Keeps second third) : Keeps first third :=
  ⟨fun here => right.nodup (left.nodup here), fun name here => right.busy name (left.busy name here)⟩

theorem keeps_log (set : ComponentSet) (event : LoadEvent) : Keeps set (set.log event) :=
  ⟨fun here => here, fun _ here => here⟩

theorem keeps_startLoading (set : ComponentSet) (name : Bytes) (cont : ComponentContainer) :
    Keeps set (set.startLoading name cont) := by
  refine ⟨fun here => here, ?_⟩
  intro other here
  exact ⟨(grows_startLoading cont).started other here.1, here.2⟩

theorem keeps_entered {set next : ComponentSet} {name : Bytes} {cont : ComponentContainer}
    (idle : set.started name = false) (unloaded : name ∉ set.loadingStack)
    (ran : Keeps (set.startLoading name cont) next) : Keeps set (next.pushLoaded name) := by
  have entered : Busy (set.startLoading name cont) name := by
    refine ⟨?_, unloaded⟩
    rw [started_startLoading, decide_eq_true rfl, Bool.true_or]
  have whole := (keeps_startLoading set name cont).trans ran
  constructor
  · intro once
    apply List.Nodup.append (whole.nodup once) (List.nodup_singleton name)
    rw [List.disjoint_singleton]
    exact (ran.busy name entered).2
  · intro other here
    have still := whole.busy other here
    refine ⟨still.1, ?_⟩
    simp only [pushLoaded, List.mem_append, List.mem_singleton, not_or]
    refine ⟨still.2, ?_⟩
    rintro rfl
    have begun := here.1
    rw [idle] at begun
    cases begun

section Send

variable {send : ComponentSet → Bytes → Result Unit}
  (keeps : ∀ set name next outcome, send set name = some (next, outcome) → Keeps set next)

include keeps

theorem find_keeps (set : ComponentSet) (name : Bytes) (next : ComponentSet)
    (outcome : Except Thrown (Option String)) (done : find send set name = some (next, outcome)) :
    Keeps set next := by
  unfold find at done
  cases present : set.components.find? name with
  | none =>
      rw [present] at done
      cases done
      exact .refl _
  | some cont =>
      rw [present] at done
      simp only at done
      split at done
      · cases done
        exact keeps_log set _
      · cases sent : send set name with
        | none => simp [sent] at done
        | some inner =>
            obtain ⟨middle, answer⟩ := inner
            have before := keeps set name middle answer sent
            rw [sent] at done
            cases answer with
            | error exn =>
                cases done
                exact before
            | ok value =>
                cases done
                exact before.trans (keeps_log middle _)

theorem runOnLoad_keeps (onLoad : OnLoad) (set next : ComponentSet) (outcome : Except Thrown Unit)
    (done : runOnLoad send onLoad set = some (next, outcome)) : Keeps set next := by
  induction onLoad generalizing set with
  | done =>
      cases done
      exact .refl _
  | fail exn =>
      cases done
      exact .refl _
  | find name rest ih =>
      simp only [runOnLoad] at done
      cases found : find send set name with
      | none => simp [found] at done
      | some inner =>
          obtain ⟨middle, answer⟩ := inner
          have before := find_keeps keeps set name middle answer found
          rw [found] at done
          cases answer with
          | error exn =>
              cases done
              exact before
          | ok value => exact before.trans (ih value middle done)

theorem sendToAll_keeps (components : List Bytes) (set next : ComponentSet)
    (outcome : Except Thrown Unit) (done : sendToAll send components set = some (next, outcome)) :
    Keeps set next := by
  induction components generalizing set with
  | nil =>
      cases done
      exact .refl _
  | cons name rest ih =>
      simp only [sendToAll] at done
      cases sent : send set name with
      | none => simp [sent] at done
      | some inner =>
          obtain ⟨middle, answer⟩ := inner
          have before := keeps set name middle answer sent
          rw [sent] at done
          cases answer with
          | error exn =>
              cases done
              exact before
          | ok value => exact before.trans (ih middle done)

end Send

theorem sendOnLoad_keeps (depth : Nat) (set : ComponentSet) (name : Bytes) (next : ComponentSet)
    (outcome : Except Thrown Unit) (done : sendOnLoad depth set name = some (next, outcome)) :
    Keeps set next := by
  induction depth generalizing set name next outcome with
  | zero => cases done
  | succ depth ih =>
      rw [sendOnLoad] at done
      split at done
      · cases done
        exact .refl _
      · next loaded =>
          have unloaded := isComponentLoaded_iff.not.mp loaded
          cases found : set.components.find? name with
          | none =>
              rw [found] at done
              cases done
              exact .refl _
          | some cont =>
              rw [found] at done
              simp only at done
              split at done
              · cases done
                exact .refl _
              · next begun =>
                  have idle : set.started name = false := by simpa [started, found] using begun
                  cases ran : runOnLoad (sendOnLoad depth) cont.component.onLoad
                      (set.startLoading name cont) with
                  | none => simp [ran] at done
                  | some inner =>
                      obtain ⟨middle, answer⟩ := inner
                      have inside := runOnLoad_keeps ih _ _ middle answer ran
                      rw [ran] at done
                      cases answer with
                      | error exn =>
                          cases done
                          exact (keeps_startLoading set name cont).trans inside
                      | ok value =>
                          cases done
                          exact keeps_entered idle unloaded inside

theorem init_nodup {loader : Loader} {config : List ComponentConfig} {depth : Nat} {set : ComponentSet}
    {outcome : Except Thrown Unit} (done : init loader config depth = some (set, outcome)) :
    set.loadingStack.Nodup := by
  obtain ⟨added, answer, adds, stack, _⟩ := addAll_cases loader config empty
  have none : added.loadingStack.Nodup := by
    rw [stack]
    exact List.nodup_nil
  rw [init, adds] at done
  cases answer with
  | error exn =>
      cases done
      exact none
  | ok value => exact (sendToAll_keeps (sendOnLoad_keeps depth) _ _ _ outcome done).nodup none

/-- `init` gives one result however deep the calls may be nested. -/
theorem init_unique {loader : Loader} {config : List ComponentConfig} {depth more : Nat}
    {left right : ComponentSet × Except Thrown Unit} (done : init loader config depth = some left)
    (deeper : init loader config more = some right) (order : depth ≤ more) : left = right := by
  obtain ⟨added, answer, adds, _⟩ := addAll_cases loader config empty
  rw [init, adds] at done deeper
  cases answer with
  | error exn => exact Option.some.inj (done.symm.trans deeper)
  | ok value =>
      have same := sendToAll_mono (sendOnLoad_deeper order) _ _ _ done
      exact Option.some.inj (same.symm.trans deeper)

theorem init_loaded {loader : Loader} {config : List ComponentConfig} {depth : Nat} {set : ComponentSet}
    (done : init loader config depth = some (set, .ok ())) :
    Loading (tableOf loader config) set ∧
      ∀ name, (tableOf loader config name).isSome = true → name ∈ set.loadingStack := by
  obtain ⟨final, outcome, ends, result⟩ := init_spec loader config
  have deep := ends (max depth (config.length + 1)) (by omega)
  obtain ⟨rfl, rfl⟩ := Prod.mk.inj (init_unique done deep (Nat.le_max_left _ _))
  rcases result with ⟨⟨exn, wrong⟩, _⟩ | ⟨loading, loads, _⟩
  · cases wrong
  · exact ⟨loading, loads rfl⟩

def unloadCall : UnloadEvent → Option Bytes
  | .called name => some name
  | .printed _ => none

theorem unload_calls (onUnload : Bytes → Except Thrown Unit) (set : ComponentSet) :
    (set.sendOnUnloadToComponents onUnload).filterMap unloadCall = set.loadingStack := by
  unfold sendOnUnloadToComponents
  induction set.loadingStack with
  | nil => rfl
  | cons name rest ih =>
      rw [List.flatMap_cons, List.filterMap_append, ih]
      rcases outcome : onUnload name with (what | _) | _
      all_goals simp [sendOnUnload, outcome, unloadCall]

def UnloadedBefore (onUnload : Bytes → Except Thrown Unit) (set : ComponentSet) (name other : Bytes) : Prop :=
  [UnloadEvent.called name, .called other].Sublist (set.sendOnUnloadToComponents onUnload)

/-- All components are unloaded before those that they have found, only if none has found
another: one that has is recorded behind what it found, and unloaded after it. -/
theorem unloaded_before_dependencies_iff (loader : Loader) (config : List ComponentConfig) (depth : Nat)
    (set : ComponentSet) (onUnload : Bytes → Except Thrown Unit)
    (done : init loader config depth = some (set, .ok ())) :
    (∀ name other, DependsOn (tableOf loader config) name other → UnloadedBefore onUnload set name other) ↔
      ∀ name other, ¬DependsOn (tableOf loader config) name other := by
  obtain ⟨loading, loads⟩ := init_loaded done
  constructor
  · intro before name other depends
    have loaded : name ∈ set.loadingStack := by
      obtain ⟨component, held, _⟩ := depends
      exact loads name (by rw [held]; rfl)
    have calls := (before name other depends).filterMap unloadCall
    rw [unload_calls] at calls
    exact not_sublist_swap (init_nodup done) (loading.sorted.sublist loaded depends) calls
  · intro none name other depends
    exact absurd depends (none name other)

def loggers : List ComponentConfig := [⟨[97], "logger", []⟩, ⟨[98], "logger", []⟩]

theorem unloaded_before_dependencies_iff_loggers :
    ∃ set, init smallLoader loggers 3 = some (set, .ok ()) ∧
      ∀ name other, DependsOn (tableOf smallLoader loggers) name other →
        UnloadedBefore (fun _ => .ok ()) set name other := by
  refine ⟨_, rfl, (unloaded_before_dependencies_iff smallLoader loggers 3 _ (fun _ => .ok ()) rfl).mpr ?_⟩
  rintro name other ⟨component, held, member, _⟩
  obtain ⟨entry, listed, rfl, made⟩ := tableOf_eq held
  simp only [loggers, List.mem_cons, List.not_mem_nil, or_false] at listed
  rcases listed with rfl | rfl
  all_goals
    cases made
    simp [OnLoad.asks] at member

/-- The realm has found the logger and is unloaded after it. -/
theorem realm_unloaded_after_logger :
    ∃ set, init smallLoader chain 3 = some (set, .ok ()) ∧
      DependsOn (tableOf smallLoader chain) [97] [98] ∧
      UnloadedBefore (fun _ => .ok ()) set [98] [97] ∧ ¬UnloadedBefore (fun _ => .ok ()) set [97] [98] := by
  refine ⟨_, rfl, ⟨⟨"realm", .find [98] (fun _ => .done)⟩, rfl, by simp [OnLoad.asks], rfl⟩, ?_, ?_⟩
  · show [UnloadEvent.called [98], .called [97]].Sublist [.called [98], .called [97]]
    exact List.Sublist.refl _
  · show ¬[UnloadEvent.called [97], .called [98]].Sublist [.called [98], .called [97]]
    decide

end ComponentSet

end FastcgiContainer
