import FastcgiContainer.CacheRetries

/-! The keys in `active`: each of them should be the key of a request that still exists.
`create` and the thread of the cache add keys, and only `save` removes them. -/

namespace FastcgiContainer

open Word (Bytes)

namespace CacheWorld

open FileRequestCache (path)

def OnlyLive (config : CacheConfig) (world : CacheWorld) : Prop :=
  (∀ key retries, world.cache.active.find? key = some retries →
    ∃ index request, world.live index = some request ∧ request.filename = path config key) ∧
  ((∀ request ∈ world.requests, request.released = true) → world.cache.active.entries = [])

/-- A request that is destroyed was saved, or its body is in memory; a file that the thread
of the cache takes and opens can be parsed. -/
def Action.Settles (world : CacheWorld) : Action → Prop
  | .release index => ∀ request, world.live index = some request →
      request.filename = [] ∨ 0 < request.saves
  | .handle opens parses => opens = true ∧ world.cache.takeWaiting.isSome = true → parses = true
  | _ => True

section Generator

variable {keys : Nat → Bytes} {config : CacheConfig} {world next : CacheWorld} {action : Action}

def Attended (config : CacheConfig) (world : CacheWorld) : Prop :=
  ∀ key retries, world.cache.active.find? key = some retries → key ≠ [] ∧
    ∃ index origin, pendingAt world.requests index = some (path config key, origin)

def Listed (config : CacheConfig) (world : CacheWorld) : Prop :=
  ∀ index key origin, key ≠ [] → pendingAt world.requests index = some (path config key, origin) →
    (world.cache.active.find? key).isSome = true

theorem pendingAt_eq {requests : List CachedRequest} {index origin : Nat} {filename : Bytes}
    (found : pendingAt requests index = some (filename, origin)) :
    ∃ request, requests[index]? = some request ∧ request.released = false ∧ request.saves = 0 ∧
      request.filename = filename := by
  obtain ⟨request, kept, same⟩ := Option.map_eq_some_iff.mp found
  obtain ⟨here, unsaved⟩ := Option.filter_eq_some_iff.mp kept
  simp only [Bool.and_eq_true, Bool.not_eq_true', beq_iff_eq] at unsaved
  exact ⟨request, here, unsaved.1, unsaved.2, (Prod.mk.inj same).1⟩

theorem live_of_pendingAt {index origin : Nat} {filename : Bytes}
    (found : pendingAt world.requests index = some (filename, origin)) :
    ∃ request, world.live index = some request ∧ request.filename = filename := by
  obtain ⟨request, here, unreleased, _, same⟩ := pendingAt_eq found
  refine ⟨request, ?_, same⟩
  simp [live, here, unreleased]

theorem Attended.onlyLive (attended : Attended config world) : OnlyLive config world := by
  constructor
  · intro key retries found
    obtain ⟨_, index, origin, pending⟩ := attended key retries found
    exact ⟨index, live_of_pendingAt pending⟩
  · intro released
    apply List.eq_nil_iff_forall_not_mem.mpr
    rintro ⟨key, retries⟩ member
    have found := (OrderedMap.find?_eq_some stringLess_exact world.cache.active key retries).mpr member
    obtain ⟨_, index, origin, pending⟩ := attended key retries found
    obtain ⟨request, here, unreleased, _⟩ := pendingAt_eq pending
    rw [released request (List.mem_of_getElem? here)] at unreleased
    cases unreleased

theorem pendingAt_kept {requests : List CachedRequest} {index : Nat} {value : Bytes × Nat}
    (found : pendingAt requests index = some value) (filename : Bytes) (origin : Nat) :
    pendingAt (requests ++ [original filename origin]) index = some value := by
  rw [pendingAt_append, if_neg]
  · exact found
  · rintro rfl
    simp [pendingAt, selected] at found

theorem pendingAt_added (requests : List CachedRequest) (filename : Bytes) (origin : Nat) :
    pendingAt (requests ++ [original filename origin]) requests.length = some (filename, origin) := by
  rw [pendingAt_append, if_pos rfl]

theorem release_active (world : CacheWorld) (index : Nat) (request : CachedRequest) :
    (world.release index request).cache.active = world.cache.active := by
  unfold CacheWorld.release
  simp only
  split <;> rfl

theorem pendingAt_release {index : Nat} {request : CachedRequest}
    (living : world.live index = some request) (query : Nat) :
    pendingAt (world.release index request).requests query =
      if query = index then none else pendingAt world.requests query := by
  unfold CacheWorld.release
  simp only
  rw [pendingAt, selected_set _ _ (live_eq living).1]
  simp

theorem Attended.add (attended : Attended config world) {cache : FileRequestCache} {key : Bytes}
    {retries origin : Nat} (present : key ≠ []) (images : List Bytes) (owner : Bytes → Option Nat)
    (active : cache.active = world.cache.active.insert key retries) :
    Attended config
      { cache, requests := world.requests ++ [original (path config key) origin], images, owner } := by
  intro query value found
  simp only [active, find?_insert] at found
  by_cases same : key = query
  · subst same
    exact ⟨present, world.requests.length, origin, pendingAt_added _ _ _⟩
  · rw [if_neg same] at found
    obtain ⟨filled, index, source, pending⟩ := attended query value found
    exact ⟨filled, index, source, pendingAt_kept pending _ _⟩

theorem Attended.effect (attended : Attended config world) (filed : AllFiled keys config world)
    (named : ∀ number, keys number ≠ []) (settles : action.Settles world)
    (effect : Effect keys config world action next) : Attended config next := by
  cases effect with
  | same => exact attended
  | arrived image =>
      intro key retries found
      obtain ⟨present, index, origin, pending⟩ := attended key retries found
      exact ⟨present, index, origin, pendingAt_kept pending _ _⟩
  | unopened image opens => exact attended
  | created image opens cache waiting active => exact attended.add (named _) _ _ active
  | changed action index request other living filename origin released saves =>
      have same : pendingAt (world.requests.set index other) = pendingAt world.requests :=
        selected_same _ other (live_eq living).1 filename origin (by rw [released, saves])
      intro key retries found
      simp only [CacheWorld.change, same]
      exact attended key retries found
  | saved index serializes calls request cache stored source living saved body =>
      intro key retries found
      simp only [saved.active] at found
      split at found
      · cases found
      · next other =>
          obtain ⟨present, place, origin, pending⟩ := attended key retries found
          refine ⟨present, place, origin, ?_⟩
          have elsewhere : place ≠ index := by
            rintro rfl
            obtain ⟨same, here, _, _, named⟩ := pendingAt_eq pending
            obtain rfl := Option.some.inj ((live_eq living).1.symm.trans here)
            rw [named] at body
            generalize written : path config key = filename at body
            cases body with
            | memory => exact path_ne_nil present written
            | file stored _ => exact other (congrArg some ((FileRequestCache.path_inj config).mp written).symm)
          rw [pendingAt, selected_set _ _ (live_eq living).1, if_neg elsewhere]
          exact pending
  | unread opens parses entry rest first => exact attended
  | resumed opens entry rest origin first owned =>
      obtain ⟨_, holds⟩ := filed.waiting entry (by simp [first])
      exact attended.add (holds.named named) _ _ rfl
  | spoiled opens entry rest first due => exact absurd (settles due) (by simp)
  | released index request living =>
      intro key retries found
      rw [release_active] at found
      obtain ⟨present, place, origin, pending⟩ := attended key retries found
      refine ⟨present, place, origin, ?_⟩
      have elsewhere : place ≠ index := by
        rintro rfl
        obtain ⟨same, here, _, unsaved, named⟩ := pendingAt_eq pending
        obtain rfl := Option.some.inj ((live_eq living).1.symm.trans here)
        rcases settles request living with memory | saved
        · exact path_ne_nil present (named.symm.trans memory)
        · omega
      rw [pendingAt_release living, if_neg elsewhere]
      exact pending
  | elapsed time => exact attended

theorem Listed.effect (listed : Listed config world) (filed : AllFiled keys config world)
    (effect : Effect keys config world action next) : Listed config next := by
  have inserted : ∀ (key query : Bytes) (retries : Nat), (world.cache.active.find? query).isSome = true →
      ((world.cache.active.insert key retries).find? query).isSome = true := by
    intro key query retries present
    rw [find?_insert]
    split
    · simp
    · exact present
  have added : ∀ (cache : FileRequestCache) (key : Bytes) (retries origin : Nat) (images : List Bytes)
      (owner : Bytes → Option Nat), cache.active = world.cache.active.insert key retries →
      Listed config
        { cache, requests := world.requests ++ [original (path config key) origin], images, owner } := by
    intro cache key retries origin images owner active index query source filled pending
    simp only [active]
    rcases pendingAt_append_cases pending with ⟨_, same, _⟩ | before
    · obtain rfl := (FileRequestCache.path_inj config).mp same
      simp
    · exact inserted key query retries (listed index query source filled before)
  cases effect with
  | same => exact listed
  | arrived image =>
      intro index key origin filled pending
      rcases pendingAt_append_cases pending with ⟨_, empty, _⟩ | before
      · exact absurd empty.symm (path_ne_nil filled)
      · exact listed index key origin filled before
  | unopened image opens => exact listed
  | created image opens cache waiting active => exact added cache _ 0 _ _ _ active
  | changed action index request other living filename origin released saves =>
      have same : pendingAt (world.requests.set index other) = pendingAt world.requests :=
        selected_same _ other (live_eq living).1 filename origin (by rw [released, saves])
      intro query key source filled pending
      simp only [CacheWorld.change, same] at pending
      exact listed query key source filled pending
  | saved index serializes calls request cache stored source living saved body =>
      intro query key origin filled pending
      obtain ⟨elsewhere, before⟩ := pendingAt_saved living query _ pending
      simp only [saved.active]
      rw [if_neg]
      · exact listed query key origin filled before
      · rintro rfl
        have here := bodyAt_live living
        generalize request.filename = filename at here body
        cases body with
        | file key present =>
            rcases filed.apart query index _ _ _ (pendingAt_body before) here with empty | same
            · exact path_ne_nil filled empty
            · exact elsewhere same
  | unread opens parses entry rest first => exact listed
  | resumed opens entry rest origin first owned => exact added _ _ _ _ _ _ rfl
  | spoiled opens entry rest first due =>
      intro index key origin filled pending
      exact inserted _ key _ (listed index key origin filled pending)
  | released index request living =>
      intro query key origin filled pending
      rw [release_active]
      apply listed query key origin filled
      rw [pendingAt_release living] at pending
      split at pending
      · cases pending
      · exact pending
  | elapsed time => exact listed

theorem settles_of_onlyLive (listed : Listed config world) (filed : AllFiled keys config world)
    (named : ∀ number, keys number ≠ []) (action : Action)
    (after : OnlyLive config (world.step keys config action)) : action.Settles world := by
  cases action with
  | release index =>
      intro request living
      by_contra unsettled
      rw [not_or, Nat.not_lt, Nat.le_zero] at unsettled
      obtain ⟨stored, unsaved⟩ := unsettled
      rcases (filed.place living).2 with memory | ⟨key, written, holds⟩
      · exact stored memory
      · have pending := pendingAt_live living unsaved
        rw [written] at pending
        obtain ⟨retries, active⟩ := Option.isSome_iff_exists.mp
          (listed index key request.origin (holds.named named) pending)
        simp only [CacheWorld.step, living] at after
        obtain ⟨place, other, alive, same⟩ := after.1 key retries (by rw [release_active, active])
        have body := bodyAt_live alive
        rw [CacheWorld.release, bodyAt, selected_set _ _ (live_eq living).1] at body
        split at body
        · simp at body
        · next elsewhere =>
            rw [same] at body
            have here := bodyAt_live living
            rw [written] at here
            rcases filed.apart place index _ _ _ body here with empty | equal
            · exact path_ne_nil (holds.named named) empty
            · exact elsewhere equal
  | handle opens parses =>
      rintro ⟨opened, due⟩
      by_contra unparsed
      have failed : parses = false := by simpa using unparsed
      subst opened failed
      obtain ⟨time, task, rest, waiting, taken⟩ :=
        FileRequestCache.handle_due world.cache due filed.present
      simp only [CacheWorld.step, CacheWorld.retry, taken, Bool.false_eq_true, if_false] at after
      obtain ⟨retries, active⟩ := Option.isSome_iff_exists.mp
        (show ((world.cache.active.insert task.key task.retries).find? task.key).isSome = true by simp)
      obtain ⟨place, other, alive, same⟩ := after.1 task.key retries active
      have body := bodyAt_live alive
      rw [same] at body
      exact filed.aside (time, task) (by simp [waiting]) place _ body
  | _ => exact trivial

section Run

variable (distinct : Function.Injective keys) (named : ∀ number, keys number ≠ [])

include distinct named

theorem Listed.run (listed : Listed config world) (filed : AllFiled keys config world)
    (actions : List Action) : Listed config (world.run keys config actions) := by
  apply filed.along distinct named (Listed config) (fun _ _ => True) _ listed actions
  · exact fun _ _ _ _ => trivial
  · intro middle action next known before _ effect
    exact before.effect known effect

theorem Attended.run (attended : Attended config world) (filed : AllFiled keys config world)
    (actions : List Action)
    (settled : ∀ before action after, actions = before ++ action :: after →
      action.Settles (world.run keys config before)) :
    Attended config (world.run keys config actions) := by
  apply filed.along distinct named (Attended config) (fun later action => action.Settles later) _
    attended actions settled
  intro middle action next known before settles effect
  exact before.effect known named settles effect

end Run

theorem attended_start : Attended config start := by
  intro key retries found
  cases found

theorem listed_start : Listed config start := by
  intro index key origin filled pending
  simp [start, pendingAt, selected] at pending

end Generator

def finishedUpload : List Action := [.create [1, 2, 3] true, .execute 0, .release 0]

def savedUpload : List Action :=
  [.create [1, 2, 3] true, .execute 0, .save 0 (.ok ()) ⟨true, true⟩, .release 0]

end CacheWorld

end FastcgiContainer
