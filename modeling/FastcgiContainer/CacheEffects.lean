import FastcgiContainer.FileRequestCache

/-! What the operations of `FileRequestCache` do to the disk, to the waiting tasks and to
the active keys, as far as runs can observe it. -/

namespace FastcgiContainer

open Word (Bytes)

namespace FileRequestCache

section Generator

variable (keys : Nat → Bytes) (config : CacheConfig)

structure Tidy (cache : FileRequestCache) : Prop where
  sound : cache.disk.Sound
  unnamed : ∀ number, cache.drawn ≤ number → cache.disk.content (path config (keys number)) = none
  idle : ∀ number, cache.drawn ≤ number → cache.active.find? (keys number) = none

theorem tidy_blank : Tidy keys config blank := ⟨Disk.sound_blank, fun _ _ => rfl, fun _ _ => rfl⟩

theorem path_inj {left right : Bytes} : path config left = path config right ↔ left = right := by
  simp [path]

/-- Where the body of a request is: in memory, or in the file of a key. -/
inductive Body : Bytes → Option Bytes → Prop where
  | memory : Body [] none
  | file (key : Bytes) (named : key ≠ []) : Body (path config key) (some key)

theorem isStored_path {key : Bytes} (named : key ≠ []) : isStored config (path config key) = true := by
  simp [isStored, path, named, StringUtils.beginsWith]

theorem getStoredKey_path {key : Bytes} (named : key ≠ []) :
    getStoredKey config (path config key) = key := by
  rw [getStoredKey, if_pos (isStored_path config named)]
  simp [path]

theorem getStoredKey_memory : getStoredKey config [] = [] := by
  simp [getStoredKey, isStored]

variable {keys config}

section Disk

variable {cache : FileRequestCache}

theorem Tidy.draw (tidy : Tidy keys config cache) : Tidy keys config (cache.generateUniqueKey keys).1 :=
  ⟨tidy.sound, fun number later => tidy.unnamed number (Nat.le_of_succ_le later),
    fun number later => tidy.idle number (Nat.le_of_succ_le later)⟩

theorem Tidy.replaceDisk (tidy : Tidy keys config cache) {disk : Disk Bytes Bytes}
    (sound : disk.Sound) (kept : ∀ number, cache.drawn ≤ number →
      disk.content (path config (keys number)) = cache.disk.content (path config (keys number))) :
    Tidy keys config { cache with disk } :=
  ⟨sound, fun number later => (kept number later).trans (tidy.unnamed number later), tidy.idle⟩

theorem Tidy.dropBuffer (tidy : Tidy keys config cache) (filename : Bytes) :
    Tidy keys config (cache.dropBuffer filename) := by
  refine ⟨Disk.sound_unlink _ tidy.sound _, ?_, tidy.idle⟩
  intro number later
  rw [FileRequestCache.dropBuffer, Disk.content_unlink]
  split
  · rfl
  · exact tidy.unnamed number later

theorem Tidy.directory (tidy : Tidy keys config cache) {filename : Bytes}
    (absent : cache.disk.content filename = none) : cache.disk.directory filename = none :=
  (Disk.content_eq_none _ tidy.sound _).mp absent

theorem createHardLink_spec (tidy : Tidy keys config cache) (distinct : Function.Injective keys)
    (key : Bytes) (links : Bool) :
    let result := cache.createHardLink keys config key links
    ∃ disk, result.1 = { cache with disk, drawn := cache.drawn + 1 } ∧
      Tidy keys config result.1 ∧
      ((result.2 = [] ∧ ∀ query, disk.content query = cache.disk.content query) ∨
        (result.2 = keys cache.drawn ∧ (cache.disk.content (path config key)).isSome = true ∧
          ∀ query, disk.content query = if query = path config (keys cache.drawn)
            then cache.disk.content (path config key) else cache.disk.content query)) := by
  intro result
  have drew := tidy.draw
  simp only [result, createHardLink, generateUniqueKey] at drew ⊢
  split
  · exact ⟨cache.disk, rfl, drew, Or.inl ⟨rfl, fun _ => rfl⟩⟩
  · next disk linked =>
      have made : cache.disk.link (path config key) (path config (keys cache.drawn)) = some disk := by
        split at linked
        · exact linked
        · cases linked
      have contents := Disk.content_link _ _ _ _ made
      refine ⟨disk, rfl, ?_, Or.inr ⟨rfl, ?_, contents⟩⟩
      · apply drew.replaceDisk (Disk.sound_link _ _ tidy.sound _ _ made)
        intro number later
        rw [contents, if_neg]
        intro same
        have equal := distinct ((path_inj config).mp same)
        exact absurd later (by simp [equal])
      · rw [Option.isSome_iff_ne_none, ne_eq, Disk.content_eq_none _ tidy.sound]
        intro missing
        simp [Disk.link, missing] at made

end Disk

/-- What saving the image of a request does: the new key, if it is not empty, leads to
what is to be saved, and everything else is as it was. -/
structure Linked (keys : Nat → Bytes) (config : CacheConfig) (cache next : FileRequestCache)
    (newKey : Option Bytes) (source : Option Bytes) : Prop where
  rest : ∃ disk drawn, next = { cache with disk, drawn } ∧ cache.drawn ≤ drawn
  tidy : Tidy keys config next
  failed : newKey = none → ∀ query, next.disk.content query = cache.disk.content query
  made : ∀ key, newKey = some key → (∃ number, cache.drawn ≤ number ∧ number < next.drawn ∧
    key = keys number) ∧ source.isSome = true ∧
    ∀ query, next.disk.content query =
      if query = path config key then source else cache.disk.content query

/-- The key under which a request was saved; an empty one stands for none. -/
def savedKey (result : Except Exn Bytes) : Option Bytes :=
  match result with
  | .error _ => none
  | .ok key => if key.isEmpty then none else some key

theorem savedKey_named {key : Bytes} (named : key ≠ []) : savedKey (.ok key) = some key := by
  simp [savedKey, named]

theorem saveRequest_stored {cache : FileRequestCache} (tidy : Tidy keys config cache)
    (distinct : Function.Injective keys) (named : ∀ number, keys number ≠ []) {key : Bytes}
    (present : key ≠ []) (image : Except Exn Bytes) (calls : Calls) :
    let result := cache.saveRequest keys config (path config key) image key calls
    (∃ newKey, result.2 = .ok newKey) ∧ Linked keys config cache result.1 (savedKey result.2)
      (cache.disk.content (path config key)) := by
  intro result
  have linked := createHardLink_spec tidy distinct key calls.links
  simp only [result, saveRequest, isStored_path config present, Bool.not_true, Bool.false_eq_true,
    if_false]
  generalize cache.createHardLink keys config key calls.links = made at linked ⊢
  obtain ⟨next, newKey⟩ := made
  obtain ⟨disk, same, tidied, outcome⟩ := linked
  simp only at same tidied outcome
  subst same
  refine ⟨⟨newKey, rfl⟩, ?_⟩
  have rest : ∃ next drawn, ({ cache with disk, drawn := cache.drawn + 1 } : FileRequestCache) =
      { cache with disk := next, drawn } ∧ cache.drawn ≤ drawn := ⟨disk, _, rfl, Nat.le_succ _⟩
  rcases outcome with ⟨rfl, kept⟩ | ⟨rfl, source, contents⟩
  · exact ⟨rest, tidied, fun _ => kept, fun key given => by cases given⟩
  · rw [savedKey_named (named _)]
    refine ⟨rest, tidied, (fun missing => by cases missing), ?_⟩
    intro key given
    obtain rfl := Option.some.inj given
    exact ⟨⟨cache.drawn, le_refl _, Nat.lt_succ_self _, rfl⟩, source, contents⟩

section Fresh

variable {cache : FileRequestCache} {number : Nat}

theorem path_later (distinct : Function.Injective keys) (generated : number < cache.drawn) (later : Nat)
    (bound : cache.drawn ≤ later) : path config (keys later) ≠ path config (keys number) := by
  intro same
  have equal := distinct ((path_inj config).mp same)
  omega

theorem linked_unwritten (tidy : Tidy keys config cache) (distinct : Function.Injective keys)
    (generated : number < cache.drawn)
    (free : cache.disk.content (path config (keys number)) = none) (source : Option Bytes) :
    Linked keys config cache (dropBuffer
      { cache with disk := (cache.disk.openFile (path config (keys number)) []).1 }
      (path config (keys number))) none source := by
  have opened := cache.disk.content_openFile tidy.sound _ [] (tidy.directory free)
  have tidied : Tidy keys config
      { cache with disk := (cache.disk.openFile (path config (keys number)) []).1 } := by
    apply tidy.replaceDisk (Disk.sound_openFile _ tidy.sound _ _)
    intro later bound
    rw [opened, if_neg (path_later distinct generated later bound)]
  refine ⟨⟨_, cache.drawn, rfl, le_refl _⟩, tidied.dropBuffer _, ?_, fun key given => by cases given⟩
  intro _ query
  rw [dropBuffer, Disk.content_unlink, opened]
  split
  · next here => rw [here, free]
  · rfl

theorem linked_written (tidy : Tidy keys config cache) (distinct : Function.Injective keys)
    (named : ∀ number, keys number ≠ []) (generated : number < cache.drawn)
    (free : cache.disk.content (path config (keys number)) = none) (data : Bytes) (links : Bool) :
    let opened := cache.disk.openFile (path config (keys number)) []
    let made := createHardLink keys config { cache with disk := opened.1.writeFile opened.2 data }
      (keys number) links
    Linked keys config cache (made.1.dropBuffer (path config (keys number))) (savedKey (.ok made.2))
      (some data) := by
  intro opened made
  have written := cache.disk.content_create tidy.sound _ [] data (tidy.directory free)
  have other : ∀ later, cache.drawn ≤ later → path config (keys later) ≠ path config (keys number) :=
    path_later distinct generated
  have tidied : Tidy keys config { cache with disk := opened.1.writeFile opened.2 data } := by
    apply tidy.replaceDisk (Disk.sound_writeFile _ (Disk.sound_openFile _ tidy.sound _ _) _ _)
    intro later bound
    rw [written, if_neg (other later bound)]
  obtain ⟨disk, same, clean, outcome⟩ := createHardLink_spec tidied distinct (keys number) links
  change made.1 = _ at same
  change Tidy keys config made.1 at clean
  rw [same] at clean ⊢
  rcases outcome with ⟨empty, kept⟩ | ⟨new, _, contents⟩
  · change made.2 = [] at empty
    rw [empty]
    refine ⟨⟨_, _, rfl, Nat.le_succ _⟩, clean.dropBuffer _, ?_, fun key given => by cases given⟩
    intro _ query
    rw [dropBuffer, Disk.content_unlink, kept, written]
    split
    · next here => rw [here, free]
    · rfl
  · change made.2 = keys cache.drawn at new
    rw [new, savedKey_named (named _)]
    refine ⟨⟨_, _, rfl, Nat.le_succ _⟩, clean.dropBuffer _, (fun missing => by cases missing), ?_⟩
    intro key given
    obtain rfl := Option.some.inj given
    refine ⟨⟨cache.drawn, le_refl _, Nat.lt_succ_self _, rfl⟩, rfl, ?_⟩
    intro query
    rw [dropBuffer, Disk.content_unlink, contents, written, written]
    by_cases last : query = path config (keys cache.drawn)
    · rw [if_pos last, if_pos last, if_pos rfl, if_neg]
      rw [last]
      exact other cache.drawn (le_refl _)
    · rw [if_neg last, if_neg last]
      split
      · next here => rw [here, free]
      · rfl

theorem saveRequest_memory (tidy : Tidy keys config cache) (distinct : Function.Injective keys)
    (named : ∀ number, keys number ≠ []) (generated : number < cache.drawn)
    (free : cache.disk.content (path config (keys number)) = none) (image : Except Exn Bytes)
    (calls : Calls) :
    let result := cache.saveRequest keys config [] image (keys number) calls
    Linked keys config cache result.1 (savedKey result.2) image.toOption := by
  intro result
  have memory : isStored config [] = false := by simp [isStored]
  simp only [result, saveRequest, memory, Bool.not_false, if_true]
  cases opens : calls.opens with
  | false =>
      simp only [createFileBuffer, Bool.false_eq_true, if_false]
      exact ⟨⟨cache.disk, cache.drawn, rfl, le_refl _⟩, tidy, fun _ _ => rfl,
        fun key given => by cases given⟩
  | true =>
      simp only [createFileBuffer, if_true]
      cases image with
      | error exn => exact linked_unwritten tidy distinct generated free _
      | ok data => exact linked_written tidy distinct named generated free data calls.links

end Fresh

def nextRetry (cache : FileRequestCache) (stored : Option Bytes) : Nat :=
  match stored.bind cache.active.find? with
  | none => 1
  | some retries => retries + 1

/-- What `save` does. A request with a body in a file is not active any more. Nothing else
changes, or the request waits under a new key that leads to its image. -/
structure Saved (keys : Nat → Bytes) (config : CacheConfig) (cache next : FileRequestCache)
    (stored : Option Bytes) (delay : Int) (source : Option Bytes) : Prop where
  drawn : cache.drawn ≤ next.drawn
  tidy : Tidy keys config next
  active : ∀ query, next.active.find? query =
    if stored = some query then none else cache.active.find? query
  outcome : (next.waiting = cache.waiting ∧
      ∀ query, next.disk.content query = cache.disk.content query) ∨
    ∃ number, cache.drawn ≤ number ∧ number < next.drawn ∧
      next.waiting = placeTask (cache.now + delay) ⟨keys number, cache.nextRetry stored⟩ cache.waiting ∧
      cache.nextRetry stored ≤ config.maxRetries ∧ source.isSome = true ∧
      ∀ query, next.disk.content query =
        if query = path config (keys number) then source else cache.disk.content query

theorem Tidy.eraseActive {cache : FileRequestCache} (tidy : Tidy keys config cache) (key : Bytes) :
    Tidy keys config (cache.eraseActive key) := by
  refine ⟨tidy.sound, tidy.unnamed, ?_⟩
  intro number later
  simp only [FileRequestCache.eraseActive, find?_erase]
  split
  · rfl
  · exact tidy.idle number later

theorem Tidy.insertWaiting {cache : FileRequestCache} (tidy : Tidy keys config cache) (delay : Int)
    (key : Bytes) (retries : Nat) : Tidy keys config (cache.insertWaiting delay key retries) :=
  ⟨tidy.sound, tidy.unnamed, tidy.idle⟩

/-- A request leaves `active`, if it was there, and waits if its image was saved. -/
theorem putOff_saved {cache : FileRequestCache} (stored : Option Bytes) (delay : Int) (found : Bool)
    {source : Option Bytes} {filename key : Bytes} {image : Except Exn Bytes} {calls : Calls}
    (linked : Linked keys config cache (cache.saveRequest keys config filename image key calls).1
      (savedKey (cache.saveRequest keys config filename image key calls).2) source)
    (returns : found = true →
      ∃ newKey, (cache.saveRequest keys config filename image key calls).2 = .ok newKey)
    (bound : cache.nextRetry stored ≤ config.maxRetries)
    (active : ∀ query, (if found then cache.active.erase key else cache.active).find? query =
      if stored = some query then none else cache.active.find? query) :
    Saved keys config cache (cache.putOff keys config filename delay image key found
      (cache.nextRetry stored) calls).1 stored delay source := by
  unfold putOff
  generalize cache.saveRequest keys config filename image key calls = result at linked returns ⊢
  obtain ⟨next, outcome⟩ := result
  obtain ⟨disk, drawn, same, grown⟩ := linked.rest
  simp only at same
  subst same
  have settled : (if found then eraseActive { cache with disk, drawn } key else { cache with disk, drawn }) =
      { cache with disk, drawn, active := if found then cache.active.erase key else cache.active } := by
    cases found <;> rfl
  have tidied : Tidy keys config { cache with
      disk, drawn, active := if found then cache.active.erase key else cache.active } := by
    cases found with
    | false => exact linked.tidy
    | true => exact linked.tidy.eraseActive key
  cases outcome with
  | error exn =>
      cases found with
      | true => exact absurd (returns rfl) (by simp)
      | false => exact ⟨grown, linked.tidy, active, Or.inl ⟨rfl, linked.failed rfl⟩⟩
  | ok newKey =>
      simp only [settled]
      split
      · next empty =>
          obtain rfl := List.isEmpty_iff.mp empty
          exact ⟨grown, tidied, active, Or.inl ⟨rfl, linked.failed rfl⟩⟩
      · next filled =>
          have given : savedKey (.ok newKey) = some newKey :=
            savedKey_named (by simpa using filled)
          obtain ⟨⟨number, first, last, rfl⟩, present, contents⟩ := linked.made newKey given
          exact ⟨grown, tidied.insertWaiting _ _ _, active,
            Or.inr ⟨number, first, last, rfl, bound, present, contents⟩⟩

theorem save_stored {cache : FileRequestCache} (tidy : Tidy keys config cache)
    (distinct : Function.Injective keys) (named : ∀ number, keys number ≠ []) {key : Bytes}
    (present : key ≠ []) (delay : Int) (image : Except Exn Bytes) (calls : Calls) :
    Saved keys config cache (cache.save keys config (path config key) delay image calls).1 (some key)
      delay (cache.disk.content (path config key)) := by
  have filled : key.isEmpty = false := by simpa using present
  have erased : ∀ query, (cache.active.erase key).find? query =
      if some key = some query then none else cache.active.find? query := by
    intro query
    simp
  have dropped : Saved keys config cache (cache.eraseActive key) (some key) delay
      (cache.disk.content (path config key)) :=
    ⟨le_refl _, tidy.eraseActive key, erased, Or.inl ⟨rfl, fun _ => rfl⟩⟩
  obtain ⟨returns, linked⟩ := saveRequest_stored tidy distinct named present image calls
  unfold save
  split
  · simp only [getStoredKey_path config present, filled, Bool.false_eq_true, if_false]
    exact dropped
  · next wanted =>
      have positive : 0 < config.maxRetries := by
        rw [not_or] at wanted
        omega
      simp only [getKey, getStoredKey_path config present, filled, Bool.false_eq_true, if_false]
      cases found : cache.active.find? key with
      | none =>
          have first : cache.nextRetry (some key) = 1 := by simp [nextRetry, found]
          have off := putOff_saved (some key) delay false linked
            (fun wrong => by cases wrong) (by omega) (by
              intro query
              simp only [Bool.false_eq_true, if_false]
              split
              · next same =>
                  cases same
                  exact found
              · rfl)
          rw [first] at off
          exact off
      | some retries =>
          simp only
          split
          · exact dropped
          · next less =>
              have another : cache.nextRetry (some key) = retries + 1 := by simp [nextRetry, found]
              have off := putOff_saved (some key) delay true linked (fun _ => returns) (by omega) erased
              rw [another] at off
              exact off

theorem save_memory {cache : FileRequestCache} (tidy : Tidy keys config cache)
    (distinct : Function.Injective keys) (named : ∀ number, keys number ≠ []) (delay : Int)
    (image : Except Exn Bytes) (calls : Calls) :
    Saved keys config cache (cache.save keys config [] delay image calls).1 none delay
      image.toOption := by
  have untouched : Saved keys config cache cache none delay image.toOption :=
    ⟨le_refl _, tidy, fun _ => by simp, Or.inl ⟨rfl, fun _ => rfl⟩⟩
  unfold save
  split
  · simp only [getStoredKey_memory, List.isEmpty_nil, if_true]
    exact untouched
  · next wanted =>
      have positive : 1 ≤ config.maxRetries := by
        rw [not_or] at wanted
        omega
      have drew := tidy.draw
      have idle := tidy.idle cache.drawn (le_refl _)
      have linked := saveRequest_memory drew distinct named (Nat.lt_succ_self cache.drawn)
        (tidy.unnamed cache.drawn (le_refl _)) image calls
      simp only [getKey, getStoredKey_memory, List.isEmpty_nil, if_true, generateUniqueKey, idle]
        at linked ⊢
      have off := putOff_saved none delay false linked
        (fun wrong => by cases wrong) positive (fun query => by simp)
      refine ⟨Nat.le_of_succ_le off.drawn, off.tidy, off.active, ?_⟩
      rcases off.outcome with kept | ⟨number, first, last, rest⟩
      · exact Or.inl kept
      · exact Or.inr ⟨number, Nat.le_of_succ_le first, last, rest⟩

theorem Tidy.insertActive {cache : FileRequestCache} (tidy : Tidy keys config cache)
    (distinct : Function.Injective keys) {number : Nat} (generated : number < cache.drawn)
    (retries : Nat) :
    Tidy keys config { cache with active := cache.active.insert (keys number) retries } := by
  refine ⟨tidy.sound, tidy.unnamed, ?_⟩
  intro later bound
  have other : keys number ≠ keys later := by
    intro same
    have equal := distinct same
    exact absurd bound (by simp only [← equal]; omega)
  simp only [find?_insert, if_neg other]
  exact tidy.idle later bound

/-- A new file of the cache, as `attach` leaves it: its key is active. -/
theorem create_written {cache : FileRequestCache} (tidy : Tidy keys config cache)
    (distinct : Function.Injective keys) (opens : Bool) (image : Bytes) :
    (∃ exn, cache.create keys config opens = ({ cache with drawn := cache.drawn + 1 }, .error exn)) ∨
    ∃ made file, cache.create keys config opens = (made, .ok (keys cache.drawn, file)) ∧
      made.waiting = cache.waiting ∧ made.drawn = cache.drawn + 1 ∧ made.now = cache.now ∧
      made.active = cache.active.insert (keys cache.drawn) 0 ∧
      Tidy keys config { made with disk := made.disk.writeFile file image } ∧
      ∀ query, (made.disk.writeFile file image).content query =
        if query = path config (keys cache.drawn) then some image else cache.disk.content query := by
  cases opens with
  | false => exact Or.inl ⟨_, rfl⟩
  | true =>
      have unused := tidy.directory (tidy.unnamed cache.drawn (le_refl _))
      have contents := cache.disk.content_create tidy.sound _ [] image unused
      refine Or.inr ⟨_, _, rfl, rfl, rfl, rfl, rfl, ?_, contents⟩
      have written := tidy.draw.replaceDisk
        (Disk.sound_writeFile _ (Disk.sound_openFile _ tidy.sound (path config (keys cache.drawn)) [])
          (cache.disk.openFile (path config (keys cache.drawn)) []).2 image) (by
        intro number later
        rw [contents, if_neg]
        · rfl
        · intro same
          have equal := distinct ((path_inj config).mp same)
          exact absurd later (by simp [generateUniqueKey, equal]))
      exact written.insertActive distinct (Nat.lt_succ_self cache.drawn) 0

theorem handle_cases (cache : FileRequestCache) (opens : Bool)
    (present : ∀ entry ∈ cache.waiting,
      (cache.disk.directory (path config entry.2.key)).isSome = true) :
    cache.handle config opens = (cache, none) ∨
    ∃ time task rest, cache.waiting = (time, task) :: rest ∧
      (cache.handle config opens = ({ cache with waiting := rest }, none) ∨
        (opens = true ∧ cache.takeWaiting.isSome = true) ∧
          cache.handle config opens = ({ cache with
            waiting := rest, active := cache.active.insert task.key task.retries }, some task)) := by
  cases queue : cache.waiting with
  | nil =>
      apply Or.inl
      simp only [handle, takeWaiting, queue]
  | cons entry rest =>
      obtain ⟨time, task⟩ := entry
      simp only [handle, takeWaiting, queue]
      by_cases early : time > cache.now
      · rw [if_pos early]
        exact Or.inl rfl
      · rw [if_neg early]
        refine Or.inr ⟨time, task, rest, rfl, ?_⟩
        cases opens with
        | false => exact Or.inl rfl
        | true =>
            have known := cache.disk.openFile_known (path config task.key) []
              (present (time, task) (by simp [queue]))
            refine Or.inr ⟨⟨rfl, rfl⟩, ?_⟩
            simp only [createFileBuffer, if_true, known]

theorem handle_due (cache : FileRequestCache) (due : cache.takeWaiting.isSome = true)
    (present : ∀ entry ∈ cache.waiting,
      (cache.disk.directory (path config entry.2.key)).isSome = true) :
    ∃ time task rest, cache.waiting = (time, task) :: rest ∧
      cache.handle config true = ({ cache with
        waiting := rest, active := cache.active.insert task.key task.retries }, some task) := by
  cases queue : cache.waiting with
  | nil => simp [takeWaiting, queue] at due
  | cons entry rest =>
      obtain ⟨time, task⟩ := entry
      have known := cache.disk.openFile_known (path config task.key) []
        (present (time, task) (by simp [queue]))
      have late : ¬time > cache.now := by
        intro early
        simp [takeWaiting, queue, if_pos early] at due
      refine ⟨time, task, rest, rfl, ?_⟩
      simp only [handle, takeWaiting, queue, if_neg late, createFileBuffer, if_true, known]

theorem placeTask_perm (time : Int) (task : DelayTask) (waiting : List (Int × DelayTask)) :
    (placeTask time task waiting).Perm ((time, task) :: waiting) := by
  induction waiting with
  | nil => exact List.Perm.refl _
  | cons other rest ih =>
      unfold placeTask
      split
      · exact (ih.cons other).trans (List.Perm.swap _ _ _)
      · exact List.Perm.refl _

end Generator

end FileRequestCache

end FastcgiContainer
