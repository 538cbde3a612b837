import FastcgiContainer.CacheEffects

/-! Every order of requests that arrive, are put off, are handled again and are destroyed:
what waits is on the disk, and is not tried too often. -/

namespace FastcgiContainer

open Word (Bytes)

namespace CacheWorld

open FileRequestCache (Tidy path)

def selected (keep : CachedRequest → Bool) (requests : List CachedRequest) (index : Nat) :
    Option (Bytes × Nat) :=
  ((requests[index]?).filter keep).map (fun request => (request.filename, request.origin))

def bodyAt : List CachedRequest → Nat → Option (Bytes × Nat) :=
  selected (fun request => !request.released)

theorem selected_append (keep : CachedRequest → Bool) (requests : List CachedRequest)
    (filename : Bytes) (origin index : Nat) (kept : keep (original filename origin) = true) :
    selected keep (requests ++ [original filename origin]) index =
      if index = requests.length then some (filename, origin) else selected keep requests index := by
  unfold selected
  by_cases last : index = requests.length
  · subst last
    rw [List.getElem?_append_right (le_refl _), Nat.sub_self, if_pos rfl]
    simp only [List.getElem?_cons_zero, Option.filter_some, kept, if_true, Option.map_some]
    rfl
  · rw [if_neg last]
    rcases Nat.lt_or_gt_of_ne last with inside | outside
    · rw [List.getElem?_append_left inside]
    · have beyond : requests[index]? = none := List.getElem?_eq_none (Nat.le_of_lt outside)
      have further : (requests ++ [original filename origin])[index]? = none :=
        List.getElem?_eq_none (by simpa using outside)
      rw [beyond, further]

theorem selected_set (keep : CachedRequest → Bool) {requests : List CachedRequest} {index : Nat}
    {request : CachedRequest} (next : CachedRequest) (here : requests[index]? = some request)
    (query : Nat) :
    selected keep (requests.set index next) query =
      if query = index then if keep next = true then some (next.filename, next.origin) else none
      else selected keep requests query := by
  unfold selected
  by_cases same : query = index
  · subst same
    have inside := (List.getElem?_eq_some_iff.mp here).1
    rw [List.getElem?_set_self inside, if_pos rfl, Option.filter_some]
    split <;> rfl
  · rw [List.getElem?_set_ne (Ne.symm same), if_neg same]

theorem selected_same (keep : CachedRequest → Bool) {requests : List CachedRequest} {index : Nat}
    {request : CachedRequest} (next : CachedRequest) (here : requests[index]? = some request)
    (filename : next.filename = request.filename) (origin : next.origin = request.origin)
    (kept : keep next = keep request) : selected keep (requests.set index next) = selected keep requests := by
  funext query
  rw [selected_set keep next here]
  split
  · next same =>
      subst same
      rw [kept, filename, origin, selected, here, Option.filter_some]
      split <;> rfl
  · rfl

theorem bodyAt_append (requests : List CachedRequest) (filename : Bytes) (origin index : Nat) :
    bodyAt (requests ++ [original filename origin]) index =
      if index = requests.length then some (filename, origin) else bodyAt requests index :=
  selected_append _ requests filename origin index rfl

theorem live_eq {world : CacheWorld} {index : Nat} {request : CachedRequest}
    (living : world.live index = some request) :
    world.requests[index]? = some request ∧ request.released = false := by
  obtain ⟨here, kept⟩ := Option.filter_eq_some_iff.mp living
  exact ⟨here, by simpa using kept⟩

section Generator

variable (keys : Nat → Bytes) (config : CacheConfig)

def Holds (cache : FileRequestCache) (images : List Bytes) (owner : Bytes → Option Nat)
    (key : Bytes) (origin : Nat) : Prop :=
  (∃ number < cache.drawn, keys number = key) ∧ owner key = some origin ∧
    ∃ image, images[origin]? = some image ∧ cache.disk.content (path config key) = some image

/-- What waits and what is being handled is on the disk, each under a key of its own. -/
structure Filed (cache : FileRequestCache) (body : Nat → Option (Bytes × Nat)) (images : List Bytes)
    (owner : Bytes → Option Nat) : Prop where
  tidy : Tidy keys config cache
  waiting : ∀ entry ∈ cache.waiting, ∃ origin, Holds keys config cache images owner entry.2.key origin
  bodies : ∀ index filename origin, body index = some (filename, origin) →
    origin < images.length ∧ (filename = [] ∨
      ∃ key, filename = path config key ∧ Holds keys config cache images owner key origin)
  apart : ∀ left right filename first second, body left = some (filename, first) →
    body right = some (filename, second) → filename = [] ∨ left = right
  aside : ∀ entry ∈ cache.waiting, ∀ index origin,
    body index ≠ some (path config entry.2.key, origin)
  once : (cache.waiting.map (fun entry => entry.2.key)).Nodup

variable {keys config}

theorem Holds.mono {cache next : FileRequestCache} {images more : List Bytes}
    {owner other : Bytes → Option Nat} {key : Bytes} {origin : Nat}
    (holds : Holds keys config cache images owner key origin) (drawn : cache.drawn ≤ next.drawn)
    (owned : other key = owner key) (grown : images <+: more)
    (kept : next.disk.content (path config key) = cache.disk.content (path config key)) :
    Holds keys config next more other key origin := by
  obtain ⟨⟨number, generated, rfl⟩, belongs, image, shown, content⟩ := holds
  refine ⟨⟨number, Nat.lt_of_lt_of_le generated drawn, rfl⟩, owned.trans belongs, image, ?_,
    kept.trans content⟩
  obtain ⟨added, rfl⟩ := grown
  rw [List.getElem?_append_left (List.getElem?_eq_some_iff.mp shown).1]
  exact shown

theorem Holds.older {cache : FileRequestCache} {images : List Bytes} {owner : Bytes → Option Nat}
    {key : Bytes} {origin number : Nat} (holds : Holds keys config cache images owner key origin)
    (distinct : Function.Injective keys) (later : cache.drawn ≤ number) : key ≠ keys number := by
  obtain ⟨⟨old, generated, rfl⟩, _⟩ := holds
  intro same
  have equal := distinct same
  omega

theorem Holds.named {cache : FileRequestCache} {images : List Bytes} {owner : Bytes → Option Nat}
    {key : Bytes} {origin : Nat} (holds : Holds keys config cache images owner key origin)
    (named : ∀ number, keys number ≠ []) : key ≠ [] := by
  obtain ⟨⟨number, _, rfl⟩, _⟩ := holds
  exact named number

theorem path_ne_nil {key : Bytes} (present : key ≠ []) : path config key ≠ [] := by
  simp [path, present]

section Filed

variable {cache : FileRequestCache} {body : Nat → Option (Bytes × Nat)} {images : List Bytes}
  {owner : Bytes → Option Nat}

theorem Filed.grow (filed : Filed keys config cache body images owner) {more : List Bytes}
    (grown : images <+: more) : Filed keys config cache body more owner := by
  have mono : ∀ key origin, Holds keys config cache images owner key origin →
      Holds keys config cache more owner key origin :=
    fun key origin holds => holds.mono (le_refl _) rfl grown rfl
  refine ⟨filed.tidy, ?_, ?_, filed.apart, filed.aside, filed.once⟩
  · intro entry member
    exact (filed.waiting entry member).imp (fun origin holds => mono _ origin holds)
  · intro index filename origin found
    obtain ⟨known, place⟩ := filed.bodies index filename origin found
    refine ⟨Nat.lt_of_lt_of_le known grown.length_le, place.imp_right ?_⟩
    rintro ⟨key, rfl, holds⟩
    exact ⟨key, rfl, mono key origin holds⟩

theorem Filed.forget (filed : Filed keys config cache body images owner)
    {fewer : Nat → Option (Bytes × Nat)}
    (subset : ∀ index value, fewer index = some value → body index = some value) :
    Filed keys config cache fewer images owner := by
  refine ⟨filed.tidy, filed.waiting, ?_, ?_, ?_, filed.once⟩
  · intro index filename origin found
    exact filed.bodies index filename origin (subset _ _ found)
  · intro left right filename first second one two
    exact filed.apart left right filename first second (subset _ _ one) (subset _ _ two)
  · intro entry member index origin found
    exact filed.aside entry member index origin (subset _ _ found)

theorem Filed.add (filed : Filed keys config cache body images owner)
    {more : Nat → Option (Bytes × Nat)} {place origin : Nat} {filename : Bytes}
    (added : ∀ index, more index = if index = place then some (filename, origin) else body index)
    (known : origin < images.length)
    (stored : filename = [] ∨
      ∃ key, filename = path config key ∧ Holds keys config cache images owner key origin)
    (unheld : ∀ index other, body index = some (filename, other) → filename = [])
    (unawaited : ∀ entry ∈ cache.waiting, filename ≠ path config entry.2.key) :
    Filed keys config cache more images owner := by
  refine ⟨filed.tidy, filed.waiting, ?_, ?_, ?_, filed.once⟩
  · intro index other source found
    rw [added] at found
    split at found
    · cases found
      exact ⟨known, stored⟩
    · exact filed.bodies index other source found
  · intro left right other first second one two
    rw [added] at one two
    split at one
    · cases one
      split at two
      · next here there => exact Or.inr (here.trans there.symm)
      · exact Or.inl (unheld right second two)
    · split at two
      · cases two
        exact Or.inl (unheld left first one)
      · exact filed.apart left right other first second one two
  · intro entry member index source found
    rw [added] at found
    split at found
    · cases found
      exact unawaited entry member rfl
    · exact filed.aside entry member index source found

theorem Filed.replace (filed : Filed keys config cache body images owner) (next : FileRequestCache)
    (other : Bytes → Option Nat) (tidy : Tidy keys config next) (drawn : cache.drawn ≤ next.drawn)
    (fewer : next.waiting.Sublist cache.waiting)
    (kept : ∀ key origin, Holds keys config cache images owner key origin →
      ((∃ entry ∈ next.waiting, entry.2.key = key) ∨ ∃ index, body index = some (path config key, origin)) →
      other key = owner key ∧
        next.disk.content (path config key) = cache.disk.content (path config key)) :
    Filed keys config next body images other := by
  refine ⟨tidy, ?_, ?_, filed.apart, ?_, (fewer.map _).nodup filed.once⟩
  · intro entry member
    obtain ⟨origin, holds⟩ := filed.waiting entry (fewer.subset member)
    obtain ⟨owned, same⟩ := kept _ origin holds (Or.inl ⟨entry, member, rfl⟩)
    exact ⟨origin, holds.mono drawn owned List.prefix_rfl same⟩
  · intro index filename origin found
    obtain ⟨known, place⟩ := filed.bodies index filename origin found
    refine ⟨known, place.imp_right ?_⟩
    rintro ⟨key, rfl, holds⟩
    obtain ⟨owned, same⟩ := kept key origin holds (Or.inr ⟨index, found⟩)
    exact ⟨key, rfl, holds.mono drawn owned List.prefix_rfl same⟩
  · intro entry member
    exact filed.aside entry (fewer.subset member)

theorem Filed.wait (filed : Filed keys config cache body images owner) (time : Int) (task : DelayTask)
    (origin : Nat) (holds : Holds keys config cache images owner task.key origin)
    (unheld : ∀ index other, body index ≠ some (path config task.key, other))
    (unawaited : ∀ entry ∈ cache.waiting, entry.2.key ≠ task.key) :
    Filed keys config
      { cache with waiting := FileRequestCache.placeTask time task cache.waiting } body images owner := by
  have perm := FileRequestCache.placeTask_perm time task cache.waiting
  refine ⟨⟨filed.tidy.sound, filed.tidy.unnamed, filed.tidy.idle⟩, ?_, filed.bodies, filed.apart, ?_, ?_⟩
  · intro entry member
    rcases List.mem_cons.mp (perm.mem_iff.mp member) with rfl | old
    · exact ⟨origin, holds⟩
    · exact filed.waiting entry old
  · intro entry member
    rcases List.mem_cons.mp (perm.mem_iff.mp member) with rfl | old
    · exact unheld
    · exact filed.aside entry old
  · rw [(perm.map _).nodup_iff, List.map_cons, List.nodup_cons]
    refine ⟨?_, filed.once⟩
    intro member
    obtain ⟨entry, old, same⟩ := List.mem_map.mp member
    exact unawaited entry old same

end Filed

section Step

variable (distinct : Function.Injective keys) (named : ∀ number, keys number ≠ [])

def AllFiled (keys : Nat → Bytes) (config : CacheConfig) (world : CacheWorld) : Prop :=
  Filed keys config world.cache (bodyAt world.requests) world.images world.owner

theorem allFiled_start : AllFiled keys config start := by
  refine ⟨FileRequestCache.tidy_blank keys config, ?_, ?_, ?_, ?_, List.nodup_nil⟩
  · intro entry member
    simp [start, FileRequestCache.blank] at member
  · intro index filename origin found
    simp [start, bodyAt, selected] at found
  · intro left right filename first second found
    simp [start, bodyAt, selected] at found
  · intro entry member
    simp [start, FileRequestCache.blank] at member

variable {world : CacheWorld}

theorem AllFiled.place (filed : AllFiled keys config world) {index : Nat} {request : CachedRequest}
    (living : world.live index = some request) :
    request.origin < world.images.length ∧ (request.filename = [] ∨
      ∃ key, request.filename = path config key ∧
        Holds keys config world.cache world.images world.owner key request.origin) := by
  apply filed.bodies index request.filename request.origin
  have found := live_eq living
  simp [bodyAt, selected, found.1, found.2]

theorem bodyAt_live {index : Nat} {request : CachedRequest} (living : world.live index = some request) :
    bodyAt world.requests index = some (request.filename, request.origin) := by
  have found := live_eq living
  simp [bodyAt, selected, found.1, found.2]

include distinct in
theorem AllFiled.unheld (filed : AllFiled keys config world) {number : Nat}
    (later : world.cache.drawn ≤ number) (present : keys number ≠ []) (index other : Nat) :
    bodyAt world.requests index ≠ some (path config (keys number), other) := by
  intro found
  rcases (filed.bodies index _ other found).2 with empty | ⟨key, same, holds⟩
  · exact path_ne_nil present empty
  · exact holds.older distinct later ((FileRequestCache.path_inj config).mp same).symm

include distinct in
theorem AllFiled.unawaited (filed : AllFiled keys config world) {number : Nat}
    (later : world.cache.drawn ≤ number) (entry : Int × DelayTask)
    (member : entry ∈ world.cache.waiting) : entry.2.key ≠ keys number := by
  obtain ⟨origin, holds⟩ := filed.waiting entry member
  exact holds.older distinct later

include named in
theorem AllFiled.arrive (filed : AllFiled keys config world) (image : Bytes) :
    AllFiled keys config (world.step keys config (.arrive image)) := by
  apply (filed.grow (List.prefix_append _ [image])).add (bodyAt_append _ _ _)
  · simp
  · exact Or.inl rfl
  · exact fun _ _ _ => rfl
  · intro entry member
    obtain ⟨origin, holds⟩ := filed.waiting entry member
    exact (path_ne_nil (holds.named named)).symm

include distinct named in
theorem AllFiled.attach (filed : AllFiled keys config world) (image : Bytes) (opens : Bool) :
    AllFiled keys config (world.attach keys config image opens) := by
  unfold CacheWorld.attach
  rcases FileRequestCache.create_written filed.tidy distinct opens image with
    ⟨exn, failed⟩ | ⟨made, file, done, waiting, drawn, now, active, tidy, contents⟩
  · rw [failed]
    exact filed.replace _ world.owner filed.tidy.draw (Nat.le_succ _) (List.Sublist.refl _)
      (fun _ _ _ _ => ⟨rfl, rfl⟩)
  · rw [done]
    have fresh : Holds keys config { made with disk := made.disk.writeFile file image }
        (world.images ++ [image]) (Function.update world.owner (keys world.cache.drawn)
          (some world.images.length)) (keys world.cache.drawn) world.images.length := by
      refine ⟨⟨world.cache.drawn, by simp [drawn], rfl⟩, by simp, image, by simp, ?_⟩
      rw [contents, if_pos rfl]
    have replaced := filed.replace _
      (Function.update world.owner (keys world.cache.drawn) (some world.images.length)) tidy
      (by simp [drawn]) (by simp [waiting]) (by
        intro key origin holds _
        have older := holds.older distinct (le_refl _)
        refine ⟨Function.update_of_ne older _ _, ?_⟩
        rw [contents, if_neg]
        exact fun same => older ((FileRequestCache.path_inj config).mp same))
    apply (replaced.grow (List.prefix_append _ [image])).add (bodyAt_append _ _ _)
    · simp
    · exact Or.inr ⟨_, rfl, fresh⟩
    · intro index other found
      exact absurd found (filed.unheld distinct (le_refl _) (named _) index other)
    · intro entry member same
      rw [show ({ made with disk := made.disk.writeFile file image } : FileRequestCache).waiting =
        world.cache.waiting from waiting] at member
      exact filed.unawaited distinct (le_refl _) entry member
        ((FileRequestCache.path_inj config).mp same).symm

include distinct in
theorem own_eq (cache : FileRequestCache) (origin : Nat) (grown : world.cache.drawn ≤ cache.drawn)
    (number : Nat) : world.own keys cache origin (keys number) =
      if world.cache.drawn ≤ number ∧ number < cache.drawn then some origin
      else world.owner (keys number) := by
  have range : ((List.range cache.drawn).drop world.cache.drawn).any
      (fun other => keys other == keys number) =
        decide (world.cache.drawn ≤ number ∧ number < cache.drawn) := by
    rw [Bool.eq_iff_iff, List.any_eq_true, decide_eq_true_iff]
    constructor
    · rintro ⟨other, member, same⟩
      obtain rfl := distinct (beq_iff_eq.mp same)
      obtain ⟨place, inside, rfl⟩ := List.mem_iff_getElem.mp member
      simp only [List.length_drop, List.length_range] at inside
      simp only [List.getElem_drop, List.getElem_range]
      omega
    · intro bounds
      refine ⟨number, ?_, by simp⟩
      apply List.mem_iff_getElem.mpr
      refine ⟨number - world.cache.drawn, ?_, ?_⟩
      · simp only [List.length_drop, List.length_range]
        omega
      · simp only [List.getElem_drop, List.getElem_range]
        omega
  unfold own
  rw [range]
  simp only [decide_eq_true_iff]

/-- The image that `serialize` writes, if it does not fail. -/
theorem image_given {serializes : Except Exn Unit} {image : Bytes}
    (given : (serializes.map (fun _ => image)).toOption.isSome = true) :
    (serializes.map (fun _ => image)).toOption = some image := by
  cases serializes with
  | error exn => cases given
  | ok _ => rfl

include distinct named in
theorem AllFiled.saved (filed : AllFiled keys config world) {index : Nat} {request : CachedRequest}
    (living : world.live index = some request) (serializes : Except Exn Unit) (calls : Calls) :
    let image := serializes.map (fun _ => world.images.getD request.origin [])
    let next := (world.cache.save keys config request.filename request.delay image calls).1
    ∃ stored source, FileRequestCache.Saved keys config world.cache next stored request.delay source ∧
      FileRequestCache.Body config request.filename stored ∧
      (source.isSome = true → source = world.images[request.origin]?) := by
  intro image next
  obtain ⟨known, place⟩ := filed.place living
  have shown : world.images[request.origin]? = some (world.images.getD request.origin []) := by
    simp [known]
  rcases place with memory | ⟨key, stored, holds⟩
  · refine ⟨none, image.toOption, ?_, ?_, ?_⟩
    · simp only [next, memory]
      exact FileRequestCache.save_memory filed.tidy distinct named _ _ _
    · rw [memory]
      exact .memory
    · intro given
      rw [image_given given, shown]
  · refine ⟨some key, world.cache.disk.content (path config key), ?_, ?_, ?_⟩
    · simp only [next, stored]
      exact FileRequestCache.save_stored filed.tidy distinct named (holds.named named) _ _ _
    · rw [stored]
      exact .file key (holds.named named)
    · intro _
      obtain ⟨_, _, image, listed, content⟩ := holds
      rw [content, listed]

include distinct named in
theorem AllFiled.save (filed : AllFiled keys config world) {index : Nat} {request : CachedRequest}
    (living : world.live index = some request) (serializes : Except Exn Unit) (calls : Calls) :
    AllFiled keys config (world.saveToCache keys config index request serializes calls) := by
  obtain ⟨stored, source, saved, _, given⟩ := filed.saved distinct named living serializes calls
  obtain ⟨known, _⟩ := filed.place living
  unfold AllFiled CacheWorld.saveToCache
  simp only
  rw [show bodyAt (world.requests.set index { request with saves := request.saves + 1 }) =
    bodyAt world.requests from selected_same _ _ (live_eq living).1 rfl rfl rfl]
  generalize (world.cache.save keys config request.filename request.delay
    (serializes.map (fun _ => world.images.getD request.origin [])) calls).1 = next at saved ⊢
  have owned : ∀ key origin, Holds keys config world.cache world.images world.owner key origin →
      world.own keys next request.origin key = world.owner key := by
    rintro key origin ⟨⟨number, generated, rfl⟩, _⟩
    rw [own_eq distinct next request.origin saved.drawn, if_neg (by omega)]
  rcases saved.outcome with ⟨waiting, contents⟩ | ⟨number, first, last, waiting, _, present, contents⟩
  · exact filed.replace _ _ saved.tidy saved.drawn (by simp [waiting])
      (fun key origin holds _ => ⟨owned key origin holds, contents _⟩)
  · have unwaited : Tidy keys config { next with waiting := world.cache.waiting } :=
      ⟨saved.tidy.sound, saved.tidy.unnamed, saved.tidy.idle⟩
    have replaced := filed.replace { next with waiting := world.cache.waiting }
      (world.own keys next request.origin) unwaited saved.drawn (List.Sublist.refl _) (by
        intro key origin holds _
        refine ⟨owned key origin holds, ?_⟩
        rw [contents, if_neg]
        exact fun same => holds.older distinct first ((FileRequestCache.path_inj config).mp same))
    have waits := replaced.wait (world.cache.now + request.delay)
      ⟨keys number, world.cache.nextRetry stored⟩ request.origin (by
        refine ⟨⟨number, last, rfl⟩, ?_, world.images.getD request.origin [], by simp [known], ?_⟩
        · rw [own_eq distinct next request.origin saved.drawn, if_pos ⟨first, last⟩]
        · rw [contents, if_pos rfl, given present]
          simp [known])
      (filed.unheld distinct first (named _)) (filed.unawaited distinct first)
    have same : next = { next with
        waiting := FileRequestCache.placeTask (world.cache.now + request.delay)
          ⟨keys number, world.cache.nextRetry stored⟩ world.cache.waiting } := by rw [← waiting]
    rw [same]
    exact waits

theorem AllFiled.change (filed : AllFiled keys config world) {index : Nat} {request : CachedRequest}
    (living : world.live index = some request) (next : CachedRequest)
    (filename : next.filename = request.filename) (origin : next.origin = request.origin)
    (released : next.released = request.released) :
    AllFiled keys config (world.change index next) := by
  unfold AllFiled CacheWorld.change
  simp only
  rw [show bodyAt (world.requests.set index next) = bodyAt world.requests from
    selected_same _ next (live_eq living).1 filename origin (by rw [released])]
  exact filed

theorem AllFiled.release (filed : AllFiled keys config world) {index : Nat} {request : CachedRequest}
    (living : world.live index = some request) :
    AllFiled keys config (world.release index request) := by
  have here := bodyAt_live living
  have released : ∀ query, bodyAt (world.requests.set index { request with released := true }) query =
      if query = index then none else bodyAt world.requests query :=
    fun query => selected_set _ { request with released := true } (live_eq living).1 query
  have left : Filed keys config world.cache
      (bodyAt (world.requests.set index { request with released := true })) world.images world.owner := by
    apply filed.forget
    intro query value found
    rw [released] at found
    split at found
    · cases found
    · exact found
  unfold AllFiled CacheWorld.release
  simp only
  split
  · exact left
  · next stored =>
      have present : request.filename ≠ [] := by simpa using stored
      refine left.replace _ _ (left.tidy.dropBuffer _) (le_refl _) (List.Sublist.refl _) ?_
      intro key origin holds used
      refine ⟨rfl, ?_⟩
      rw [FileRequestCache.dropBuffer, Disk.content_unlink, if_neg]
      intro same
      rcases used with ⟨entry, member, rfl⟩ | ⟨query, found⟩
      · apply filed.aside entry member index request.origin
        rw [here, same]
      · rw [released] at found
        split at found
        · cases found
        · next other =>
            rw [same] at found
            rcases filed.apart query index _ _ _ found here with empty | equal
            · exact present empty
            · exact other equal

theorem AllFiled.present (filed : AllFiled keys config world) (entry : Int × DelayTask)
    (member : entry ∈ world.cache.waiting) :
    (world.cache.disk.directory (path config entry.2.key)).isSome = true := by
  obtain ⟨origin, _, _, image, _, content⟩ := filed.waiting entry member
  rw [Option.isSome_iff_ne_none, ne_eq, ← Disk.content_eq_none _ filed.tidy.sound, content]
  simp

include distinct in
theorem AllFiled.retry (filed : AllFiled keys config world) (opens parses : Bool) :
    AllFiled keys config (world.retry config opens parses) := by
  unfold CacheWorld.retry
  rcases FileRequestCache.handle_cases world.cache opens filed.present with
    idle | ⟨time, task, rest, waiting, failed | ⟨_, taken⟩⟩
  · rw [idle]
    exact filed
  · rw [failed]
    exact filed.replace _ _ ⟨filed.tidy.sound, filed.tidy.unnamed, filed.tidy.idle⟩ (le_refl _)
      (by simp [waiting]) (fun _ _ _ _ => ⟨rfl, rfl⟩)
  · rw [taken]
    have first : (time, task) ∈ world.cache.waiting := by simp [waiting]
    obtain ⟨origin, holds⟩ := filed.waiting (time, task) first
    have owned : (world.owner task.key).getD 0 = origin := by simp [holds.2.1]
    obtain ⟨number, generated, same⟩ := holds.1
    have tidy : Tidy keys config { world.cache with
        waiting := rest, active := world.cache.active.insert task.key task.retries } := by
      have active := filed.tidy.insertActive distinct generated task.retries
      rw [same] at active
      exact ⟨active.sound, active.unnamed, active.idle⟩
    have shorter : rest.Sublist world.cache.waiting := by simp [waiting]
    have once := filed.once
    rw [waiting, List.map_cons, List.nodup_cons] at once
    have moved := filed.replace _ world.owner tidy (le_refl _) shorter (fun _ _ _ _ => ⟨rfl, rfl⟩)
    simp only
    split
    · rw [owned]
      apply moved.add (bodyAt_append _ _ _)
      · obtain ⟨_, _, image, listed, _⟩ := holds
        exact (List.getElem?_eq_some_iff.mp listed).1
      · exact Or.inr ⟨task.key, rfl, holds.mono (le_refl _) rfl List.prefix_rfl rfl⟩
      · intro index other found
        exact absurd found (filed.aside (time, task) first index other)
      · intro entry member equal
        apply once.1
        rw [(FileRequestCache.path_inj config).mp equal]
        exact List.mem_map_of_mem member
    · refine moved.replace _ _ (tidy.dropBuffer _) (le_refl _) (List.Sublist.refl _) ?_
      intro key other kept used
      refine ⟨rfl, ?_⟩
      rw [FileRequestCache.dropBuffer, Disk.content_unlink, if_neg]
      intro equal
      obtain rfl := (FileRequestCache.path_inj config).mp equal
      rcases used with ⟨entry, member, key_eq⟩ | ⟨index, found⟩
      · apply once.1
        rw [← key_eq]
        exact List.mem_map_of_mem member
      · exact filed.aside (time, task) first index other found

include distinct named in
theorem AllFiled.step (filed : AllFiled keys config world) (action : Action) :
    AllFiled keys config (world.step keys config action) := by
  cases action with
  | arrive image => exact filed.arrive named image
  | create image opens => exact filed.attach distinct named image opens
  | execute index =>
      simp only [CacheWorld.step]
      cases living : world.live index with
      | none => exact filed
      | some request => exact filed.change living { request with executed := true } rfl rfl rfl
  | tryAgain index delay =>
      simp only [CacheWorld.step]
      cases living : world.live index with
      | none => exact filed
      | some request => exact filed.change living { request with delay } rfl rfl rfl
  | save index serializes calls =>
      simp only [CacheWorld.step]
      cases living : world.live index with
      | none => exact filed
      | some request => exact filed.save distinct named living serializes calls
  | handle opens parses => exact filed.retry distinct opens parses
  | release index =>
      simp only [CacheWorld.step]
      cases living : world.live index with
      | none => exact filed
      | some request => exact filed.release living
  | elapse time =>
      exact filed.replace _ _ ⟨filed.tidy.sound, filed.tidy.unnamed, filed.tidy.idle⟩ (le_refl _)
        (List.Sublist.refl _) (fun _ _ _ _ => ⟨rfl, rfl⟩)

include distinct named in
theorem AllFiled.run (filed : AllFiled keys config world) (actions : List Action) :
    AllFiled keys config (world.run keys config actions) := by
  induction actions generalizing world with
  | nil => exact filed
  | cons action rest ih => exact ih (filed.step distinct named action)

inductive Effect (keys : Nat → Bytes) (config : CacheConfig) (world : CacheWorld) :
    Action → CacheWorld → Prop where
  | same (action : Action) : Effect keys config world action world
  | arrived (image : Bytes) : Effect keys config world (.arrive image)
      { world with
        requests := world.requests ++ [original [] world.images.length]
        images := world.images ++ [image] }
  | unopened (image : Bytes) (opens : Bool) : Effect keys config world (.create image opens)
      { world with cache := { world.cache with drawn := world.cache.drawn + 1 } }
  | created (image : Bytes) (opens : Bool) (cache : FileRequestCache)
      (waiting : cache.waiting = world.cache.waiting)
      (active : cache.active = world.cache.active.insert (keys world.cache.drawn) 0) :
      Effect keys config world (.create image opens)
        { cache
          requests := world.requests ++
            [original (path config (keys world.cache.drawn)) world.images.length]
          images := world.images ++ [image]
          owner := Function.update world.owner (keys world.cache.drawn) (some world.images.length) }
  | changed (action : Action) (index : Nat) (request next : CachedRequest)
      (living : world.live index = some request) (filename : next.filename = request.filename)
      (origin : next.origin = request.origin) (released : next.released = request.released)
      (saves : next.saves = request.saves) :
      Effect keys config world action (world.change index next)
  | saved (index : Nat) (serializes : Except Exn Unit) (calls : Calls) (request : CachedRequest)
      (cache : FileRequestCache) (stored source : Option Bytes)
      (living : world.live index = some request)
      (effect : FileRequestCache.Saved keys config world.cache cache stored request.delay source)
      (body : FileRequestCache.Body config request.filename stored) :
      Effect keys config world (.save index serializes calls)
        { world with
          cache
          owner := world.own keys cache request.origin
          requests := world.requests.set index { request with saves := request.saves + 1 } }
  | unread (opens parses : Bool) (entry : Int × DelayTask) (rest : List (Int × DelayTask))
      (first : world.cache.waiting = entry :: rest) : Effect keys config world (.handle opens parses)
      { world with cache := { world.cache with waiting := rest } }
  | resumed (opens : Bool) (entry : Int × DelayTask) (rest : List (Int × DelayTask)) (origin : Nat)
      (first : world.cache.waiting = entry :: rest) (owned : world.owner entry.2.key = some origin) :
      Effect keys config world (.handle opens true)
        { world with
          cache := { world.cache with
            waiting := rest, active := world.cache.active.insert entry.2.key entry.2.retries }
          requests := world.requests ++ [original (path config entry.2.key) origin] }
  | spoiled (opens : Bool) (entry : Int × DelayTask) (rest : List (Int × DelayTask))
      (first : world.cache.waiting = entry :: rest)
      (due : opens = true ∧ world.cache.takeWaiting.isSome = true) :
      Effect keys config world (.handle opens false)
      { world with
        cache := FileRequestCache.dropBuffer { world.cache with
          waiting := rest, active := world.cache.active.insert entry.2.key entry.2.retries }
          (path config entry.2.key) }
  | released (index : Nat) (request : CachedRequest) (living : world.live index = some request) :
      Effect keys config world (.release index) (world.release index request)
  | elapsed (time : Nat) : Effect keys config world (.elapse time)
      { world with cache := { world.cache with now := world.cache.now + time } }

include distinct named in
theorem AllFiled.effect (filed : AllFiled keys config world) (action : Action) :
    Effect keys config world action (world.step keys config action) := by
  cases action with
  | arrive image => exact .arrived image
  | create image opens =>
      simp only [CacheWorld.step, CacheWorld.attach]
      rcases FileRequestCache.create_written filed.tidy distinct opens image with
        ⟨exn, failed⟩ | ⟨made, file, done, waiting, _, _, active, _⟩
      · rw [failed]
        exact .unopened image opens
      · rw [done]
        exact .created image opens { made with disk := made.disk.writeFile file image } waiting active
  | execute index =>
      simp only [CacheWorld.step]
      cases living : world.live index with
      | none => exact .same _
      | some request => exact .changed _ index request _ living rfl rfl rfl rfl
  | tryAgain index delay =>
      simp only [CacheWorld.step]
      cases living : world.live index with
      | none => exact .same _
      | some request => exact .changed _ index request _ living rfl rfl rfl rfl
  | save index serializes calls =>
      simp only [CacheWorld.step]
      cases living : world.live index with
      | none => exact .same _
      | some request =>
          obtain ⟨stored, source, effect, body, _⟩ :=
            filed.saved distinct named living serializes calls
          exact .saved index serializes calls request _ stored source living effect body
  | handle opens parses =>
      simp only [CacheWorld.step, CacheWorld.retry]
      rcases FileRequestCache.handle_cases world.cache opens filed.present with
        idle | ⟨time, task, rest, waiting, failed | ⟨due, taken⟩⟩
      · rw [idle]
        exact .same _
      · rw [failed]
        exact .unread opens parses (time, task) rest waiting
      · rw [taken]
        cases parses with
        | false => exact .spoiled opens (time, task) rest waiting due
        | true =>
            obtain ⟨origin, holds⟩ := filed.waiting (time, task) (by simp [waiting])
            have owned : (world.owner task.key).getD 0 = origin := by simp [holds.2.1]
            simp only [if_true, owned]
            exact .resumed opens (time, task) rest origin waiting holds.2.1
  | release index =>
      simp only [CacheWorld.step]
      cases living : world.live index with
      | none => exact .same _
      | some request => exact .released index request living
  | elapse time => exact .elapsed time

theorem run_append (world : CacheWorld) (before after : List Action) :
    world.run keys config (before ++ after) = (world.run keys config before).run keys config after :=
  List.foldl_append

include distinct named in
theorem AllFiled.along (filed : AllFiled keys config world) (motive : CacheWorld → Prop)
    (allowed : CacheWorld → Action → Prop)
    (kept : ∀ world action next, AllFiled keys config world → motive world → allowed world action →
      Effect keys config world action next → motive next)
    (holds : motive world) (actions : List Action)
    (fits : ∀ before action after, actions = before ++ action :: after →
      allowed (world.run keys config before) action) :
    motive (world.run keys config actions) := by
  induction actions generalizing world with
  | nil => exact holds
  | cons action rest ih =>
      have first := fits [] action rest rfl
      apply ih (filed.step distinct named action)
        (kept world action _ filed holds first (filed.effect distinct named action))
      intro before other after split
      exact fits (action :: before) other after (by rw [split]; rfl)

end Step

end Generator

end CacheWorld

end FastcgiContainer
