import FastcgiContainer.CacheKeys
import FastcgiContainer.CacheRuns

/-! How often a request is tried: the counter goes with it from one map of the cache to the
other, and an original request is in one place at a time. -/

namespace FastcgiContainer

open Word (Bytes)

namespace CacheWorld

open FileRequestCache (Tidy path)

def attempts (requests : List CachedRequest) (origin : Nat) : Nat :=
  (requests.map CachedRequest.origin).count origin

def pendingAt : List CachedRequest → Nat → Option (Bytes × Nat) :=
  selected (fun request => !request.released && request.saves == 0)

theorem attempts_append (requests : List CachedRequest) (filename : Bytes) (origin query : Nat) :
    attempts (requests ++ [original filename origin]) query =
      attempts requests query + if origin = query then 1 else 0 := by
  simp [attempts, original, List.count_singleton]

theorem attempts_set {requests : List CachedRequest} {index : Nat} {request : CachedRequest}
    (next : CachedRequest) (here : requests[index]? = some request)
    (origin : next.origin = request.origin) : attempts (requests.set index next) = attempts requests := by
  have same : (requests.set index next).map CachedRequest.origin =
      requests.map CachedRequest.origin := by
    apply List.ext_getElem?
    intro query
    simp only [List.getElem?_map, List.getElem?_set]
    split
    · next equal =>
        subst equal
        split
        · simp [here, origin]
        · next outside => simp [List.getElem?_eq_none (Nat.le_of_not_lt outside)]
    · rfl
  funext query
  rw [attempts, same]
  rfl

theorem pendingAt_append (requests : List CachedRequest) (filename : Bytes) (origin index : Nat) :
    pendingAt (requests ++ [original filename origin]) index =
      if index = requests.length then some (filename, origin) else pendingAt requests index :=
  selected_append _ requests filename origin index rfl

theorem pendingAt_append_cases {requests : List CachedRequest} {filename other : Bytes}
    {origin source index : Nat}
    (found : pendingAt (requests ++ [original filename origin]) index = some (other, source)) :
    (index = requests.length ∧ filename = other ∧ origin = source) ∨
      pendingAt requests index = some (other, source) := by
  rw [pendingAt_append] at found
  split at found
  · next last =>
      obtain ⟨written, tried⟩ := Prod.mk.inj (Option.some.inj found)
      exact Or.inl ⟨last, written, tried⟩
  · exact Or.inr found

theorem pendingAt_body {requests : List CachedRequest} {index : Nat} {value : Bytes × Nat}
    (found : pendingAt requests index = some value) : bodyAt requests index = some value := by
  obtain ⟨request, kept, same⟩ := Option.map_eq_some_iff.mp found
  obtain ⟨here, unsaved⟩ := Option.filter_eq_some_iff.mp kept
  simp only [Bool.and_eq_true, Bool.not_eq_true'] at unsaved
  simp [bodyAt, selected, here, unsaved.1, same]

section Generator

variable (keys : Nat → Bytes) (config : CacheConfig)

structure Bounded (cache : FileRequestCache) : Prop where
  waiting : ∀ entry ∈ cache.waiting, entry.2.retries ≤ config.maxRetries
  active : ∀ key retries, cache.active.find? key = some retries → retries ≤ config.maxRetries

/-- An original request is waiting, or may be put off, in one place at most; and the
counter there is the number of times it was tried. -/
structure Counted (world : CacheWorld) : Prop where
  known : ∀ request ∈ world.requests, request.origin < world.images.length
  waiting : ∀ entry ∈ world.cache.waiting, ∀ origin, world.owner entry.2.key = some origin →
    attempts world.requests origin = entry.2.retries
  memory : ∀ index origin, pendingAt world.requests index = some ([], origin) →
    attempts world.requests origin = 1
  stored : ∀ index key origin, key ≠ [] →
    pendingAt world.requests index = some (path config key, origin) →
    ∃ retries, world.cache.active.find? key = some retries ∧
      attempts world.requests origin = retries + 1
  single : ∀ left right first second origin, pendingAt world.requests left = some (first, origin) →
    pendingAt world.requests right = some (second, origin) → left = right
  either : ∀ entry ∈ world.cache.waiting, ∀ origin, world.owner entry.2.key = some origin →
    ∀ index filename, pendingAt world.requests index ≠ some (filename, origin)
  sole : ∀ left ∈ world.cache.waiting, ∀ right ∈ world.cache.waiting, ∀ origin,
    world.owner left.2.key = some origin → world.owner right.2.key = some origin →
    left.2.key = right.2.key
  inactive : ∀ entry ∈ world.cache.waiting, world.cache.active.find? entry.2.key = none
  bound : ∀ origin, attempts world.requests origin ≤ config.maxRetries + 1

variable {keys config} {world next : CacheWorld} {action : Action}

theorem Bounded.insertActive {cache : FileRequestCache} (bounded : Bounded config cache) (key : Bytes)
    {retries : Nat} (few : retries ≤ config.maxRetries) (query : Bytes) (value : Nat)
    (found : (cache.active.insert key retries).find? query = some value) :
    value ≤ config.maxRetries := by
  rw [find?_insert] at found
  split at found
  · rcases Option.or_eq_some_iff.mp found with old | ⟨_, new⟩
    · exact bounded.active query value old
    · cases new
      exact few
  · exact bounded.active query value found

theorem Bounded.effect (bounded : Bounded config world.cache)
    (effect : Effect keys config world action next) : Bounded config next.cache := by
  cases effect with
  | same => exact bounded
  | arrived image => exact bounded
  | unopened image opens => exact ⟨bounded.waiting, bounded.active⟩
  | created image opens cache waiting active =>
      refine ⟨by rw [waiting]; exact bounded.waiting, ?_⟩
      rw [active]
      exact bounded.insertActive _ (Nat.zero_le _)
  | changed => exact bounded
  | saved index serializes calls request cache stored source living effect body =>
      constructor
      · intro entry member
        rcases effect.outcome with ⟨waiting, _⟩ | ⟨number, _, _, waiting, few, _⟩
        · exact bounded.waiting entry (waiting ▸ member)
        · rw [waiting, (FileRequestCache.placeTask_perm _ _ _).mem_iff] at member
          rcases List.mem_cons.mp member with rfl | old
          · exact few
          · exact bounded.waiting entry old
      · intro key retries found
        simp only [effect.active] at found
        split at found
        · cases found
        · exact bounded.active key retries found
  | unread opens parses entry rest first =>
      exact ⟨fun other member => bounded.waiting other (first ▸ List.mem_cons_of_mem entry member),
        bounded.active⟩
  | resumed opens entry rest origin first owned =>
      exact ⟨fun other member => bounded.waiting other (first ▸ List.mem_cons_of_mem entry member),
        bounded.insertActive _ (bounded.waiting entry (by simp [first]))⟩
  | spoiled opens entry rest first due =>
      exact ⟨fun other member => bounded.waiting other (first ▸ List.mem_cons_of_mem entry member),
        bounded.insertActive _ (bounded.waiting entry (by simp [first]))⟩
  | released index request living =>
      unfold CacheWorld.release
      split
      · exact bounded
      · exact ⟨bounded.waiting, bounded.active⟩
  | elapsed time => exact ⟨bounded.waiting, bounded.active⟩

theorem Counted.attempts_new (counted : Counted config world) {origin : Nat}
    (later : world.images.length ≤ origin) : attempts world.requests origin = 0 := by
  apply List.count_eq_zero_of_not_mem
  intro member
  obtain ⟨request, listed, same⟩ := List.mem_map.mp member
  exact absurd (counted.known request listed) (by omega)

theorem Counted.pending_known (counted : Counted config world) {index : Nat} {filename : Bytes}
    {origin : Nat} (found : pendingAt world.requests index = some (filename, origin)) :
    origin < world.images.length := by
  obtain ⟨request, kept, same⟩ := Option.map_eq_some_iff.mp found
  obtain ⟨here, _⟩ := Option.filter_eq_some_iff.mp kept
  cases same
  exact counted.known request (List.mem_of_getElem? here)

theorem Counted.shrink (counted : Counted config world) (cache : FileRequestCache)
    (requests : List CachedRequest) (counts : attempts requests = attempts world.requests)
    (known : ∀ request ∈ requests, request.origin < world.images.length)
    (fewer : ∀ index value, pendingAt requests index = some value →
      pendingAt world.requests index = some value)
    (waiting : ∀ entry ∈ cache.waiting, entry ∈ world.cache.waiting)
    (active : ∀ index key origin, key ≠ [] → pendingAt requests index = some (path config key, origin) →
      cache.active.find? key = world.cache.active.find? key)
    (inactive : ∀ entry ∈ cache.waiting, cache.active.find? entry.2.key = none) :
    Counted config { world with cache, requests } := by
  refine ⟨known, ?_, ?_, ?_, ?_, ?_, ?_, inactive, ?_⟩
  · intro entry member origin owned
    simp only [counts]
    exact counted.waiting entry (waiting entry member) origin owned
  · intro index origin found
    simp only [counts]
    exact counted.memory index origin (fewer _ _ found)
  · intro index key origin named found
    simp only [counts, active index key origin named found]
    exact counted.stored index key origin named (fewer _ _ found)
  · intro left right first second origin one two
    exact counted.single left right first second origin (fewer _ _ one) (fewer _ _ two)
  · intro entry member origin owned index filename found
    exact counted.either entry (waiting entry member) origin owned index filename (fewer _ _ found)
  · intro left one right two
    exact counted.sole left (waiting left one) right (waiting right two)
  · simp only [counts]
    exact counted.bound

theorem Counted.add (counted : Counted config world) (cache : FileRequestCache) (images : List Bytes)
    (owner : Bytes → Option Nat) (filename : Bytes) (origin : Nat)
    (grown : world.images.length ≤ images.length) (listed : origin < images.length)
    (waiting : ∀ entry ∈ cache.waiting, entry ∈ world.cache.waiting ∧
      cache.active.find? entry.2.key = none ∧ ∀ source, owner entry.2.key = some source →
        world.owner entry.2.key = some source ∧ origin ≠ source)
    (apart : ∀ index other source,
      pendingAt world.requests index = some (other, source) → origin ≠ source)
    (active : ∀ index key source, key ≠ [] →
      pendingAt world.requests index = some (path config key, source) →
      cache.active.find? key = world.cache.active.find? key)
    (memory : filename = [] → attempts world.requests origin = 0)
    (stored : ∀ key, key ≠ [] → filename = path config key →
      cache.active.find? key = some (attempts world.requests origin))
    (few : attempts world.requests origin ≤ config.maxRetries) :
    Counted config
      { cache, requests := world.requests ++ [original filename origin], images, owner } := by
  have counts : ∀ source, origin ≠ source →
      attempts (world.requests ++ [original filename origin]) source =
        attempts world.requests source := by
    intro source differ
    rw [attempts_append, if_neg differ, Nat.add_zero]
  have again : attempts (world.requests ++ [original filename origin]) origin =
      attempts world.requests origin + 1 := by
    rw [attempts_append, if_pos rfl]
  refine ⟨?_, ?_, ?_, ?_, ?_, ?_, ?_, ?_, ?_⟩
  · intro request member
    rcases List.mem_append.mp member with before | last
    · exact Nat.lt_of_lt_of_le (counted.known request before) grown
    · rw [List.mem_singleton.mp last]
      exact listed
  · intro entry member source belongs
    obtain ⟨old, _, owned⟩ := waiting entry member
    obtain ⟨belonged, differ⟩ := owned source belongs
    rw [counts source differ]
    exact counted.waiting entry old source belonged
  · intro index source found
    rcases pendingAt_append_cases found with ⟨_, empty, rfl⟩ | old
    · rw [again, memory empty]
    · rw [counts source (apart index _ source old)]
      exact counted.memory index source old
  · intro index key source named found
    rcases pendingAt_append_cases found with ⟨_, written, rfl⟩ | old
    · exact ⟨_, stored key named written, again⟩
    · rw [counts source (apart index _ source old), active index key source named old]
      exact counted.stored index key source named old
  · intro left right one two source here there
    rcases pendingAt_append_cases here with ⟨first, _, rfl⟩ | before
    · rcases pendingAt_append_cases there with ⟨second, _, _⟩ | old
      · exact first.trans second.symm
      · exact absurd rfl (apart right two _ old)
    · rcases pendingAt_append_cases there with ⟨_, _, rfl⟩ | old
      · exact absurd rfl (apart left one _ before)
      · exact counted.single left right one two source before old
  · intro entry member source belongs index other found
    obtain ⟨old, _, owned⟩ := waiting entry member
    obtain ⟨belonged, differ⟩ := owned source belongs
    rcases pendingAt_append_cases found with ⟨_, _, same⟩ | before
    · exact differ same
    · exact counted.either entry old source belonged index other before
  · intro left one right two source here there
    obtain ⟨first, _, firstOwned⟩ := waiting left one
    obtain ⟨second, _, secondOwned⟩ := waiting right two
    exact counted.sole left first right second source (firstOwned source here).1
      (secondOwned source there).1
  · exact fun entry member => (waiting entry member).2.1
  · intro source
    by_cases same : origin = source
    · subst same
      rw [again]
      exact Nat.succ_le_succ few
    · rw [counts source same]
      exact counted.bound source

theorem Counted.arrive (counted : Counted config world) (filed : AllFiled keys config world)
    (cache : FileRequestCache) (owner : Bytes → Option Nat) (filename image : Bytes)
    (waiting : cache.waiting = world.cache.waiting)
    (owned : ∀ number < world.cache.drawn, owner (keys number) = world.owner (keys number))
    (active : ∀ number < world.cache.drawn,
      cache.active.find? (keys number) = world.cache.active.find? (keys number))
    (fresh : ∀ key, key ≠ [] → filename = path config key → cache.active.find? key = some 0) :
    Counted config
      { cache
        requests := world.requests ++ [original filename world.images.length]
        images := world.images ++ [image]
        owner } := by
  have untried : attempts world.requests world.images.length = 0 := counted.attempts_new (le_refl _)
  apply counted.add cache (world.images ++ [image]) owner filename world.images.length
  · simp
  · simp
  · intro entry member
    rw [waiting] at member
    obtain ⟨other, holds⟩ := filed.waiting entry member
    obtain ⟨⟨number, generated, key⟩, belonged, shown, listed, _⟩ := holds
    have idle := counted.inactive entry member
    refine ⟨member, ?_, ?_⟩
    · rw [← key, active number generated, key]
      exact idle
    · intro source belongs
      rw [← key, owned number generated, key] at belongs
      obtain rfl := Option.some.inj (belonged.symm.trans belongs)
      exact ⟨belongs, Nat.ne_of_gt (List.getElem?_eq_some_iff.mp listed).1⟩
  · intro index other source found
    exact Nat.ne_of_gt (counted.pending_known found)
  · intro index key source named found
    rcases (filed.bodies index _ source (pendingAt_body found)).2 with empty | ⟨other, written, holds⟩
    · exact absurd empty (path_ne_nil named)
    · obtain rfl := (FileRequestCache.path_inj config).mp written
      obtain ⟨⟨number, generated, rfl⟩, _⟩ := holds
      exact active number generated
  · exact fun _ => untried
  · rw [untried]
    exact fresh
  · rw [untried]
    exact Nat.zero_le _

theorem Counted.resume (counted : Counted config world) (filed : AllFiled keys config world)
    (named : ∀ number, keys number ≠ []) (bounded : Bounded config world.cache)
    {entry : Int × DelayTask} {rest : List (Int × DelayTask)} {origin : Nat}
    (first : world.cache.waiting = entry :: rest)
    (owned : world.owner entry.2.key = some origin) :
    Counted config { world with
      cache := { world.cache with
        waiting := rest, active := world.cache.active.insert entry.2.key entry.2.retries }
      requests := world.requests ++ [original (path config entry.2.key) origin] } := by
  have taken : entry ∈ world.cache.waiting := by simp [first]
  have once := filed.once
  rw [first, List.map_cons, List.nodup_cons] at once
  have tried := counted.waiting entry taken origin owned
  obtain ⟨source, holds⟩ := filed.waiting entry taken
  obtain rfl : source = origin := Option.some.inj (holds.2.1.symm.trans owned)
  apply counted.add _ world.images world.owner (path config entry.2.key) source (le_refl _)
  · obtain ⟨_, _, image, listed, _⟩ := holds
    exact (List.getElem?_eq_some_iff.mp listed).1
  · intro other member
    have old : other ∈ world.cache.waiting := by
      rw [first]
      exact List.mem_cons_of_mem entry member
    have differ : entry.2.key ≠ other.2.key := by
      intro same
      exact once.1 (same ▸ List.mem_map_of_mem member)
    refine ⟨old, ?_, ?_⟩
    · simp only [find?_insert, if_neg differ]
      exact counted.inactive other old
    · intro third belongs
      refine ⟨belongs, ?_⟩
      rintro rfl
      exact differ (counted.sole entry taken other old _ owned belongs)
  · rintro index other third found rfl
    exact counted.either entry taken _ owned index other found
  · intro index key third _ found
    have differ : entry.2.key ≠ key := by
      rintro rfl
      exact filed.aside entry taken index third (pendingAt_body found)
    simp only [find?_insert, if_neg differ]
  · exact fun empty => absurd empty (path_ne_nil (holds.named named))
  · intro key _ written
    obtain rfl := (FileRequestCache.path_inj config).mp written
    simp [counted.inactive entry taken, tried]
  · rw [tried]
    exact bounded.waiting entry taken

theorem Counted.reown (counted : Counted config world) (owner : Bytes → Option Nat)
    (same : ∀ entry ∈ world.cache.waiting, owner entry.2.key = world.owner entry.2.key) :
    Counted config { world with owner } := by
  refine ⟨counted.known, ?_, counted.memory, counted.stored, counted.single, ?_, ?_,
    counted.inactive, counted.bound⟩
  · intro entry member origin owned
    exact counted.waiting entry member origin ((same entry member).symm.trans owned)
  · intro entry member origin owned
    exact counted.either entry member origin ((same entry member).symm.trans owned)
  · intro left one right two origin here there
    exact counted.sole left one right two origin ((same left one).symm.trans here)
      ((same right two).symm.trans there)

theorem Counted.wait (counted : Counted config world) (time : Int) (task : DelayTask) (origin : Nat)
    (owned : world.owner task.key = some origin)
    (tried : attempts world.requests origin = task.retries)
    (unpending : ∀ index filename, pendingAt world.requests index ≠ some (filename, origin))
    (unawaited : ∀ entry ∈ world.cache.waiting, world.owner entry.2.key ≠ some origin)
    (idle : world.cache.active.find? task.key = none) :
    Counted config { world with
      cache := { world.cache with
        waiting := FileRequestCache.placeTask time task world.cache.waiting } } := by
  have cases_of : ∀ entry ∈ FileRequestCache.placeTask time task world.cache.waiting,
      entry = (time, task) ∨ entry ∈ world.cache.waiting := by
    intro entry member
    exact List.mem_cons.mp ((FileRequestCache.placeTask_perm time task _).mem_iff.mp member)
  have unique : ∀ source, world.owner task.key = some source → source = origin := by
    intro source belongs
    exact Option.some.inj (belongs.symm.trans owned)
  refine ⟨counted.known, ?_, counted.memory, counted.stored, counted.single, ?_, ?_, ?_,
    counted.bound⟩
  · intro entry member source belongs
    rcases cases_of entry member with rfl | old
    · rw [unique source belongs]
      exact tried
    · exact counted.waiting entry old source belongs
  · intro entry member source belongs
    rcases cases_of entry member with rfl | old
    · rw [unique source belongs]
      exact unpending
    · exact counted.either entry old source belongs
  · intro left one right two source here there
    rcases cases_of left one with rfl | first
    · rcases cases_of right two with rfl | second
      · rfl
      · rw [unique source here] at there
        exact absurd there (unawaited right second)
    · rcases cases_of right two with rfl | second
      · rw [unique source there] at here
        exact absurd here (unawaited left first)
      · exact counted.sole left first right second source here there
  · intro entry member
    rcases cases_of entry member with rfl | old
    · exact idle
    · exact counted.inactive entry old

theorem pendingAt_live {index : Nat} {request : CachedRequest}
    (living : world.live index = some request) (unsaved : request.saves = 0) :
    pendingAt world.requests index = some (request.filename, request.origin) := by
  have found := live_eq living
  simp [pendingAt, selected, found.1, found.2, unsaved]

theorem Counted.nextRetry (counted : Counted config world) {index : Nat} {request : CachedRequest}
    {stored : Option Bytes} (pending : pendingAt world.requests index =
      some (request.filename, request.origin))
    (body : FileRequestCache.Body config request.filename stored) :
    attempts world.requests request.origin = world.cache.nextRetry stored := by
  generalize request.filename = filename at pending body
  cases body with
  | memory => exact counted.memory index _ pending
  | file key named =>
      obtain ⟨retries, active, tried⟩ := counted.stored index key _ named pending
      simp [FileRequestCache.nextRetry, active, tried]

section Save

variable {index : Nat} {request : CachedRequest}

theorem pendingAt_saved (living : world.live index = some request) (query : Nat) (value : Bytes × Nat)
    (found : pendingAt
      (world.requests.set index { request with saves := request.saves + 1 }) query = some value) :
    query ≠ index ∧ pendingAt world.requests query = some value := by
  rw [pendingAt, selected_set _ _ (live_eq living).1] at found
  split at found
  · simp at found
  · next other => exact ⟨other, found⟩

variable {cache : FileRequestCache} {stored source : Option Bytes}

theorem Counted.settle (counted : Counted config world) (filed : AllFiled keys config world)
    (living : world.live index = some request) (unsaved : request.saves = 0)
    (effect : FileRequestCache.Saved keys config world.cache cache stored request.delay source)
    (body : FileRequestCache.Body config request.filename stored) :
    Counted config { world with
      cache := { cache with waiting := world.cache.waiting }
      requests := world.requests.set index { request with saves := request.saves + 1 } } := by
  have here := (live_eq living).1
  have pending := pendingAt_live living unsaved
  apply counted.shrink _ _ (attempts_set { request with saves := request.saves + 1 } here rfl)
  · intro other member
    rcases List.mem_or_eq_of_mem_set member with old | rfl
    · exact counted.known other old
    · exact counted.known request (List.mem_of_getElem? here)
  · intro query value found
    exact (pendingAt_saved living query value found).2
  · exact fun entry member => member
  · intro query key origin named found
    obtain ⟨other, before⟩ := pendingAt_saved living query _ found
    simp only [effect.active]
    rw [if_neg]
    rintro rfl
    generalize request.filename = filename at pending body
    cases body with
    | file key present =>
        rcases filed.apart query index _ _ _ (pendingAt_body before) (pendingAt_body pending) with
          empty | same
        · exact path_ne_nil named empty
        · exact other same
  · intro entry member
    simp only [effect.active]
    split
    · rfl
    · exact counted.inactive entry member

theorem Counted.save (counted : Counted config world) (filed : AllFiled keys config world)
    (distinct : Function.Injective keys) (living : world.live index = some request)
    (unsaved : request.saves = 0)
    (effect : FileRequestCache.Saved keys config world.cache cache stored request.delay source)
    (body : FileRequestCache.Body config request.filename stored) :
    Counted config { world with
      cache
      owner := world.own keys cache request.origin
      requests := world.requests.set index { request with saves := request.saves + 1 } } := by
  have pending := pendingAt_live living unsaved
  have older : ∀ entry ∈ world.cache.waiting,
      world.own keys cache request.origin entry.2.key = world.owner entry.2.key := by
    intro entry member
    obtain ⟨origin, ⟨number, generated, same⟩, _⟩ := filed.waiting entry member
    rw [← same, own_eq distinct cache request.origin effect.drawn, if_neg (by omega)]
  have settled := (counted.settle filed living unsaved effect body).reown
    (world.own keys cache request.origin) older
  rcases effect.outcome with ⟨waiting, _⟩ | ⟨number, first, last, waiting, _⟩
  · rw [← waiting] at settled
    exact settled
  · have waits := settled.wait (world.cache.now + request.delay)
      ⟨keys number, world.cache.nextRetry stored⟩ request.origin
    simp only [← waiting] at waits
    apply waits
    · rw [own_eq distinct cache request.origin effect.drawn, if_pos ⟨first, last⟩]
    · rw [attempts_set { request with saves := request.saves + 1 } (live_eq living).1 rfl]
      exact counted.nextRetry pending body
    · intro query filename found
      obtain ⟨other, before⟩ := pendingAt_saved living query _ found
      exact other (counted.single query index _ _ _ before pending)
    · intro entry member belongs
      rw [older entry member] at belongs
      exact counted.either entry member _ belongs index _ pending
    · simp only [effect.active]
      split
      · rfl
      · exact filed.tidy.idle number first

end Save

theorem Counted.alter (counted : Counted config world) {index : Nat} {request : CachedRequest}
    (living : world.live index = some request) (next : CachedRequest) (cache : FileRequestCache)
    (filename : next.filename = request.filename) (origin : next.origin = request.origin)
    (saves : next.saves = request.saves) (waiting : cache.waiting = world.cache.waiting)
    (active : cache.active = world.cache.active) :
    Counted config { world with cache, requests := world.requests.set index next } := by
  obtain ⟨here, unreleased⟩ := live_eq living
  apply counted.shrink _ _ (attempts_set next here origin)
  · intro other member
    rcases List.mem_or_eq_of_mem_set member with old | rfl
    · exact counted.known other old
    · rw [origin]
      exact counted.known request (List.mem_of_getElem? here)
  · intro query value found
    rw [pendingAt, selected_set _ _ here] at found
    split at found
    · next same =>
        subst same
        split at found
        · next kept =>
            simp only [Bool.and_eq_true, beq_iff_eq] at kept
            rw [← Option.some.inj found, filename, origin]
            exact pendingAt_live living (saves.symm.trans kept.2)
        · cases found
    · exact found
  · intro entry member
    rw [← waiting]
    exact member
  · intro query key source named found
    rw [active]
  · intro entry member
    rw [active]
    exact counted.inactive entry (waiting ▸ member)

theorem Counted.drop (counted : Counted config world) (filed : AllFiled keys config world)
    {entry : Int × DelayTask} {rest : List (Int × DelayTask)} (cache : FileRequestCache)
    (first : world.cache.waiting = entry :: rest) (waiting : cache.waiting = rest)
    (active : ∀ query, query ≠ entry.2.key →
      cache.active.find? query = world.cache.active.find? query) :
    Counted config { world with cache } := by
  have taken : entry ∈ world.cache.waiting := by simp [first]
  have others : ∀ other ∈ cache.waiting, other ∈ world.cache.waiting := by
    intro other member
    rw [first]
    exact List.mem_cons_of_mem entry (waiting ▸ member)
  apply counted.shrink cache world.requests rfl counted.known (fun _ _ found => found) others
  · intro index key origin named found
    apply active
    rintro rfl
    exact filed.aside entry taken index origin (pendingAt_body found)
  · intro other member
    rw [active, counted.inactive other (others other member)]
    intro same
    have once := filed.once
    rw [first, List.map_cons, List.nodup_cons] at once
    exact once.1 (same ▸ List.mem_map_of_mem (waiting ▸ member))

def Action.SavesOnce (world : CacheWorld) : Action → Prop
  | .save index _ _ => ∀ request, world.live index = some request → request.saves = 0
  | _ => True

theorem Counted.effect (counted : Counted config world) (filed : AllFiled keys config world)
    (bounded : Bounded config world.cache) (distinct : Function.Injective keys)
    (named : ∀ number, keys number ≠ []) (once : action.SavesOnce world)
    (effect : Effect keys config world action next) : Counted config next := by
  have unused : ∀ number < world.cache.drawn, keys world.cache.drawn ≠ keys number := by
    intro number generated same
    have equal := distinct same
    omega
  cases effect with
  | same => exact counted
  | arrived image =>
      apply counted.arrive filed _ _ [] image rfl (fun _ _ => rfl) (fun _ _ => rfl)
      intro key present same
      exact absurd same.symm (path_ne_nil present)
  | unopened image opens =>
      exact counted.shrink _ _ rfl counted.known (fun _ _ found => found) (fun _ member => member)
        (fun _ _ _ _ _ => rfl) counted.inactive
  | created image opens cache waiting active =>
      apply counted.arrive filed cache _ _ image waiting
      · intro number generated
        rw [Function.update_of_ne (unused number generated).symm]
      · intro number generated
        simp only [active, find?_insert, if_neg (unused number generated)]
      · intro key present same
        rw [← (FileRequestCache.path_inj config).mp same]
        simp [active, filed.tidy.idle world.cache.drawn (le_refl _)]
  | changed action index request other living filename origin released saves =>
      exact counted.alter living other world.cache filename origin saves rfl rfl
  | saved index serializes calls request cache stored source living saved body =>
      exact counted.save filed distinct living (once request living) saved body
  | unread opens parses entry rest first =>
      exact counted.drop filed _ first rfl (fun _ _ => rfl)
  | resumed opens entry rest origin first owned =>
      exact counted.resume filed named bounded first owned
  | spoiled opens entry rest first due =>
      apply counted.drop filed _ first rfl
      intro query other
      simp [FileRequestCache.dropBuffer, other.symm]
  | released index request living =>
      unfold CacheWorld.release
      apply counted.alter living { request with released := true } _ rfl rfl rfl
      · split <;> rfl
      · split <;> rfl
  | elapsed time =>
      exact counted.shrink _ _ rfl counted.known (fun _ _ found => found) (fun _ member => member)
        (fun _ _ _ _ _ => rfl) counted.inactive

def Grown (requests later : List CachedRequest) : Prop :=
  ∀ (index : Nat) (request : CachedRequest), requests[index]? = some request →
    ∃ next : CachedRequest, later[index]? = some next ∧ request.saves ≤ next.saves

theorem Grown.refl (requests : List CachedRequest) : Grown requests requests :=
  fun _ request found => ⟨request, found, le_refl _⟩

theorem Grown.trans {first second third : List CachedRequest} (left : Grown first second)
    (right : Grown second third) : Grown first third := by
  intro index request found
  obtain ⟨middle, there, more⟩ := left index request found
  obtain ⟨last, further, evenMore⟩ := right index middle there
  exact ⟨last, further, more.trans evenMore⟩

theorem grown_append (requests added : List CachedRequest) : Grown requests (requests ++ added) := by
  intro index request found
  refine ⟨request, ?_, le_refl _⟩
  rw [List.getElem?_append_left (List.getElem?_eq_some_iff.mp found).1]
  exact found

theorem grown_set {requests : List CachedRequest} {index : Nat} {request : CachedRequest}
    (next : CachedRequest) (here : requests[index]? = some request)
    (more : request.saves ≤ next.saves) : Grown requests (requests.set index next) := by
  intro query other found
  by_cases same : query = index
  · subst same
    refine ⟨next, List.getElem?_set_self (List.getElem?_eq_some_iff.mp here).1, ?_⟩
    rw [← Option.some.inj (here.symm.trans found)]
    exact more
  · exact ⟨other, (List.getElem?_set_ne (Ne.symm same)).trans found, le_refl _⟩

theorem Effect.grown (effect : Effect keys config world action next) :
    Grown world.requests next.requests := by
  cases effect with
  | same => exact .refl _
  | arrived image => exact grown_append _ _
  | unopened image opens => exact .refl _
  | created image opens cache waiting active => exact grown_append _ _
  | changed action index request other living filename origin released saves =>
      exact grown_set other (live_eq living).1 saves.ge
  | saved index serializes calls request cache stored source living saved body =>
      exact grown_set _ (live_eq living).1 (Nat.le_succ _)
  | unread opens parses entry rest first => exact .refl _
  | resumed opens entry rest origin first owned => exact grown_append _ _
  | spoiled opens entry rest first due => exact .refl _
  | released index request living =>
      exact grown_set { request with released := true } (live_eq living).1 (le_refl _)
  | elapsed time => exact .refl _

section Run

variable (distinct : Function.Injective keys) (named : ∀ number, keys number ≠ [])

include distinct named

theorem Grown.run (filed : AllFiled keys config world) (actions : List Action) :
    Grown world.requests (world.run keys config actions).requests := by
  apply filed.along distinct named (fun later => Grown world.requests later.requests)
    (fun _ _ => True) _ (Grown.refl world.requests) actions
  · exact fun _ _ _ _ => trivial
  · intro middle action next _ before _ effect
    exact before.trans effect.grown

theorem Bounded.run (bounded : Bounded config world.cache) (filed : AllFiled keys config world)
    (actions : List Action) : Bounded config (world.run keys config actions).cache := by
  apply filed.along distinct named (fun later => Bounded config later.cache) (fun _ _ => True) _
    bounded actions
  · exact fun _ _ _ _ => trivial
  · intro middle action next _ before _ effect
    exact before.effect effect

theorem savesOnce_of_run (filed : AllFiled keys config world) (action : Action) (rest : List Action)
    (once : ∀ request ∈ (world.run keys config (action :: rest)).requests, request.saves ≤ 1) :
    action.SavesOnce world := by
  cases action with
  | save index serializes calls =>
      intro request living
      have here := (live_eq living).1
      have saved : (world.step keys config (.save index serializes calls)).requests[index]? =
          some { request with saves := request.saves + 1 } := by
        simp only [CacheWorld.step, living, saveToCache]
        exact List.getElem?_set_self (List.getElem?_eq_some_iff.mp here).1
      have later := Grown.run distinct named (filed.step distinct named (.save index serializes calls)) rest
      obtain ⟨last, there, more⟩ := later index _ saved
      have few := once last (List.mem_of_getElem? there)
      simp only at more
      omega
  | _ => exact trivial

theorem Counted.run (counted : Counted config world) (bounded : Bounded config world.cache)
    (filed : AllFiled keys config world) (actions : List Action)
    (once : ∀ request ∈ (world.run keys config actions).requests, request.saves ≤ 1) :
    Counted config (world.run keys config actions) := by
  suffices both : Counted config (world.run keys config actions) ∧
      Bounded config (world.run keys config actions).cache from both.1
  apply filed.along distinct named (fun later => Counted config later ∧ Bounded config later.cache)
    (fun later action => action.SavesOnce later) _ ⟨counted, bounded⟩ actions
  · intro before action after split
    apply savesOnce_of_run distinct named (filed.run distinct named before) action after
    rw [← run_append, ← split]
    exact once
  · intro middle action next known before first effect
    exact ⟨before.1.effect known before.2 distinct named first effect, before.2.effect effect⟩

end Run

theorem bounded_start : Bounded config start.cache := by
  constructor
  · intro entry member
    simp [start, FileRequestCache.blank] at member
  · intro key retries found
    cases found

theorem counted_start : Counted config start := by
  have unawaited : ∀ entry : Int × DelayTask, entry ∉ start.cache.waiting := by
    intro entry member
    simp [start, FileRequestCache.blank] at member
  have unmade : ∀ (index : Nat) (value : Bytes × Nat), pendingAt start.requests index ≠ some value := by
    intro index value found
    simp [start, pendingAt, selected] at found
  refine ⟨?_, ?_, ?_, ?_, ?_, ?_, ?_, ?_, ?_⟩
  · intro request member
    simp [start] at member
  · exact fun entry member => absurd member (unawaited entry)
  · exact fun index origin found => absurd found (unmade index _)
  · exact fun index key origin _ found => absurd found (unmade index _)
  · exact fun left right first second origin found => absurd found (unmade left _)
  · exact fun entry member => absurd member (unawaited entry)
  · exact fun entry member => absurd member (unawaited entry)
  · exact fun entry member => absurd member (unawaited entry)
  · intro origin
    simp [start, attempts]

end Generator

/-- How many objects that were made for an original request were executed. An object is
queued once, and what it is forwarded to belongs to the same execution. -/
def executions (requests : List CachedRequest) (origin : Nat) : Nat :=
  requests.countP (fun request => request.executed && request.origin == origin)

theorem executions_le (requests : List CachedRequest) (origin : Nat) :
    executions requests origin ≤ attempts requests origin := by
  rw [executions, attempts, List.count, List.countP_map]
  apply List.countP_mono_left
  intro request _ executed
  simp only [Bool.and_eq_true] at executed
  exact executed.2

/-- What waits is on the disk as it was written at first, no counter exceeds the limit, and
requests that are saved at most once are not executed too often. -/
theorem delayed_requests_are_kept (digests : Nat → Fin 16 → UInt8) (config : CacheConfig)
    (actions : List Action)
    (distinct : DistinctKeys digests
      (start.run (generatedKeys digests) config actions).cache.drawn) :
    let world := start.run (generatedKeys digests) config actions
    (∀ entry ∈ world.cache.waiting, ∃ origin image,
      world.owner entry.2.key = some origin ∧ world.images[origin]? = some image ∧
        world.cache.disk.content (path config entry.2.key) = some image) ∧
    (∀ entry ∈ world.cache.waiting, entry.2.retries ≤ config.maxRetries) ∧
    (∀ key retries, world.cache.active.find? key = some retries → retries ≤ config.maxRetries) ∧
    ((∀ request ∈ world.requests, request.saves ≤ 1) →
      ∀ origin, executions world.requests origin ≤ 1 + config.maxRetries) := by
  intro world
  obtain ⟨keys, injective, named, agree⟩ := start.run_extended digests config actions distinct
  have same := agree actions List.prefix_rfl
  have filed : AllFiled keys config world := by
    simp only [world, same]
    exact AllFiled.run injective named allFiled_start actions
  have bounded : Bounded config world.cache := by
    simp only [world, same]
    exact Bounded.run injective named bounded_start allFiled_start actions
  refine ⟨?_, bounded.waiting, bounded.active, ?_⟩
  · intro entry member
    obtain ⟨origin, _, owned, image, listed, content⟩ := filed.waiting entry member
    exact ⟨origin, image, owned, listed, content⟩
  · intro once origin
    have counted : Counted config world := by
      simp only [world, same] at once ⊢
      exact Counted.run injective named counted_start bounded_start allFiled_start actions once
    calc executions world.requests origin
        ≤ attempts world.requests origin := executions_le _ _
      _ ≤ config.maxRetries + 1 := counted.bound origin
      _ = 1 + config.maxRetries := Nat.add_comm _ _

def countingDigests (number : Nat) (place : Fin 16) : UInt8 :=
  if place = 0 then UInt8.ofNat number else 0

def putOffTwice : List Action :=
  [.create [1, 2, 3] true, .execute 0, .tryAgain 0 5, .save 0 (.ok ()) ⟨true, true⟩, .release 0,
    .elapse 5, .handle true true, .execute 1, .tryAgain 1 5, .save 1 (.ok ()) ⟨true, true⟩, .release 1]

theorem delayed_requests_are_kept_twice :
    let world := start.run (generatedKeys countingDigests) ⟨[47], 2⟩ putOffTwice
    DistinctKeys countingDigests world.cache.drawn ∧ world.cache.waiting.length = 1 ∧
      (∀ entry ∈ world.cache.waiting, entry.2.retries ≤ 2) ∧
      executions world.requests 0 ≤ 1 + 2 := by
  have distinct : DistinctKeys countingDigests
      (start.run (generatedKeys countingDigests) ⟨[47], 2⟩ putOffTwice).cache.drawn := by
    decide +kernel
  have kept := delayed_requests_are_kept countingDigests ⟨[47], 2⟩ putOffTwice distinct
  exact ⟨distinct, by decide +kernel, kept.2.1, kept.2.2.2 (by decide +kernel) 0⟩

end CacheWorld

end FastcgiContainer
