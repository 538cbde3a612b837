import FastcgiContainer.Dispatching
import FastcgiContainer.Routing

/-! The container as it is started: every pool that a request can be sent to is there, is
running, and has nothing to do. -/

namespace FastcgiContainer

open Word (Bytes)

namespace HandlerSet

variable {η φ : Type}

theorem mem_poolNames (handlers : List (HandlerDescription η)) (pools : OrderedMap Bytes Unit stringLess) (name : Bytes) :
    ((handlers.foldl (fun (pools : OrderedMap Bytes Unit stringLess) i => pools.insert i.poolName ()) pools).find?
        name).isSome ↔ (pools.find? name).isSome ∨ ∃ i ∈ handlers, i.poolName = name := by
  induction handlers generalizing pools with
  | nil => simp
  | cons i rest ih =>
      rw [List.foldl_cons, ih, OrderedMap.find?_insert stringLess_exact]
      by_cases same : i.poolName = name
      · cases pools.find? name <;> simp [same]
      · simp [same]

theorem mem_getPoolsNeeded (set : HandlerSet η φ) (name : Bytes) :
    name ∈ set.getPoolsNeeded ↔ name = set.defaultPoolName ∨ ∃ i ∈ set.handlers, i.poolName = name := by
  let handlersPools := set.handlers.foldl (fun (pools : OrderedMap Bytes Unit stringLess) i =>
    pools.insert i.poolName ()) .empty
  have listed : name ∈ set.getPoolsNeeded ↔ ((handlersPools.insert set.defaultPoolName ()).find? name).isSome := by
    rw [Option.isSome_iff_exists]
    simp only [OrderedMap.find?_eq_some stringLess_exact, getPoolsNeeded, List.mem_map, handlersPools]
    constructor
    · rintro ⟨⟨key, value⟩, member, rfl⟩
      exact ⟨value, member⟩
    · rintro ⟨value, member⟩
      exact ⟨(name, value), member, rfl⟩
  have handlersListed := mem_poolNames set.handlers .empty name
  have nothing : (OrderedMap.empty : OrderedMap Bytes Unit stringLess).find? name = none := rfl
  rw [nothing] at handlersListed
  rw [listed, OrderedMap.find?_insert stringLess_exact]
  by_cases same : set.defaultPoolName = name
  · cases handlersPools.find? name <;> simp [same]
  · rw [if_neg same, handlersListed]
    simp [Ne.symm same]

theorem findURIHandler_mem (set : HandlerSet η φ) (request : Request) (chosen : HandlerDescription η)
    (found : set.findURIHandler request = .ok (some chosen)) : chosen ∈ set.handlers := by
  obtain ⟨front, back, split, -, -⟩ :=
    (Selection.first_some_iff set.handlers chosen).mp ((findMatching_iff request set.handlers _).mp found)
  rw [split]
  exact List.mem_append_right front List.mem_cons_self

theorem Routed.needed {handlers : HandlerSet η φ} {request : Request} {poolName : Bytes} {task : QueuedTask η φ}
    (routed : handlers.Routed request poolName task) : poolName ∈ handlers.getPoolsNeeded := by
  rw [mem_getPoolsNeeded]
  obtain ⟨handler, found, chosen | bare⟩ := routed.handler
  · obtain ⟨chosen, rfl, -, rfl, -⟩ := chosen
    exact Or.inr ⟨chosen, handlers.findURIHandler_mem request chosen found, rfl⟩
  · exact Or.inl bare.2.2.1

end HandlerSet

namespace Globals

variable {T : Type}

/-- The pools so far were made for entries with their names, and are needed. -/
def MadeFrom (poolsNeeded : List Bytes) (pools : ThreadPoolMap T) : Prop :=
  ∀ name value, pools.find? name = some value →
    name ∈ poolsNeeded ∧ ∃ entry : PoolEntry, entry.name = name ∧ value = createPool entry

theorem addPool_madeFrom (poolsNeeded : List Bytes) (state next : Nat × ThreadPoolMap T) (entry : PoolEntry)
    (before : MadeFrom poolsNeeded state.2) (added : addPool poolsNeeded state entry = .ok next) :
    MadeFrom poolsNeeded next.2 := by
  unfold addPool at added
  split at added
  · cases added
  · dsimp only at added
    split at added
    · cases added
    · split at added
      · cases added
      · next fresh =>
          split at added
          · cases added
            exact before
          · next needed =>
              cases added
              intro name value found
              rw [OrderedMap.find?_insert stringLess_exact] at found
              split at found
              · next same =>
                  subst same
                  have absent : state.2.find? entry.name = none := by simpa using fresh
                  rw [absent] at found
                  cases found
                  exact ⟨by simpa using needed, entry, rfl, rfl⟩
              · exact before name value found

theorem addPools_madeFrom (poolsNeeded : List Bytes) (entries : List PoolEntry) (state next : Nat × ThreadPoolMap T)
    (before : MadeFrom poolsNeeded state.2) (added : entries.foldlM (addPool poolsNeeded) state = .ok next) :
    MadeFrom poolsNeeded next.2 := by
  induction entries generalizing state with
  | nil =>
      cases added
      exact before
  | cons entry rest ih =>
      rw [List.foldlM_cons] at added
      obtain ⟨middle, stepped, later⟩ := bind_eq_ok _ _ _ added
      exact ih middle (addPool_madeFrom poolsNeeded state middle entry before stepped) later

theorem initPools_found (poolsNeeded : List Bytes) (entries : List PoolEntry) (pools : ThreadPoolMap T)
    (accepted : initPools poolsNeeded entries = .ok pools) :
    MadeFrom poolsNeeded pools ∧ ∀ name ∈ poolsNeeded, (pools.find? name).isSome := by
  obtain ⟨⟨counter, made⟩, added, complete⟩ := bind_eq_ok _ _ _ accepted
  have madeFrom := addPools_madeFrom poolsNeeded entries (0, .empty) _ nofun added
  dsimp only at complete
  split at complete
  · cases complete
  · next missing =>
      cases complete
      refine ⟨madeFrom, fun name needed => ?_⟩
      have present := List.find?_eq_none.mp missing name needed
      cases found : pools.find? name with
      | none => simp [found] at present
      | some value => rfl

/-- The pools are those that are needed, and their threads wait for the first task. -/
structure Ready {η φ : Type} (handlers : HandlerSet η φ) (pools : ThreadPoolMap T) : Prop where
  found : ∀ name, (pools.find? name).isSome ↔ name ∈ handlers.getPoolsNeeded
  idle : ∀ name pool settings, pools.find? name = some (pool, settings) →
    pool.tasksQueue = [] ∧ pool.workers = List.replicate pool.info.threadsNumber (.ready .none) ∧
      pool.info.started = true

theorem create_ready {η φ : Type} (compile : Bytes → Except Exn Regex)
    (find : Bytes → Except Exn (Option (ComponentCasts η φ))) (config : HandlersConfig) (entries : List PoolEntry)
    (globals : HandlerSet η φ × ThreadPoolMap T) (created : create compile find config entries = .ok globals) :
    Ready globals.1 globals.2 := by
  obtain ⟨handlers, _, created⟩ := bind_eq_ok _ _ _ created
  obtain ⟨pools, accepted, created⟩ := bind_eq_ok _ _ _ created
  cases created
  obtain ⟨madeFrom, complete⟩ := initPools_found _ _ _ accepted
  refine ⟨?_, ?_⟩
  · intro name
    simp only [startThreadPools, OrderedMap.find?_mapValues, Option.isSome_map]
    constructor
    · intro found
      obtain ⟨value, found⟩ := Option.isSome_iff_exists.mp found
      exact (madeFrom name value found).1
    · exact complete name
  · intro name pool settings found
    simp only [startThreadPools, OrderedMap.find?_mapValues, Option.map_eq_some_iff] at found
    obtain ⟨value, found, started⟩ := found
    obtain ⟨-, entry, -, rfl⟩ := madeFrom name value found
    have fresh : (createPool (T := T) entry).1 = ThreadPool.create
        (toUnsigned entry.threadsNumber.toInt) (toUnsigned entry.queueLength.toInt) := by
      unfold createPool
      dsimp only
      split <;> rfl
    rw [fresh] at started
    cases started
    simp [ThreadPool.start, ThreadPool.create]

end Globals

end FastcgiContainer
