import FastcgiContainer.ThreadPool
import FastcgiContainer.RequestsThreadPool

/-! `Globals::initPools`: the pools that the configuration asks for, and the limit that it
puts on them. The attributes of a pool are `int`s; the pool itself takes them as
`unsigned`. -/

namespace FastcgiContainer

open Word (Bytes)

def toUnsigned (value : Int) : Nat := (value % 2 ^ 32).toNat

theorem toUnsigned_of_nonneg (value : Int) (positive : 0 ≤ value) (small : value < 2 ^ 31) :
    (toUnsigned value : Int) = value := by
  unfold toUnsigned
  omega

theorem toUnsigned_of_neg (value : Int) (negative : value < 0) (small : -2 ^ 31 ≤ value) :
    2 ^ 31 ≤ toUnsigned value := by
  unfold toUnsigned
  omega

/-- The attributes of an element of `/fastcgi/pools`. -/
structure PoolEntry where
  name : Bytes
  threadsNumber : Int32
  queueLength : Int32
  delay : Int32
  deriving DecidableEq

namespace PoolEntry

def tasks (entry : PoolEntry) : Int := entry.threadsNumber.toInt + entry.queueLength.toInt

def Signless (entry : PoolEntry) : Prop := 0 ≤ entry.threadsNumber.toInt ∧ 0 ≤ entry.queueLength.toInt

/-- What the pool of an entry may hold at a time. -/
def capacity (entry : PoolEntry) : Nat :=
  toUnsigned entry.threadsNumber.toInt + toUnsigned entry.queueLength.toInt

theorem capacity_signless (entry : PoolEntry) (signless : entry.Signless) :
    (entry.capacity : Int) = entry.tasks := by
  have threads := toUnsigned_of_nonneg _ signless.1 entry.threadsNumber.toInt_lt
  have queue := toUnsigned_of_nonneg _ signless.2 entry.queueLength.toInt_lt
  unfold capacity tasks
  omega

theorem capacity_signed (entry : PoolEntry) (signed : ¬ entry.Signless) : 2 ^ 31 ≤ entry.capacity := by
  unfold capacity
  by_cases negative : entry.threadsNumber.toInt < 0
  · have threads := toUnsigned_of_neg _ negative entry.threadsNumber.le_toInt
    omega
  · have other : entry.queueLength.toInt < 0 := by
      unfold Signless at signed
      omega
    have queue := toUnsigned_of_neg _ other entry.queueLength.le_toInt
    omega

end PoolEntry

namespace Globals

variable {T : Type}

abbrev ThreadPoolMap (T : Type) := OrderedMap Bytes (ThreadPool T × RequestsThreadPool) stringLess

def createPool (entry : PoolEntry) : ThreadPool T × RequestsThreadPool :=
  let pool := ThreadPool.create (toUnsigned entry.threadsNumber.toInt) (toUnsigned entry.queueLength.toInt)
  if entry.delay.toInt > 0 then (pool, ⟨entry.delay.toInt⟩) else (pool, ⟨0⟩)

/-- One turn of the loop, with the counter before it and after it. The attributes are
added as `int`s, and that sum is added to the counter as `unsigned`. -/
def addPool (poolsNeeded : List Bytes) (state : Nat × ThreadPoolMap T) (entry : PoolEntry) :
    Except Exn (Nat × ThreadPoolMap T) :=
  if entry.tasks < -2 ^ 31 ∨ 2 ^ 31 ≤ entry.tasks then .error (.undefined "signed integer overflow")
  else
    let maxTasksInProcessCounter := (state.1 + toUnsigned entry.tasks) % 2 ^ 32
    if maxTasksInProcessCounter > 65535 then
      .error (.runtimeError "The sum of all threads and queue attributes must be not more than 65535")
    else if (state.2.find? entry.name).isSome then
      .error (.runtimeError (quoted entry.name ++ ": pool names must be unique"))
    else if !poolsNeeded.contains entry.name then .ok (maxTasksInProcessCounter, state.2)
    else .ok (maxTasksInProcessCounter, state.2.insert entry.name (createPool entry))

def initPools (poolsNeeded : List Bytes) (entries : List PoolEntry) : Except Exn (ThreadPoolMap T) := do
  let (_, pools) ← entries.foldlM (addPool poolsNeeded) (0, .empty)
  match poolsNeeded.find? (fun name => (pools.find? name).isNone) with
  | some missing => .error (.runtimeError ("cannot find pool " ++ quoted missing))
  | none => .ok pools

def capacity (pools : ThreadPoolMap T) : Nat :=
  (pools.entries.map (fun entry => entry.2.1.info.threadsNumber + entry.2.1.info.queueLength)).sum

def tasks (entries : List PoolEntry) : Int := (entries.map PoolEntry.tasks).sum

def needed (poolsNeeded : List Bytes) (entries : List PoolEntry) : List PoolEntry :=
  entries.filter (fun entry => poolsNeeded.contains entry.name)

def leftOut (poolsNeeded : List Bytes) (entries : List PoolEntry) : List PoolEntry :=
  entries.filter (fun entry => !poolsNeeded.contains entry.name)

theorem tasks_cons (entry : PoolEntry) (rest : List PoolEntry) :
    tasks (entry :: rest) = entry.tasks + tasks rest := by
  simp [tasks]

theorem needed_cons (poolsNeeded : List Bytes) (entry : PoolEntry) (rest : List PoolEntry) :
    needed poolsNeeded (entry :: rest) =
      if poolsNeeded.contains entry.name then entry :: needed poolsNeeded rest else needed poolsNeeded rest :=
  List.filter_cons

theorem leftOut_cons (poolsNeeded : List Bytes) (entry : PoolEntry) (rest : List PoolEntry) :
    leftOut poolsNeeded (entry :: rest) =
      if !poolsNeeded.contains entry.name then entry :: leftOut poolsNeeded rest
      else leftOut poolsNeeded rest :=
  List.filter_cons

theorem capacity_insert (pools : ThreadPoolMap T) (entry : PoolEntry)
    (absent : pools.find? entry.name = none) :
    capacity (pools.insert entry.name (createPool entry)) = capacity pools + entry.capacity := by
  have created : (createPool (T := T) entry).1 = ThreadPool.create
      (toUnsigned entry.threadsNumber.toInt) (toUnsigned entry.queueLength.toInt) := by
    unfold createPool
    simp only
    split <;> rfl
  have joined := (OrderedMap.insert_perm pools entry.name (createPool entry) absent).map
    (fun entry => entry.2.1.info.threadsNumber + entry.2.1.info.queueLength)
  rw [capacity, joined.sum_eq, List.map_cons, List.sum_cons, created, ← capacity, Nat.add_comm]
  rfl

/-- A turn that goes on keeps the counter equal to the sum of the attributes so far, and
this sum within the limit. -/
theorem addPool_ok (poolsNeeded : List Bytes) (state next : Nat × ThreadPoolMap T) (entry : PoolEntry)
    (within : state.1 ≤ 65535) (added : addPool poolsNeeded state entry = .ok next) :
    next.1 ≤ 65535 ∧ (next.1 : Int) = state.1 + entry.tasks ∧
      capacity next.2 = capacity state.2 +
        if poolsNeeded.contains entry.name then entry.capacity else 0 := by
  unfold addPool at added
  split at added
  · cases added
  · next inRange =>
      simp only at added
      split at added
      · cases added
      · next fits =>
          have counted : (((state.1 + toUnsigned entry.tasks) % 2 ^ 32 : Nat) : Int) =
              state.1 + entry.tasks := by
            unfold toUnsigned at fits ⊢
            omega
          split at added
          · cases added
          · next fresh =>
              have absent : state.2.find? entry.name = none := by simpa using fresh
              split at added
              · next unneeded =>
                  cases added
                  refine ⟨Nat.le_of_not_lt fits, counted, ?_⟩
                  rw [if_neg (by simpa using unneeded), Nat.add_zero]
              · next asked =>
                  cases added
                  refine ⟨Nat.le_of_not_lt fits, counted, ?_⟩
                  rw [if_pos (by simpa using asked), capacity_insert state.2 entry absent]

theorem addPools_ok (poolsNeeded : List Bytes) (entries : List PoolEntry) (state next : Nat × ThreadPoolMap T)
    (within : state.1 ≤ 65535) (added : entries.foldlM (addPool poolsNeeded) state = .ok next) :
    next.1 ≤ 65535 ∧ (next.1 : Int) = state.1 + tasks entries ∧
      capacity next.2 = capacity state.2 + ((needed poolsNeeded entries).map PoolEntry.capacity).sum := by
  induction entries generalizing state with
  | nil =>
      cases added
      exact ⟨within, by simp [tasks], by simp [needed]⟩
  | cons entry rest ih =>
      rw [List.foldlM_cons] at added
      obtain ⟨middle, first, later⟩ := bind_eq_ok _ _ _ added
      obtain ⟨middleWithin, middleCounter, middleCapacity⟩ := addPool_ok poolsNeeded state middle entry within first
      obtain ⟨nextWithin, nextCounter, nextCapacity⟩ := ih middle middleWithin later
      have sum := tasks_cons entry rest
      refine ⟨nextWithin, by omega, ?_⟩
      rw [nextCapacity, middleCapacity, needed_cons]
      by_cases asked : poolsNeeded.contains entry.name = true
      · rw [if_pos asked, if_pos asked, List.map_cons, List.sum_cons, Nat.add_assoc]
      · rw [if_neg asked, if_neg asked, Nat.add_zero]

theorem initPools_ok (poolsNeeded : List Bytes) (entries : List PoolEntry) (pools : ThreadPoolMap T)
    (accepted : initPools poolsNeeded entries = .ok pools) :
    0 ≤ tasks entries ∧ tasks entries ≤ 65535 ∧
      capacity pools = ((needed poolsNeeded entries).map PoolEntry.capacity).sum := by
  obtain ⟨state, added, complete⟩ := bind_eq_ok _ _ _ accepted
  obtain ⟨within, counted, held⟩ := addPools_ok poolsNeeded entries (0, .empty) state (Nat.zero_le _) added
  have same : state.2 = pools := by
    simp only at complete
    split at complete
    · cases complete
    · exact Except.ok.inj complete
  have nothing : capacity (OrderedMap.empty : ThreadPoolMap T) = 0 := rfl
  rw [nothing, same, Nat.zero_add] at held
  simp only at counted
  exact ⟨by omega, by omega, held⟩

theorem tasks_split (poolsNeeded : List Bytes) (entries : List PoolEntry) :
    tasks entries = tasks (needed poolsNeeded entries) + tasks (leftOut poolsNeeded entries) := by
  induction entries with
  | nil => rfl
  | cons entry rest ih =>
      rw [needed_cons, leftOut_cons]
      cases asked : poolsNeeded.contains entry.name with
      | true =>
          simp only [if_true, Bool.not_true, Bool.false_eq_true, if_false, tasks_cons]
          omega
      | false =>
          simp only [if_true, Bool.not_false, Bool.false_eq_true, if_false, tasks_cons]
          omega

theorem capacities_signless (entries : List PoolEntry) (signless : ∀ entry ∈ entries, entry.Signless) :
    (((entries.map PoolEntry.capacity).sum : Nat) : Int) = tasks entries := by
  induction entries with
  | nil => rfl
  | cons entry rest ih =>
      have later := ih (fun other member => signless other (List.mem_cons_of_mem entry member))
      have first := entry.capacity_signless (signless entry List.mem_cons_self)
      rw [List.map_cons, List.sum_cons, Nat.cast_add, first, later, tasks_cons]

/-- An accepted configuration keeps its pools within the limit exactly if no pool that is
created has a negative attribute, and the pools that are left out take no more off the sum
than it leaves free. -/
theorem initPools_within_iff (poolsNeeded : List Bytes) (entries : List PoolEntry) (pools : ThreadPoolMap T)
    (accepted : initPools poolsNeeded entries = .ok pools) :
    capacity pools ≤ 65535 ↔
      (∀ entry ∈ entries, entry.name ∈ poolsNeeded → entry.Signless) ∧
        -(65535 - tasks entries) ≤ tasks (leftOut poolsNeeded entries) := by
  obtain ⟨_, _, held⟩ := initPools_ok poolsNeeded entries pools accepted
  have split := tasks_split poolsNeeded entries
  have members : ∀ entry, entry ∈ needed poolsNeeded entries ↔ entry ∈ entries ∧ entry.name ∈ poolsNeeded := by
    intro entry
    simp [needed]
  constructor
  · intro within
    have signless : ∀ entry ∈ needed poolsNeeded entries, entry.Signless := by
      intro entry member
      by_contra signed
      have large := entry.capacity_signed signed
      have part : entry.capacity ≤ ((needed poolsNeeded entries).map PoolEntry.capacity).sum :=
        List.single_le_sum (fun _ _ => Nat.zero_le _) _ (List.mem_map_of_mem member)
      omega
    have sum := capacities_signless _ signless
    refine ⟨fun entry member asked => signless entry ((members entry).mpr ⟨member, asked⟩), ?_⟩
    omega
  · rintro ⟨signless, room⟩
    have sum := capacities_signless (needed poolsNeeded entries)
      (fun entry member => signless entry ((members entry).mp member).1 ((members entry).mp member).2)
    omega

theorem initPools_within_example : ∃ pools : ThreadPoolMap Unit,
    initPools [ascii "work_pool"] [⟨ascii "work_pool", 4, 1000, 0⟩, ⟨ascii "spare", 1, 100, 50⟩] = .ok pools ∧
      capacity pools ≤ 65535 := by
  let pools : ThreadPoolMap Unit :=
    OrderedMap.empty.insert (ascii "work_pool") (createPool ⟨ascii "work_pool", 4, 1000, 0⟩)
  have accepted : initPools [ascii "work_pool"]
      [⟨ascii "work_pool", 4, 1000, 0⟩, ⟨ascii "spare", 1, 100, 50⟩] = .ok pools := rfl
  refine ⟨pools, accepted, (initPools_within_iff _ _ pools accepted).mpr ⟨?_, by decide⟩⟩
  intro entry member asked
  simp only [List.mem_cons, List.not_mem_nil, or_false] at member
  rcases member with rfl | rfl
  · exact ⟨by decide, by decide⟩
  · exact ⟨by decide, by decide⟩

/-- Minus one thread and a queue of one task are nothing to the check. -/
theorem initPools_beyond_limit : ∃ pools : ThreadPoolMap Unit,
    initPools [ascii "work_pool"] [⟨ascii "work_pool", -1, 1, 0⟩] = .ok pools ∧
      (pools.find? (ascii "work_pool")).map (fun pool => pool.1.info.threadsNumber) = some 4294967295 ∧
      ¬ capacity pools ≤ 65535 :=
  ⟨OrderedMap.empty.insert (ascii "work_pool") (createPool ⟨ascii "work_pool", -1, 1, 0⟩), rfl, by decide, by decide⟩

end Globals

end FastcgiContainer
