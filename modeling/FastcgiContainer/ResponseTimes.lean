import FastcgiContainer.Ctype

/-! The response times that the container counts: for each handler and each status the number of
requests, and the least, the greatest and the average of their times. -/

namespace FastcgiContainer

open Word (Bytes base)

/-- The members are unsigned 64-bit words, times are in microseconds. -/
structure CounterData where
  min : Nat
  max : Nat
  total : Nat
  hits : Nat
  deriving DecidableEq, Repr

namespace CounterData

def create : CounterData := ⟨base - 1, 0, 0, 0⟩

def add (counter : CounterData) (time : Nat) : CounterData :=
  ⟨Nat.min counter.min time, Nat.max counter.max time, Word.add counter.total time, Word.add counter.hits 1⟩

def avg (counter : CounterData) : Nat := if counter.hits = 0 then 0 else counter.total / counter.hits

def ofTimes (times : List Nat) : CounterData := times.foldl add create

theorem ofTimes_append (times : List Nat) (time : Nat) : ofTimes (times ++ [time]) = (ofTimes times).add time :=
  List.foldl_append

theorem hits_ofTimes (times : List Nat) : (ofTimes times).hits = times.length % base := by
  induction times using List.reverseRecOn with
  | nil => rfl
  | append_singleton times time ih =>
      rw [ofTimes_append, List.length_append, List.length_singleton]
      simp only [add, ih, Word.add, Nat.mod_add_mod]

theorem total_ofTimes (times : List Nat) : (ofTimes times).total = times.sum % base := by
  induction times using List.reverseRecOn with
  | nil => rfl
  | append_singleton times time ih =>
      rw [ofTimes_append, add, ih, Word.add, Nat.mod_add_mod, List.sum_append, List.sum_singleton]

theorem min_le (times : List Nat) : ∀ time ∈ times, (ofTimes times).min ≤ time := by
  induction times using List.reverseRecOn with
  | nil => simp
  | append_singleton times last ih =>
      intro time member
      rw [ofTimes_append]
      rcases List.mem_append.mp member with before | now
      · exact (Nat.min_le_left _ _).trans (ih time before)
      · rw [List.mem_singleton.mp now]
        exact Nat.min_le_right _ _

theorem le_max (times : List Nat) : ∀ time ∈ times, time ≤ (ofTimes times).max := by
  induction times using List.reverseRecOn with
  | nil => simp
  | append_singleton times last ih =>
      intro time member
      rw [ofTimes_append]
      rcases List.mem_append.mp member with before | now
      · exact (ih time before).trans (Nat.le_max_left _ _)
      · rw [List.mem_singleton.mp now]
        exact Nat.le_max_right _ _

theorem min_mem (times : List Nat) (words : ∀ time ∈ times, time < base) (filled : times ≠ []) :
    (ofTimes times).min ∈ times := by
  induction times using List.reverseRecOn with
  | nil => exact absurd rfl filled
  | append_singleton times last ih =>
      have small : last < base := words last (by simp)
      rw [ofTimes_append, List.mem_append, List.mem_singleton]
      rcases Nat.le_total (ofTimes times).min last with kept | smaller
      · by_cases first : times = []
        · subst first
          right
          simp only [ofTimes, List.foldl_nil, create, add] at kept ⊢
          exact Nat.min_eq_right (by omega)
        · left
          simp only [add, Nat.min_eq_left kept]
          exact ih (fun time member => words time (by simp [member])) first
      · right
        exact Nat.min_eq_right smaller

theorem max_mem (times : List Nat) (filled : times ≠ []) : (ofTimes times).max ∈ times := by
  induction times using List.reverseRecOn with
  | nil => exact absurd rfl filled
  | append_singleton times last ih =>
      rw [ofTimes_append, List.mem_append, List.mem_singleton]
      rcases Nat.le_total (ofTimes times).max last with larger | kept
      · right
        exact Nat.max_eq_right larger
      · by_cases first : times = []
        · subst first
          right
          exact Nat.max_eq_right (Nat.zero_le last)
        · left
          simp only [add, Nat.max_eq_left kept]
          exact ih first

theorem avg_between (times : List Nat) (filled : times ≠ []) (sum : times.sum < base) (count : times.length < base) :
    (ofTimes times).min ≤ (ofTimes times).avg ∧ (ofTimes times).avg ≤ (ofTimes times).max := by
  have positive := List.length_pos_of_ne_nil filled
  have least := List.card_nsmul_le_sum times (ofTimes times).min (min_le times)
  have most := List.sum_le_card_nsmul times (ofTimes times).max (le_max times)
  rw [smul_eq_mul] at least most
  rw [avg, hits_ofTimes, total_ofTimes, Nat.mod_eq_of_lt sum, Nat.mod_eq_of_lt count, if_neg (by omega)]
  constructor
  · rw [Nat.le_div_iff_mul_le positive, Nat.mul_comm]
    exact least
  · exact Nat.div_le_of_le_mul most

theorem ofTimes_perm {first second : List Nat} (same : first.Perm second) : ofTimes first = ofTimes second := by
  refine same.foldl_eq' ?_ create
  intro time _ other _ counter
  simp only [add, Word.add, Nat.mod_add_mod, mk.injEq]
  refine ⟨?_, ?_, ?_, trivial⟩
  · exact Nat.min_right_comm _ _ _
  · exact Nat.max_right_comm _ _ _
  · rw [Nat.add_right_comm]

end CounterData

def statusLess (left right : Nat) : Bool := decide (left < right)

instance : KeyOrder statusLess where
  irrefl := by simp [statusLess]
  trans := by
    intro first second third before after
    simp only [statusLess, decide_eq_true_eq] at before after ⊢
    exact lt_trans before after

theorem statusLess_exact (left right : Nat) (same : OrderedMap.equivalent statusLess left right = true) :
    left = right := by
  simp only [OrderedMap.equivalent, statusLess, Bool.and_eq_true, Bool.not_eq_true', decide_eq_false_iff_not] at same
  omega

structure ResponseTimeHandler where
  data : OrderedMap Bytes (OrderedMap Nat CounterData statusLess) stringLess

namespace ResponseTimeHandler

def create : ResponseTimeHandler := ⟨.empty⟩

/-- The statistics are locked while a time is added. -/
def add (statistics : ResponseTimeHandler) (handler : Bytes) (status time : Nat) : ResponseTimeHandler :=
  let handle := (statistics.data.find? handler).getD .empty
  let handle := match handle.find? status with
    | none => handle.insert status (CounterData.create.add time)
    | some counter => handle.assign status (counter.add time)
  ⟨statistics.data.assign handler handle⟩

def counter (statistics : ResponseTimeHandler) (handler : Bytes) (status : Nat) : Option CounterData :=
  (statistics.data.find? handler).bind (fun handle => handle.find? status)

theorem counter_add (statistics : ResponseTimeHandler) (handler query : Bytes) (status code time : Nat) :
    (statistics.add handler status time).counter query code =
      if handler = query ∧ status = code then
        some (((statistics.counter handler status).getD CounterData.create).add time)
      else statistics.counter query code := by
  have known : statistics.counter handler = fun code =>
      ((statistics.data.find? handler).getD .empty).find? code := by
    funext code
    unfold counter
    cases statistics.data.find? handler <;> rfl
  simp only [add]
  generalize (statistics.data.find? handler).getD .empty = handle at known
  rw [counter, find?_assign]
  by_cases same : handler = query
  · subst same
    simp only [known, if_true, true_and, Option.bind_some]
    split
    · next absent =>
        rw [OrderedMap.find?_insert statusLess_exact, absent]
        by_cases here : status = code
        · subst here
          simp [absent]
        · simp [here]
    · next counter present =>
        rw [OrderedMap.find?_assign statusLess_exact, present]
        by_cases here : status = code <;> simp [here]
  · simp [same, counter]

end ResponseTimeHandler

structure Timeval where
  sec : Int
  usec : Int
  deriving DecidableEq, Repr

/-- What a `FastcgiRequest` has when it is destroyed: the id of the handler that was found for
its request, the status of the response, and its times. -/
structure FastcgiRequest where
  handler : Option Bytes
  status : Nat
  acceptTime : Timeval
  finishTime : Timeval

namespace FastcgiRequest

def daemonString : Bytes := ascii "fastcgi3-daemon"

/-- A clock that was set back makes this a large number. -/
def microsec (request : FastcgiRequest) : Nat :=
  (((request.finishTime.sec - request.acceptTime.sec) * 1000000 +
    (request.finishTime.usec - request.acceptTime.usec)) % (base : Int)).toNat

def name (request : FastcgiRequest) : Bytes := request.handler.getD daemonString

def destroy (statistics : ResponseTimeHandler) (request : FastcgiRequest) : ResponseTimeHandler :=
  statistics.add request.name request.status request.microsec

theorem microsec_lt (request : FastcgiRequest) : request.microsec < base := by
  have positive : (0 : Int) < base := by decide
  have below := Int.emod_lt_of_pos ((request.finishTime.sec - request.acceptTime.sec) * 1000000 +
    (request.finishTime.usec - request.acceptTime.usec)) positive
  unfold microsec
  omega

def timesOf (requests : List FastcgiRequest) (handler : Bytes) (status : Nat) : List Nat :=
  (requests.filter (fun request => request.name = handler ∧ request.status = status)).map microsec

theorem counter_destroy (requests : List FastcgiRequest) (handler : Bytes) (status : Nat) :
    (requests.foldl destroy .create).counter handler status =
      if timesOf requests handler status = [] then none
      else some (CounterData.ofTimes (timesOf requests handler status)) := by
  induction requests using List.reverseRecOn with
  | nil => rfl
  | append_singleton requests last ih =>
      rw [List.foldl_append, List.foldl_cons, List.foldl_nil, destroy, ResponseTimeHandler.counter_add]
      by_cases here : last.name = handler ∧ last.status = status
      · have times : timesOf (requests ++ [last]) handler status =
            timesOf requests handler status ++ [last.microsec] := by
          simp [timesOf, here]
        have filled : timesOf requests handler status ++ [last.microsec] ≠ [] :=
          List.append_ne_nil_of_right_ne_nil _ (List.cons_ne_nil _ _)
        rw [if_pos here, here.1, here.2, ih, times, if_neg filled, CounterData.ofTimes_append]
        split
        · next first =>
            rw [first]
            rfl
        · rfl
      · have times : timesOf (requests ++ [last]) handler status = timesOf requests handler status := by
          simp [timesOf, here]
        rw [if_neg here, ih, times]

/-- Whatever the order in which requests are destroyed, the counter of a handler and a status
belongs to their requests and no others: it has their number and the sum of their times, up to
the width of a word, their extremes, and an average between these if nothing has overflown. -/
theorem response_times_are_exact (requests : List FastcgiRequest) (handler : Bytes) (status : Nat) :
    (timesOf requests handler status = [] → (requests.foldl destroy .create).counter handler status = none) ∧
    (timesOf requests handler status ≠ [] →
      ∃ counter, (requests.foldl destroy .create).counter handler status = some counter ∧
        counter.hits = (timesOf requests handler status).length % base ∧
        counter.total = (timesOf requests handler status).sum % base ∧
        counter.min ∈ timesOf requests handler status ∧ counter.max ∈ timesOf requests handler status ∧
        (∀ time ∈ timesOf requests handler status, counter.min ≤ time ∧ time ≤ counter.max) ∧
        ((timesOf requests handler status).sum < base → (timesOf requests handler status).length < base →
          counter.min ≤ counter.avg ∧ counter.avg ≤ counter.max)) ∧
    ∀ order : List FastcgiRequest, order.Perm requests →
      (order.foldl destroy .create).counter handler status =
        (requests.foldl destroy .create).counter handler status := by
  refine ⟨?_, ?_, ?_⟩
  · intro unknown
    rw [counter_destroy, if_pos unknown]
  · intro known
    have words : ∀ time ∈ timesOf requests handler status, time < base := by
      intro time member
      obtain ⟨request, -, rfl⟩ := List.mem_map.mp member
      exact request.microsec_lt
    refine ⟨_, by rw [counter_destroy, if_neg known], CounterData.hits_ofTimes _, CounterData.total_ofTimes _,
      CounterData.min_mem _ words known, CounterData.max_mem _ known, ?_, CounterData.avg_between _ known⟩
    exact fun time member => ⟨CounterData.min_le _ time member, CounterData.le_max _ time member⟩
  · intro order same
    have times : (timesOf order handler status).Perm (timesOf requests handler status) := (same.filter _).map _
    have empty : timesOf order handler status = [] ↔ timesOf requests handler status = [] := by
      rw [← List.length_eq_zero_iff, times.length_eq, List.length_eq_zero_iff]
    rw [counter_destroy, counter_destroy, CounterData.ofTimes_perm times]
    exact if_congr empty rfl rfl

end FastcgiRequest

end FastcgiContainer
