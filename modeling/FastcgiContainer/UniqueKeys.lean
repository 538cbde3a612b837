import FastcgiContainer.CacheKeys
import FastcgiContainer.UrlEncoding

/-! `FileRequestCache::generateUniqueKey`: the key is the digest of a counter, the time and
the thread. Each thread has a counter of its own, which starts again when the clock shows
another second than before; the clock may step backwards. -/

namespace FastcgiContainer

open Word (Bytes)

namespace Word

theorem toBytes_inj (width left right : Nat) (leftFits : left < 256 ^ width) (rightFits : right < 256 ^ width)
    (same : toBytes width left = toBytes width right) : left = right := by
  rw [← ofBytes_toBytes width left leftFits, same, ofBytes_toBytes width right rightFits]

end Word

namespace HashUtils

def hexByte (byte : UInt8) : Bytes := [alpha ((byte &&& 0xf0) >>> 4), alpha (byte &&& 0xf)]

theorem hexByte_read : ∀ byte : UInt8,
    StringUtils.hexValue (alpha ((byte &&& 0xf0) >>> 4)) * 16 + StringUtils.hexValue (alpha (byte &&& 0xf)) =
      byte :=
  StringUtils.forall_byte (by decide +kernel)

theorem flatMap_hexByte_inj (left right : List UInt8) (same : left.flatMap hexByte = right.flatMap hexByte) :
    left = right := by
  induction left generalizing right with
  | nil =>
      cases right with
      | nil => rfl
      | cons byte rest => simp [hexByte] at same
  | cons byte rest ih =>
      cases right with
      | nil => simp [hexByte] at same
      | cons other others =>
          simp only [List.flatMap_cons, hexByte, List.cons_append, List.nil_append, List.cons.injEq] at same
          rw [← hexByte_read byte, same.1, same.2.1, hexByte_read other, ih others same.2.2]

theorem hexMD5_injective : Function.Injective hexMD5 := by
  intro left right same
  exact List.ofFn_injective (flatMap_hexByte_inj _ _ same)

end HashUtils

/-- The counter is an `int` and counts up from zero. -/
structure KeyId where
  id : Nat
  last : Int64
  deriving DecidableEq, Repr

namespace KeyId

def create (now : Int64) : KeyId := ⟨0, now⟩

/-- What is hashed: the bytes of the three numbers. -/
def text (holder : KeyId) (thread : UInt64) : Bytes :=
  Word.toBytes 4 holder.id ++ 58 :: (Word.toBytes 8 holder.last.toUInt64.toNat ++
    58 :: Word.toBytes 8 thread.toNat)

def advance (holder : KeyId) (now : Int64) : KeyId :=
  if now = holder.last then { holder with id := holder.id + 1 } else ⟨0, now⟩

def get (holder : KeyId) (now : Int64) (thread : UInt64) : Except Exn (KeyId × Bytes) :=
  if (holder.advance now).id < 2 ^ 31 then .ok (holder.advance now, (holder.advance now).text thread)
  else .error (.undefined "signed integer overflow")

theorem text_inj (left right : KeyId) (thread other : UInt64) (leftFits : left.id < 2 ^ 31)
    (rightFits : right.id < 2 ^ 31) (same : left.text thread = right.text other) :
    left = right ∧ thread = other := by
  unfold text at same
  obtain ⟨ids, rest⟩ := List.append_inj same (by simp)
  obtain ⟨lasts, threads⟩ := List.append_inj (List.cons.inj rest).2 (by simp)
  have id := Word.toBytes_inj 4 _ _ (by omega) (by omega) ids
  have last := Word.toBytes_inj 8 _ _ (UInt64.toNat_lt _) (UInt64.toNat_lt _) lasts
  have number := Word.toBytes_inj 8 _ _ (UInt64.toNat_lt _) (UInt64.toNat_lt _) (List.cons.inj threads).2
  refine ⟨?_, UInt64.toNat_inj.mp number⟩
  cases left
  cases right
  simp only [KeyId.mk.injEq]
  exact ⟨id, congrArg Int64.ofUInt64 (UInt64.toNat_inj.mp last)⟩

end KeyId

/-- A call of `generateUniqueKey`; the first one of a thread reads the clock once more, in the
constructor. -/
structure KeyCall (T : Type) where
  thread : T
  constructed : Int64
  now : Int64
  deriving DecidableEq

namespace FileRequestCache

variable {T : Type} [DecidableEq T] (pthreadSelf : T → UInt64)

abbrev Holders (T : Type) := T → Option KeyId

def hashNext (holders : Holders T) (call : KeyCall T) : Except Exn (Holders T × Bytes) := do
  let holder := (holders call.thread).getD (KeyId.create call.constructed)
  let (next, text) ← holder.get call.now (pthreadSelf call.thread)
  .ok (Function.update holders call.thread (some next), text)

def hashAll (holders : Holders T) : List (KeyCall T) → Except Exn (Holders T × List Bytes)
  | [] => .ok (holders, [])
  | call :: rest => do
      let (next, text) ← hashNext pthreadSelf holders call
      let (last, texts) ← hashAll next rest
      .ok (last, text :: texts)

def hashed (calls : List (KeyCall T)) : Except Exn (List Bytes) :=
  (hashAll pthreadSelf (fun _ => none) calls).map Prod.snd

def callsOf (calls : List (KeyCall T)) (thread : T) : List (KeyCall T) :=
  calls.filter (fun call => call.thread = thread)

/-- What a thread reads from the clock, the reading of the constructor first. -/
def reading (calls : List (KeyCall T)) (thread : T) : Nat → Int64
  | 0 => (((callsOf calls thread)[0]?).map KeyCall.constructed).getD 0
  | number + 1 => (((callsOf calls thread)[number]?).map KeyCall.now).getD 0

end FileRequestCache

def counter (reading : Nat → Int64) : Nat → Nat
  | 0 => 0
  | number + 1 => if reading (number + 1) = reading number then counter reading number + 1 else 0

/-- When the clock of a thread comes back to a reading that it had left, this is the reading of
the constructor, it comes back for the first time, and either the first call did not read it
again, or the call after the return does not. -/
def ComesBackOnce (reading : Nat → Int64) (calls : Nat) : Prop :=
  ∀ first again, first < again → again ≤ calls → reading (again - 1) ≠ reading again →
    reading first = reading again →
    (∀ early ≤ first, reading early = reading 0) ∧
      ¬ (reading 1 = reading 0 ∧ again < calls ∧ reading (again + 1) = reading again)

set_option synthInstance.maxSize 500 in
instance (reading : Nat → Int64) (calls : Nat) : Decidable (ComesBackOnce reading calls) :=
  decidable_of_iff (∀ again < calls + 1, ∀ first < again, reading (again - 1) ≠ reading again →
    reading first = reading again → (∀ early < first + 1, reading early = reading 0) ∧
      ¬ (reading 1 = reading 0 ∧ again < calls ∧ reading (again + 1) = reading again))
    ⟨fun holds first again earlier inside left same =>
      ⟨fun early low => (holds again (Nat.lt_succ_of_le inside) first earlier left same).1 early
          (Nat.lt_succ_of_le low),
        (holds again (Nat.lt_succ_of_le inside) first earlier left same).2⟩,
      fun holds again inside first earlier left same =>
        ⟨fun early low => (holds first again earlier (Nat.le_of_lt_succ inside) left same).1 early
            (Nat.le_of_lt_succ low),
          (holds first again earlier (Nat.le_of_lt_succ inside) left same).2⟩⟩

section Counter

variable (reading : Nat → Int64)

theorem counter_start (number : Nat) :
    counter reading number ≤ number ∧
      (∀ between, number - counter reading number ≤ between → between ≤ number →
        reading between = reading number) ∧
      counter reading (number - counter reading number) = 0 ∧
      (0 < number - counter reading number →
        reading (number - counter reading number - 1) ≠ reading (number - counter reading number)) := by
  induction number with
  | zero =>
      refine ⟨le_refl _, ?_, rfl, fun positive => absurd positive (by simp)⟩
      intro between _ inside
      rw [Nat.le_zero.mp inside]
  | succ number ih =>
      obtain ⟨within, equal, start, fresh⟩ := ih
      by_cases same : reading (number + 1) = reading number
      · have count : counter reading (number + 1) = counter reading number + 1 := by
          rw [counter, if_pos same]
        have back : number + 1 - counter reading (number + 1) = number - counter reading number := by omega
        rw [back]
        refine ⟨by omega, ?_, start, fresh⟩
        intro between low high
        by_cases last : between = number + 1
        · rw [last]
        · rw [same]
          exact equal between low (by omega)
      · have count : counter reading (number + 1) = 0 := by rw [counter, if_neg same]
        rw [count, Nat.sub_zero]
        refine ⟨Nat.zero_le _, ?_, count, fun _ => ?_⟩
        · intro between low high
          rw [Nat.le_antisymm high low]
        · rw [Nat.add_sub_cancel]
          exact fun backwards => same backwards.symm

theorem counter_first (number : Nat) (left : reading (number + 1) ≠ reading number) :
    counter reading (number + 1) = 0 := by
  rw [counter, if_neg left]

theorem counter_constant (number : Nat) (constant : ∀ early ≤ number, reading early = reading 0) :
    counter reading number = number := by
  induction number with
  | zero => rfl
  | succ number ih =>
      have before := constant number (Nat.le_succ number)
      have here := constant (number + 1) (le_refl _)
      rw [counter, if_pos (here.trans before.symm),
        ih (fun early inside => constant early (Nat.le_succ_of_le inside))]

/-- No two calls of a thread have the same count and the same reading. -/
def Apart (calls : Nat) : Prop :=
  ∀ first again, 0 < first → first < again → again ≤ calls →
    ¬ (counter reading first = counter reading again ∧ reading first = reading again)

theorem comesBackOnce_of_apart (calls : Nat) (apart : Apart reading calls) : ComesBackOnce reading calls := by
  intro first again earlier inside left same
  obtain ⟨previous, rfl⟩ : ∃ previous, again = previous + 1 := ⟨again - 1, by omega⟩
  have zero := counter_first reading previous (by simpa using Ne.symm left)
  obtain ⟨within, equal, start, _⟩ := counter_start reading first
  have begun := equal (first - counter reading first) (le_refl _) (Nat.sub_le _ _)
  have origin : first - counter reading first = 0 := by
    by_contra later
    exact apart (first - counter reading first) (previous + 1) (by omega) (by omega) inside
      ⟨start.trans zero.symm, begun.trans same⟩
  have constant : ∀ early ≤ first, reading early = reading 0 := by
    intro early low
    rw [equal early (by omega) low, ← begun, origin]
  refine ⟨constant, ?_⟩
  rintro ⟨repeated, more, stays⟩
  have one : counter reading 1 = 1 := counter_constant reading 1 (by
    intro early low
    rcases Nat.le_one_iff_eq_zero_or_eq_one.mp low with rfl | rfl
    · rfl
    · exact repeated)
  have second : counter reading (previous + 1 + 1) = 1 := by
    rw [counter, if_pos stays, zero]
  apply apart 1 (previous + 1 + 1) (by omega) (by omega) (by omega)
  refine ⟨one.trans second.symm, ?_⟩
  rw [repeated, stays, ← same]
  exact (constant first (le_refl _)).symm

theorem apart_of_comesBackOnce (calls : Nat) (once : ComesBackOnce reading calls) : Apart reading calls := by
  intro first again positive earlier inside
  rintro ⟨counts, same⟩
  obtain ⟨firstWithin, firstEqual, _, firstFresh⟩ := counter_start reading first
  obtain ⟨againWithin, againEqual, _, againFresh⟩ := counter_start reading again
  have firstBegun := firstEqual (first - counter reading first) (le_refl _) (Nat.sub_le _ _)
  have againBegun := againEqual (again - counter reading again) (le_refl _) (Nat.sub_le _ _)
  -- the blocks of equal readings that the two calls lie in begin at different calls
  obtain ⟨constant, leaves⟩ := once (first - counter reading first) (again - counter reading again) (by omega)
    (by omega) (againFresh (by omega)) (by rw [firstBegun, againBegun, same])
  have origin : first - counter reading first = 0 := by
    by_contra later
    apply firstFresh (by omega)
    rw [constant _ (Nat.sub_le _ _), constant _ (le_refl _)]
  have next := firstEqual 1 (by omega) (by omega)
  have zero := firstEqual 0 (by omega) (by omega)
  have onward := againEqual (again - counter reading again + 1) (by omega) (by omega)
  exact leaves ⟨next.trans zero.symm, by omega, onward.trans againBegun.symm⟩

theorem apart_iff (calls : Nat) : Apart reading calls ↔ ComesBackOnce reading calls :=
  ⟨comesBackOnce_of_apart reading calls, apart_of_comesBackOnce reading calls⟩

theorem apart_succ (calls : Nat) : Apart reading (calls + 1) ↔ Apart reading calls ∧
    ∀ first, 0 < first → first ≤ calls →
      ¬ (counter reading first = counter reading (calls + 1) ∧ reading first = reading (calls + 1)) := by
  constructor
  · intro apart
    exact ⟨fun first again positive earlier inside => apart first again positive earlier (by omega),
      fun first positive inside => apart first (calls + 1) positive (by omega) (le_refl _)⟩
  · rintro ⟨before, last⟩ first again positive earlier inside
    by_cases final : again = calls + 1
    · rw [final]
      exact last first positive (by omega)
    · exact before first again positive earlier (by omega)

end Counter

theorem KeyId.advance_counter (reading : Nat → Int64) (number : Nat) :
    (KeyId.mk (counter reading number) (reading number)).advance (reading (number + 1)) =
      ⟨counter reading (number + 1), reading (number + 1)⟩ := by
  by_cases same : reading (number + 1) = reading number
  · rw [advance, counter, if_pos same, if_pos same, same]
  · rw [advance, counter, if_neg same, if_neg same]

namespace FileRequestCache

variable {T : Type} [DecidableEq T]

section Calls

variable (calls : List (KeyCall T))

theorem callsOf_concat (call : KeyCall T) (thread : T) :
    callsOf (calls ++ [call]) thread =
      if call.thread = thread then callsOf calls thread ++ [call] else callsOf calls thread := by
  unfold callsOf
  rw [List.filter_append]
  split
  next own => rw [List.filter_cons_of_pos (by simpa using own), List.filter_nil]
  next foreign => rw [List.filter_cons_of_neg (by simpa using foreign), List.filter_nil, List.append_nil]

theorem callsOf_split (before after : List (KeyCall T)) (call : KeyCall T) :
    callsOf (before ++ call :: after) call.thread =
      callsOf before call.thread ++ call :: callsOf after call.thread := by
  unfold callsOf
  rw [List.filter_append, List.filter_cons_of_pos (by simp)]

theorem reading_next (before after : List (KeyCall T)) (call : KeyCall T) :
    reading (before ++ call :: after) call.thread ((callsOf before call.thread).length + 1) = call.now := by
  rw [reading, callsOf_split, List.getElem?_append_right (le_refl _), Nat.sub_self]
  rfl

theorem reading_constructed (before after : List (KeyCall T)) (call : KeyCall T)
    (first : (callsOf before call.thread).length = 0) :
    reading (before ++ call :: after) call.thread 0 = call.constructed := by
  rw [reading, callsOf_split, List.eq_nil_of_length_eq_zero first]
  rfl

theorem counter_le (thread : T) (number : Nat) (inside : number ≤ (callsOf calls thread).length) :
    counter (reading calls thread) number ≤
      ((callsOf calls thread).filter (fun call => call.now = reading calls thread number)).length := by
  obtain ⟨within, equal, _, _⟩ := counter_start (reading calls thread) number
  let block := ((callsOf calls thread).drop (number - counter (reading calls thread) number)).take
    (counter (reading calls thread) number)
  have size : block.length = counter (reading calls thread) number := by
    simp only [block, List.length_take, List.length_drop]
    omega
  have part : block.Sublist (callsOf calls thread) := (List.take_sublist _ _).trans (List.drop_sublist _ _)
  have all : block.countP (fun call => call.now = reading calls thread number) = block.length := by
    rw [List.countP_eq_length]
    intro call member
    obtain ⟨index, bound, rfl⟩ := List.getElem_of_mem member
    have same := equal (number - counter (reading calls thread) number + index + 1) (by omega) (by omega)
    have place : number - counter (reading calls thread) number + index < (callsOf calls thread).length := by
      omega
    rw [reading, List.getElem?_eq_getElem place] at same
    simp only [block, List.getElem_take, List.getElem_drop]
    simpa using same
  calc counter (reading calls thread) number
      = block.countP (fun call => call.now = reading calls thread number) := by rw [all, size]
    _ ≤ (callsOf calls thread).countP (fun call => call.now = reading calls thread number) := part.countP_le
    _ = _ := List.countP_eq_length_filter

end Calls

variable (pthreadSelf : T → UInt64)

theorem hashAll_length (holders last : Holders T) (calls : List (KeyCall T)) (texts : List Bytes)
    (done : hashAll pthreadSelf holders calls = .ok (last, texts)) : texts.length = calls.length := by
  induction calls generalizing holders texts with
  | nil =>
      cases done
      rfl
  | cons first rest ih =>
      simp only [hashAll] at done
      obtain ⟨⟨middle, head⟩, begun, more⟩ := bind_eq_ok _ _ _ done
      obtain ⟨⟨final, tail⟩, later, shape⟩ := bind_eq_ok _ _ _ more
      cases shape
      rw [List.length_cons, List.length_cons, ih middle tail later]

theorem hashAll_concat (holders next last : Holders T) (calls : List (KeyCall T)) (call : KeyCall T)
    (texts : List Bytes) (text : Bytes) (done : hashAll pthreadSelf holders calls = .ok (next, texts))
    (step : hashNext pthreadSelf next call = .ok (last, text)) :
    hashAll pthreadSelf holders (calls ++ [call]) = .ok (last, texts ++ [text]) := by
  induction calls generalizing holders texts with
  | nil =>
      cases done
      simp only [List.nil_append, hashAll, step, ok_bind]
  | cons first rest ih =>
      simp only [hashAll] at done
      obtain ⟨⟨middle, head⟩, begun, more⟩ := bind_eq_ok _ _ _ done
      obtain ⟨⟨final, tail⟩, later, shape⟩ := bind_eq_ok _ _ _ more
      cases shape
      simp only [List.cons_append, hashAll, begun, ok_bind, ih middle tail later]

def textOf (calls : List (KeyCall T)) (thread : T) (number : Nat) : Bytes :=
  (KeyId.mk (counter (reading calls thread) number) (reading calls thread number)).text (pthreadSelf thread)

structure Hashed (calls first : List (KeyCall T)) (holders : Holders T) (texts : List Bytes) : Prop where
  held : ∀ thread, holders thread =
    if (callsOf first thread).length = 0 then none
    else some ⟨counter (reading calls thread) (callsOf first thread).length,
      reading calls thread (callsOf first thread).length⟩
  listed : ∀ text, text ∈ texts ↔ ∃ thread number, 0 < number ∧ number ≤ (callsOf first thread).length ∧
    text = textOf pthreadSelf calls thread number
  apart : texts.Nodup ↔ ∀ thread, Apart (reading calls thread) (callsOf first thread).length

theorem hashNext_eq (calls first rest : List (KeyCall T)) (call : KeyCall T) (holders : Holders T)
    (texts : List Bytes) (split : calls = first ++ call :: rest)
    (hashed : Hashed pthreadSelf calls first holders texts)
    (few : counter (reading calls call.thread) ((callsOf first call.thread).length + 1) < 2 ^ 31) :
    hashNext pthreadSelf holders call =
      .ok (Function.update holders call.thread
        (some ⟨counter (reading calls call.thread) ((callsOf first call.thread).length + 1),
          reading calls call.thread ((callsOf first call.thread).length + 1)⟩),
        textOf pthreadSelf calls call.thread ((callsOf first call.thread).length + 1)) := by
  have held : (holders call.thread).getD (KeyId.create call.constructed) =
      ⟨counter (reading calls call.thread) (callsOf first call.thread).length,
        reading calls call.thread (callsOf first call.thread).length⟩ := by
    rw [hashed.held]
    split
    · next none =>
        rw [none, Option.getD_none, KeyId.create, counter, split, reading_constructed first rest call none]
    · rfl
  have now : call.now = reading calls call.thread ((callsOf first call.thread).length + 1) := by
    rw [split, reading_next]
  simp only [hashNext, held, now, KeyId.get, KeyId.advance_counter, if_pos few, ok_bind, textOf]

theorem textOf_inj (distinct : Function.Injective pthreadSelf) (calls : List (KeyCall T)) (thread other : T)
    (number another : Nat) (fits : counter (reading calls thread) number < 2 ^ 31)
    (alsoFits : counter (reading calls other) another < 2 ^ 31)
    (same : textOf pthreadSelf calls thread number = textOf pthreadSelf calls other another) :
    thread = other ∧ counter (reading calls thread) number = counter (reading calls other) another ∧
      reading calls thread number = reading calls other another := by
  obtain ⟨holders, threads⟩ := KeyId.text_inj _ _ _ _ fits alsoFits same
  cases distinct threads
  exact ⟨rfl, congrArg KeyId.id holders, congrArg KeyId.last holders⟩

theorem hashed_step (distinct : Function.Injective pthreadSelf) (calls first rest : List (KeyCall T))
    (call : KeyCall T) (holders : Holders T) (texts : List Bytes) (split : calls = first ++ call :: rest)
    (few : ∀ thread number, number ≤ (callsOf calls thread).length →
      counter (reading calls thread) number < 2 ^ 31)
    (hashed : Hashed pthreadSelf calls first holders texts) :
    Hashed pthreadSelf calls (first ++ [call])
      (Function.update holders call.thread
        (some ⟨counter (reading calls call.thread) ((callsOf first call.thread).length + 1),
          reading calls call.thread ((callsOf first call.thread).length + 1)⟩))
      (texts ++ [textOf pthreadSelf calls call.thread ((callsOf first call.thread).length + 1)]) := by
  have longer : ∀ thread, (callsOf (first ++ [call]) thread).length =
      if call.thread = thread then (callsOf first thread).length + 1 else (callsOf first thread).length := by
    intro thread
    rw [callsOf_concat]
    split
    · rw [List.length_append, List.length_singleton]
    · rfl
  have part : ∀ thread number, number ≤ (callsOf (first ++ [call]) thread).length →
      counter (reading calls thread) number < 2 ^ 31 := by
    intro thread number inside
    apply few thread number
    have whole : callsOf calls thread = callsOf (first ++ [call]) thread ++ callsOf rest thread := by
      rw [split, callsOf, callsOf, callsOf, ← List.filter_append, List.append_assoc]
      rfl
    rw [whole, List.length_append]
    omega
  have own := longer call.thread
  rw [if_pos rfl] at own
  refine ⟨?_, ?_, ?_⟩
  · intro thread
    rw [longer]
    by_cases same : call.thread = thread
    · subst same
      rw [if_pos rfl, Function.update_self, if_neg (Nat.succ_ne_zero _)]
    · rw [if_neg same, Function.update_of_ne (Ne.symm same)]
      exact hashed.held thread
  · intro text
    rw [List.mem_append, List.mem_singleton, hashed.listed]
    constructor
    · rintro (⟨thread, number, positive, inside, rfl⟩ | rfl)
      · refine ⟨thread, number, positive, ?_, rfl⟩
        rw [longer]
        split <;> omega
      · exact ⟨call.thread, _, Nat.succ_pos _, own.ge, rfl⟩
    · rintro ⟨thread, number, positive, inside, rfl⟩
      rw [longer] at inside
      split at inside
      · next same =>
          subst same
          by_cases last : number = (callsOf first call.thread).length + 1
          · exact Or.inr (by rw [last])
          · exact Or.inl ⟨call.thread, number, positive, by omega, rfl⟩
      · exact Or.inl ⟨thread, number, positive, inside, rfl⟩
  · have fresh : textOf pthreadSelf calls call.thread ((callsOf first call.thread).length + 1) ∉ texts ↔
        ∀ number, 0 < number → number ≤ (callsOf first call.thread).length →
          ¬ (counter (reading calls call.thread) number =
              counter (reading calls call.thread) ((callsOf first call.thread).length + 1) ∧
            reading calls call.thread number =
              reading calls call.thread ((callsOf first call.thread).length + 1)) := by
      rw [hashed.listed]
      constructor
      · rintro new number positive inside ⟨counts, readings⟩
        exact new ⟨call.thread, number, positive, inside, by rw [textOf, textOf, counts, readings]⟩
      · rintro new ⟨thread, number, positive, inside, same⟩
        obtain ⟨rfl, counts, readings⟩ := textOf_inj pthreadSelf distinct calls _ _ _ _
          (part _ _ own.ge) (part _ _ (by rw [longer]; split <;> omega)) same
        exact new number positive inside ⟨counts.symm, readings.symm⟩
    rw [List.nodup_append', List.disjoint_singleton, hashed.apart, fresh]
    simp only [List.nodup_singleton, true_and]
    constructor
    · rintro ⟨before, new⟩ thread
      rw [longer]
      split
      · next same =>
          subst same
          exact (apart_succ _ _).mpr ⟨before call.thread, new⟩
      · exact before thread
    · intro apart
      have here := apart call.thread
      rw [own, apart_succ] at here
      refine ⟨?_, here.2⟩
      intro thread
      by_cases same : call.thread = thread
      · subst same
        exact here.1
      · have other := apart thread
        rwa [longer, if_neg same] at other

theorem hashed_run (distinct : Function.Injective pthreadSelf) (calls first rest : List (KeyCall T))
    (split : calls = first ++ rest)
    (few : ∀ thread number, number ≤ (callsOf calls thread).length →
      counter (reading calls thread) number < 2 ^ 31) :
    ∃ holders texts, hashAll pthreadSelf (fun _ => none) first = .ok (holders, texts) ∧
      Hashed pthreadSelf calls first holders texts := by
  induction first using List.reverseRecOn generalizing rest with
  | nil =>
      refine ⟨_, _, rfl, fun _ => rfl, ?_, ?_⟩
      · intro text
        constructor
        · intro member
          cases member
        · rintro ⟨thread, number, positive, inside, _⟩
          exact absurd inside (Nat.not_le.mpr positive)
      · constructor
        · intro _ thread first again positive earlier inside
          exact absurd inside (by simp [callsOf]; omega)
        · intro _
          exact List.nodup_nil
  | append_singleton first call ih =>
      rw [List.append_assoc, List.singleton_append] at split
      obtain ⟨holders, texts, done, hashed⟩ := ih (call :: rest) split
      have own : (callsOf first call.thread).length + 1 ≤ (callsOf calls call.thread).length := by
        rw [split, callsOf_split, List.length_append, List.length_cons]
        omega
      have step := hashNext_eq pthreadSelf calls first rest call holders texts split hashed (few _ _ own)
      exact ⟨_, _, hashAll_concat pthreadSelf _ holders _ first call texts _ done step,
        hashed_step pthreadSelf distinct calls first rest call holders texts split few hashed⟩

def files (config : CacheConfig) (md5 : Bytes → Fin 16 → UInt8) (texts : List Bytes) : List Bytes :=
  texts.map (fun text => path config (HashUtils.hexMD5 (md5 text)))

theorem files_nodup (config : CacheConfig) (md5 : Bytes → Fin 16 → UInt8) (texts : List Bytes)
    (free : ∀ left ∈ texts, ∀ right ∈ texts, md5 left = md5 right → left = right) :
    (files config md5 texts).Nodup ↔ texts.Nodup := by
  constructor
  · exact List.Nodup.of_map _
  · intro distinct
    apply distinct.map_on
    intro left leftMember right rightMember same
    apply free left leftMember right rightMember
    exact HashUtils.hexMD5_injective (List.append_cancel_left same)

/-- No two calls of a process hash the same text, nor give out the same file, exactly if the
clock of no thread comes back more often than it may. -/
theorem keys_distinct_iff (distinct : Function.Injective pthreadSelf) (calls : List (KeyCall T))
    (few : ∀ thread second, ((callsOf calls thread).filter (fun call => call.now = second)).length < 2 ^ 31)
    (config : CacheConfig) (md5 : Bytes → Fin 16 → UInt8)
    (free : ∀ texts, hashed pthreadSelf calls = .ok texts →
      ∀ left ∈ texts, ∀ right ∈ texts, md5 left = md5 right → left = right) :
    ∃ texts, hashed pthreadSelf calls = .ok texts ∧ texts.length = calls.length ∧
      (texts.Nodup ↔
        ∀ thread, ComesBackOnce (reading calls thread) (callsOf calls thread).length) ∧
      ((files config md5 texts).Nodup ↔
        ∀ thread, ComesBackOnce (reading calls thread) (callsOf calls thread).length) := by
  have small : ∀ thread number, number ≤ (callsOf calls thread).length →
      counter (reading calls thread) number < 2 ^ 31 :=
    fun thread number inside => lt_of_le_of_lt (counter_le calls thread number inside) (few thread _)
  obtain ⟨holders, texts, done, run⟩ := hashed_run pthreadSelf distinct calls calls [] (by simp) small
  have read : hashed pthreadSelf calls = .ok texts := by
    rw [hashed, done]
    rfl
  have apart : texts.Nodup ↔
      ∀ thread, ComesBackOnce (reading calls thread) (callsOf calls thread).length := by
    rw [run.apart]
    exact forall_congr' (fun thread => apart_iff _ _)
  refine ⟨texts, read, hashAll_length pthreadSelf _ holders calls texts done, apart, ?_⟩
  rw [files_nodup config md5 texts (free texts read), apart]

def md5Table : List (Bytes × List UInt8) :=
  [ (KeyId.text ⟨1, 100⟩ 7,
      [222, 224, 229, 249, 44, 184, 118, 246, 233, 57, 29, 119, 240, 194, 206, 168]),
    (KeyId.text ⟨0, 101⟩ 8,
      [112, 248, 63, 154, 191, 255, 114, 154, 125, 130, 155, 73, 147, 76, 40, 81]),
    (KeyId.text ⟨0, 101⟩ 7,
      [169, 91, 194, 239, 4, 212, 129, 136, 143, 166, 77, 53, 190, 2, 116, 198]),
    (KeyId.text ⟨0, 100⟩ 8,
      [241, 184, 83, 43, 219, 56, 153, 224, 148, 32, 93, 137, 26, 142, 126, 56]) ]

def md5Sample (text : Bytes) (index : Fin 16) : UInt8 :=
  ((md5Table.lookup text).getD []).getD index 0

/-- The clock of the second thread steps back to the reading of its constructor, which its
first call had left. -/
def twoThreads : List (KeyCall Bool) :=
  [⟨false, 100, 100⟩, ⟨true, 100, 101⟩, ⟨false, 0, 101⟩, ⟨true, 0, 100⟩]

theorem keys_distinct_two_threads :
    ∃ texts, hashed (fun thread : Bool => if thread then 8 else 7) twoThreads = .ok texts ∧ texts.Nodup ∧
      (files ⟨ascii "/tmp/", 2⟩ md5Sample texts).Nodup := by
  have known : hashed (fun thread : Bool => if thread then 8 else 7) twoThreads = .ok (md5Table.map Prod.fst) := by
    decide +kernel
  obtain ⟨texts, run, _, distinct, apart⟩ := keys_distinct_iff (fun thread : Bool => if thread then 8 else 7)
    (by decide) twoThreads
    (fun thread second => lt_of_le_of_lt ((List.length_filter_le _ _).trans (List.length_filter_le _ _)) (by decide))
    ⟨ascii "/tmp/", 2⟩ md5Sample
    (by
      intro texts run
      rw [← Except.ok.inj (known.symm.trans run)]
      decide +kernel)
  have safe : ∀ thread, ComesBackOnce (reading twoThreads thread) (callsOf twoThreads thread).length := by
    decide +kernel
  exact ⟨texts, run, distinct.mpr safe, apart.mpr safe⟩

/-- One thread, whose clock steps back by a second between its second call and its third. -/
theorem key_repeated :
    ∃ texts, hashed (fun _ : Unit => 7)
        [⟨(), 100, 100⟩, ⟨(), 0, 101⟩, ⟨(), 0, 100⟩, ⟨(), 0, 100⟩] = .ok texts ∧
      texts.head? = texts.getLast? ∧ ¬ texts.Nodup :=
  ⟨[KeyId.text ⟨1, 100⟩ 7, KeyId.text ⟨0, 101⟩ 7, KeyId.text ⟨0, 100⟩ 7, KeyId.text ⟨1, 100⟩ 7],
    by decide +kernel, by decide +kernel, by decide +kernel⟩

end FileRequestCache

end FastcgiContainer
