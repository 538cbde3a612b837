import FastcgiContainer.Ctype
import FastcgiContainer.Search
import Mathlib.Data.List.DropRight

/-! The `Range` class: a pair of pointers, carried as the bytes between them. -/

namespace FastcgiContainer.Range

open Word (Bytes)
open Search (search)

def slice (bytes : Bytes) (first last : Nat) : Bytes := (bytes.drop first).take (last - first)

def trim (range : Bytes) : Bytes := (range.dropWhile isspace).rdropWhile isspace

def trimn (range : Bytes) (b e : Nat) : Bytes :=
  let front := range.drop b
  front.take (front.length - e)

def findChar (range : Bytes) (symbol : UInt8) : Nat :=
  range.findIdx (fun other => other == symbol)

def find (range substr : Bytes) : Nat :=
  if substr.length = 1 then findChar range (substr.headD 0) else search substr range

def doSplit (range : Bytes) (stop size : Nat) : Bool × Bytes × Bytes :=
  if stop ≠ range.length then (true, range.take stop, range.drop (stop + size))
  else (false, range.take stop, [])

def split (range delim : Bytes) : Bool × Bytes × Bytes :=
  doSplit range (find range delim) delim.length

def splitChar (range : Bytes) (delim : UInt8) : Bool × Bytes × Bytes :=
  doSplit range (findChar range delim) 1

def startsWith (range data : Bytes) : Bool :=
  decide (data.length ≤ range.length) && decide (range.take data.length = data)

def endsWith (range data : Bytes) : Bool :=
  decide (data.length ≤ range.length) &&
    decide (range.drop (range.length - data.length) = data)

theorem find_eq_search (range substr : Bytes) : find range substr = search substr range := by
  unfold find
  split
  · next single =>
      obtain ⟨symbol, rfl⟩ := List.length_eq_one_iff.mp single
      simp [findChar, Search.search_singleton]
  · rfl

theorem splitChar_eq_split (range : Bytes) (delim : UInt8) :
    splitChar range delim = split range [delim] := by
  simp [splitChar, split, find]

theorem split_eq (range delim : Bytes) :
    split range delim =
      if search delim range = range.length then (false, range, [])
      else (true, range.take (search delim range), range.drop (search delim range + delim.length)) := by
  unfold split doSplit
  rw [find_eq_search]
  by_cases absent : search delim range = range.length
  · simp [absent]
  · simp [absent]

theorem split_tail_length (range delim : Bytes) (nonempty : delim ≠ []) (filled : range ≠ []) :
    (split range delim).2.2.length < range.length := by
  have positive := List.length_pos_of_ne_nil filled
  have width := List.length_pos_of_ne_nil nonempty
  rw [split_eq]
  split
  · simpa using positive
  · simp only [List.length_drop]
    omega

theorem split_inside (range delim : Bytes) (nonempty : delim ≠ []) :
    (split range delim).2.1.length ≤ range.length ∧
      ((split range delim).2.2 = [] ∨
        (split range delim).2.1.length + delim.length + (split range delim).2.2.length =
          range.length) := by
  have bound := Search.search_le delim range
  rw [split_eq]
  split
  · exact ⟨le_refl _, Or.inl rfl⟩
  · next found =>
      have room := Search.search_bound delim range nonempty (by omega)
      simp only [List.length_take, List.length_drop]
      exact ⟨by omega, Or.inr (by omega)⟩

theorem split_absent (range delim : Bytes) (absent : (split range delim).1 = false) :
    (split range delim).2.2 = [] := by
  rw [split_eq] at absent ⊢
  split at absent <;> simp_all

theorem split_tail_eq (range delim : Bytes) :
    (split range delim).2.2 = range.drop (range.length - (split range delim).2.2.length) := by
  rw [split_eq]
  split
  · simp
  · have ends := List.suffix_iff_eq_drop.mp (List.drop_suffix (search delim range + delim.length) range)
    exact ends

theorem split_first (front delim back : Bytes) (nonempty : delim ≠ [])
    (absent : ∀ index < front.length, ¬ Search.Occurs delim (front ++ (delim ++ back)) index) :
    split (front ++ (delim ++ back)) delim = (true, front, back) := by
  have found : search delim (front ++ (delim ++ back)) = front.length := by
    rw [Search.search_skip delim front (delim ++ back) absent, Search.search_here delim back nonempty,
      Nat.add_zero]
  have positive := List.length_pos_of_ne_nil nonempty
  rw [split_eq, found, if_neg (by simp only [List.length_append]; omega)]
  simp [← List.drop_drop]

theorem split_symbol (front : Bytes) (symbol : UInt8) (back : Bytes) (absent : symbol ∉ front) :
    split (front ++ symbol :: back) [symbol] = (true, front, back) :=
  split_first front [symbol] back (by simp)
    (fun index inside => Search.not_occurs_front symbol [] front _ absent index inside)

theorem split_missing (symbol : UInt8) (rest text : Bytes) (absent : symbol ∉ text) :
    split text (symbol :: rest) = (false, text, []) := by
  rw [split_eq, if_pos (Search.search_missing symbol rest text absent)]

theorem takeWhile_stop {kind : UInt8 → Bool} {front back : Bytes} (all : ∀ symbol ∈ front, kind symbol = true)
    (stops : ∀ symbol, back.head? = some symbol → kind symbol = false) : (front ++ back).takeWhile kind = front := by
  rw [List.takeWhile_append_of_pos all]
  cases back with
  | nil => simp
  | cons symbol rest => simp [stops symbol rfl]

theorem dropWhile_stop {kind : UInt8 → Bool} {front back : Bytes} (all : ∀ symbol ∈ front, kind symbol = true)
    (stops : ∀ symbol, back.head? = some symbol → kind symbol = false) : (front ++ back).dropWhile kind = back := by
  rw [List.dropWhile_append_of_pos all]
  cases back with
  | nil => rfl
  | cons symbol rest => simp [stops symbol rfl]

section Symbol

variable {kind : UInt8 → Bool} {front : Bytes} {symbol : UInt8} (all : ∀ other ∈ front, kind other = true)
  (stop : kind symbol = false) (back : Bytes)

include all stop

theorem takeWhile_symbol : (front ++ symbol :: back).takeWhile kind = front :=
  takeWhile_stop all (fun _ same => Option.some.inj same ▸ stop)

theorem dropWhile_symbol : (front ++ symbol :: back).dropWhile kind = symbol :: back :=
  dropWhile_stop all (fun _ same => Option.some.inj same ▸ stop)

end Symbol

theorem ne_of_absent {symbol : UInt8} {text : Bytes} (absent : symbol ∉ text) :
    ∀ other ∈ text, (other != symbol) = true := by
  intro other member
  rw [bne_iff_ne]
  rintro rfl
  exact absent member

def lead (range : Bytes) : Nat := range.length - (range.dropWhile isspace).length

theorem lead_trim_le (range : Bytes) : lead range + (trim range).length ≤ range.length := by
  have front := List.length_dropWhile_le isspace range
  have back := (List.rdropWhile_prefix isspace (l := range.dropWhile isspace)).length_le
  unfold lead trim
  omega

@[simp] theorem slice_length (bytes : Bytes) (first last : Nat) :
    (slice bytes first last).length = min (last - first) (bytes.length - first) := by
  simp [slice]

theorem slice_length_of_le (bytes : Bytes) (first last : Nat) (bound : last ≤ bytes.length) :
    (slice bytes first last).length = last - first := by
  rw [slice_length]
  omega

@[simp] theorem slice_empty (bytes : Bytes) (index : Nat) : slice bytes index index = [] := by
  simp [slice]

@[simp] theorem slice_full (bytes : Bytes) : slice bytes 0 bytes.length = bytes := by
  simp [slice]

theorem slice_drop (bytes : Bytes) (first last skip : Nat) :
    (slice bytes first last).drop skip = slice bytes (first + skip) last := by
  simp only [slice, List.drop_take, List.drop_drop]
  congr 1
  omega

theorem slice_take (bytes : Bytes) (first last width : Nat) (inside : first + width ≤ last) :
    (slice bytes first last).take width = slice bytes first (first + width) := by
  simp only [slice, List.take_take]
  congr 1
  omega

theorem slice_append (bytes : Bytes) (first middle last : Nat) (left : first ≤ middle)
    (right : middle ≤ last) :
    slice bytes first middle ++ slice bytes middle last = slice bytes first last := by
  have split := List.take_append_drop (middle - first) (slice bytes first last)
  rwa [slice_take bytes first last _ (by omega), slice_drop, Nat.add_sub_cancel' left] at split

theorem slice_slice (bytes : Bytes) (first last start stop : Nat) (order : start ≤ stop)
    (inside : first + stop ≤ last) :
    slice (slice bytes first last) start stop = slice bytes (first + start) (first + stop) := by
  rw [slice, slice_drop, slice_take _ _ _ _ (by omega)]
  congr 1
  omega

end FastcgiContainer.Range
