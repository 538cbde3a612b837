import FastcgiContainer.Range

/-! Exceptions, and the in-memory storage `StringBuffer`. -/

namespace FastcgiContainer

open Word (Bytes)

/-- What a call may leave with. `undefined` stands for behaviour the language
leaves open, such as an access outside of an object. -/
inductive Exn where
  | outOfRange (what : String)
  | runtimeError (what : String)
  | invalidArgument (what : String)
  | lengthError (what : String)
  | undefined (what : String)
  deriving DecidableEq, Repr

theorem bind_eq_ok {ε α β : Type} (first : Except ε α) (next : α → Except ε β) (result : β)
    (done : (first >>= next) = .ok result) :
    ∃ value, first = .ok value ∧ next value = .ok result := by
  cases first with
  | error exn => cases done
  | ok value => exact ⟨value, rfl, done⟩

@[simp] theorem ok_bind {ε α β : Type} (value : α) (next : α → Except ε β) :
    ((Except.ok value : Except ε α) >>= next) = next value := rfl

@[simp] theorem error_bind {ε α β : Type} (exn : ε) (next : α → Except ε β) :
    ((Except.error exn : Except ε α) >>= next) = .error exn := rfl

theorem mapM_ok {α β : Type} (items : List α) (call : α → Except Exn β) (result : α → β)
    (succeeds : ∀ item ∈ items, call item = .ok (result item)) :
    items.mapM call = .ok (items.map result) := by
  induction items with
  | nil => rfl
  | cons item rest ih =>
      have front := succeeds item (by simp)
      have tail := ih (fun other member => succeeds other (by simp [member]))
      simp only [List.mapM_cons, front, tail, ok_bind, List.map_cons]
      rfl

/-- `memcpy` into a storage: the bytes from `pos` on are replaced. -/
def overwrite (bytes : Bytes) (pos : Nat) (data : Bytes) : Bytes :=
  bytes.take pos ++ data ++ bytes.drop (pos + data.length)

/-- Resizing a vector or truncating a file: new bytes are zero. -/
def resized (bytes : Bytes) (size : Nat) : Bytes :=
  bytes.take size ++ List.replicate (size - bytes.length) 0

@[simp] theorem overwrite_length (bytes : Bytes) (pos : Nat) (data : Bytes)
    (fits : pos + data.length ≤ bytes.length) : (overwrite bytes pos data).length = bytes.length := by
  simp only [overwrite, List.length_append, List.length_take, List.length_drop]
  omega

@[simp] theorem resized_length (bytes : Bytes) (size : Nat) : (resized bytes size).length = size := by
  simp only [resized, List.length_append, List.length_take, List.length_replicate]
  omega

@[simp] theorem overwrite_nil (bytes : Bytes) (pos : Nat) : overwrite bytes pos [] = bytes := by
  simp [overwrite]

theorem overwrite_overwrite (bytes : Bytes) (pos : Nat) (front back : Bytes)
    (fits : pos + front.length ≤ bytes.length) :
    overwrite (overwrite bytes pos front) (pos + front.length) back =
      overwrite bytes pos (front ++ back) := by
  have start : (bytes.take pos ++ front).length = pos + front.length := by
    simp only [List.length_append, List.length_take]
    omega
  simp only [overwrite]
  rw [← start, List.take_left, List.drop_length_add_append, List.drop_drop, start]
  simp [Nat.add_assoc]

structure StringBuffer where
  data : Bytes
  deriving DecidableEq, Repr

namespace StringBuffer

def read (buffer : StringBuffer) (pos len : Nat) : Except Exn Bytes :=
  if pos + len ≤ buffer.data.length then .ok (Range.slice buffer.data pos (pos + len))
  else .error (.undefined "memcpy")

def write (buffer : StringBuffer) (pos : Nat) (data : Bytes) : Except Exn StringBuffer :=
  if pos + data.length ≤ buffer.data.length then .ok ⟨overwrite buffer.data pos data⟩
  else .error (.undefined "memcpy")

def atIndex (buffer : StringBuffer) (pos : Nat) : Except Exn UInt8 :=
  match buffer.data[pos]? with
  | some symbol => .ok symbol
  | none => .error (.outOfRange "vector::at")

def find (buffer : StringBuffer) (first last : Nat) (pattern : Bytes) : Nat :=
  if pattern.length > last - first then last
  else first + Range.find (Range.slice buffer.data first last) pattern

def trim (buffer : StringBuffer) (first last : Nat) : Nat × Nat :=
  let base := Range.slice buffer.data first last
  let start := first + (base.length - (base.dropWhile isspace).length)
  (start, start + (Range.trim base).length)

/-- A pointer into the storage is the index of the byte it points to. -/
def chunk (buffer : StringBuffer) (pos : Nat) : Nat × Nat := (pos, buffer.data.length - pos)

def segment (buffer : StringBuffer) (pos : Nat) : Nat × Nat := (pos, buffer.data.length)

/-- Sizes are 64-bit words: a total that is none cannot be asked for. -/
def resize (buffer : StringBuffer) (size : Nat) : Except Exn StringBuffer :=
  if size < Word.base then .ok ⟨resized buffer.data size⟩
  else .error (.lengthError "vector::_M_default_append")

theorem find_eq (buffer : StringBuffer) (first last : Nat) (pattern : Bytes)
    (nonempty : pattern ≠ []) (order : first ≤ last) (bound : last ≤ buffer.data.length) :
    buffer.find first last pattern =
      first + Search.search pattern (Range.slice buffer.data first last) := by
  unfold find
  split
  · next long =>
      rw [Search.search_long_pattern _ _ nonempty]
      · rw [Range.slice_length_of_le _ _ _ bound]
        omega
      · rw [Range.slice_length_of_le _ _ _ bound]
        exact long
  · rw [Range.find_eq_search]

end StringBuffer

end FastcgiContainer
