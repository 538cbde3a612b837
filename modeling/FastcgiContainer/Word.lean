import Mathlib.Tactic

/-! Unsigned 64-bit words, carried as natural numbers below `base`, and the
little-endian byte strings that memory shows for them. -/

namespace FastcgiContainer.Word

abbrev Bytes := List UInt8

def base : Nat := 2 ^ 64

def add (left right : Nat) : Nat := (left + right) % base

def sub (left right : Nat) : Nat := (left + (base - right)) % base

theorem add_eq (left right : Nat) (bound : left + right < base) :
    add left right = left + right :=
  Nat.mod_eq_of_lt bound

theorem add_lt (left right : Nat) : add left right < base :=
  Nat.mod_lt _ (by decide)

theorem sub_lt (left right : Nat) : sub left right < base :=
  Nat.mod_lt _ (by decide)

theorem sub_eq (left right : Nat) (order : right ≤ left) (bound : left < base) :
    sub left right = left - right := by
  unfold sub
  have shifted : left + (base - right) = left - right + base := by omega
  rw [shifted, Nat.add_mod_right]
  exact Nat.mod_eq_of_lt (by omega)

theorem add_sub (left right shift : Nat) (bound : right < base)
    (order : right ≤ left + shift) (fits : left + shift - right < base) :
    add (sub left right) shift = left + shift - right := by
  unfold add sub
  rw [Nat.mod_add_mod]
  have shifted : left + (base - right) + shift = left + shift - right + base := by omega
  rw [shifted, Nat.add_mod_right]
  exact Nat.mod_eq_of_lt fits

theorem add_add_wrapped (first second third : Nat) (bound : first < base)
    (small : second + third < base) (large : base ≤ first + second + third) :
    add (add first second) third = first + second + third - base := by
  rw [add, add, Nat.mod_add_mod, Nat.mod_eq_sub_mod large, Nat.mod_eq_of_lt (by omega)]

theorem sub_add_sub (first middle last : Nat) (order : middle ≤ last) (fits : last < base) :
    add (sub middle first) (sub last middle) = sub last first := by
  rw [sub_eq last middle order fits]
  unfold add sub
  rw [Nat.mod_add_mod]
  congr 1
  omega

/-- The `width` low-order bytes of a number, least significant first. -/
def toBytes : Nat → Nat → Bytes
  | 0, _ => []
  | width + 1, value => UInt8.ofNat (value % 256) :: toBytes width (value / 256)

def ofBytes (bytes : Bytes) : Nat :=
  bytes.foldr (fun byte rest => byte.toNat + 256 * rest) 0

@[simp] theorem toBytes_length (width value : Nat) : (toBytes width value).length = width := by
  induction width generalizing value with
  | zero => rfl
  | succ width ih => simp [toBytes, ih]

theorem ofBytes_lt (bytes : Bytes) : ofBytes bytes < 256 ^ bytes.length := by
  induction bytes with
  | nil => decide
  | cons byte rest ih =>
      have small := byte.toNat_lt
      have shape : ofBytes (byte :: rest) = byte.toNat + 256 * ofBytes rest := rfl
      rw [shape, List.length_cons, pow_succ]
      omega

theorem ofBytes_toBytes (width value : Nat) (bound : value < 256 ^ width) :
    ofBytes (toBytes width value) = value := by
  induction width generalizing value with
  | zero =>
      have zero : value = 0 := by simpa using bound
      simp [toBytes, ofBytes, zero]
  | succ width ih =>
      have high : value / 256 < 256 ^ width := by
        rw [Nat.div_lt_iff_lt_mul (by decide)]
        simpa [pow_succ] using bound
      have low : (UInt8.ofNat (value % 256)).toNat = value % 256 := by
        simp
      have tail := ih (value / 256) high
      simp only [ofBytes] at tail
      simp only [toBytes, ofBytes, List.foldr_cons, tail, low]
      omega

end FastcgiContainer.Word
