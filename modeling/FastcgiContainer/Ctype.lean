import FastcgiContainer.Word
import FastcgiContainer.OrderedMap

/-! Character classification of the C library in the "C" locale. A `char` is a
`UInt8`; where the source compares or promotes it, its signed value counts. -/

namespace FastcgiContainer

open Word (Bytes)

def ascii (text : String) : Bytes := text.toList.map (fun symbol => UInt8.ofNat symbol.toNat)

def quoted (bytes : Bytes) : String := String.ofList (bytes.map (fun symbol => Char.ofNat symbol.toNat))

def isspace (symbol : UInt8) : Bool :=
  symbol == 32 || (9 ≤ symbol && symbol ≤ 13)

def isalnum (symbol : UInt8) : Bool :=
  (48 ≤ symbol && symbol ≤ 57) || (65 ≤ symbol && symbol ≤ 90) || (97 ≤ symbol && symbol ≤ 122)

def tolower (symbol : UInt8) : UInt8 :=
  if 65 ≤ symbol && symbol ≤ 90 then symbol + 32 else symbol

def toupper (symbol : UInt8) : UInt8 :=
  if 97 ≤ symbol && symbol ≤ 122 then symbol - 32 else symbol

/-- The `int` that results from passing an unsigned 64-bit value. -/
def toInt (value : Nat) : Int :=
  let low : Nat := value % 2 ^ 32
  if low < 2 ^ 31 then (low : Int) else (low : Int) - 2 ^ 32

/-- `isspace` applied to an arbitrary `int`. The C library defines it on the
values of `unsigned char` only; `wide` is what it answers elsewhere. -/
def isspaceInt (wide : Int → Bool) (value : Int) : Bool :=
  if 0 ≤ value ∧ value < 256 then isspace (UInt8.ofNat value.toNat) else wide value

/-- `std::string` comparison: symbols count as `unsigned char`. -/
def stringLess : Bytes → Bytes → Bool := lexLess (fun symbol => (symbol.toNat : Int))

/-- `StringCILess`: symbols are lowered and count as signed `char`. -/
def stringCILess : Bytes → Bytes → Bool := lexLess (fun symbol => (tolower symbol).toInt8.toInt)

instance : KeyOrder stringLess := inferInstanceAs (KeyOrder (lexLess _))

instance : KeyOrder stringCILess := inferInstanceAs (KeyOrder (lexLess _))

theorem stringLess_exact (left right : Bytes)
    (same : OrderedMap.equivalent stringLess left right = true) : left = right := by
  simp only [OrderedMap.equivalent, stringLess, lexLess, Bool.and_eq_true, Bool.not_eq_true',
    decide_eq_false_iff_not, not_lt] at same
  have equal := le_antisymm same.2 same.1
  refine (List.map_injective_iff.mpr ?_) equal
  intro first second numbers
  exact UInt8.toNat_inj.mp (Int.ofNat_inj.mp numbers)

theorem stringCILess_equivalent_iff (left right : Bytes) :
    OrderedMap.equivalent stringCILess left right = true ↔
      left.map (fun symbol => (tolower symbol).toInt8.toInt) =
        right.map (fun symbol => (tolower symbol).toInt8.toInt) := by
  simp only [OrderedMap.equivalent, stringCILess, lexLess, Bool.and_eq_true, Bool.not_eq_true',
    decide_eq_false_iff_not, not_lt]
  exact ⟨fun both => le_antisymm both.2 both.1, fun same => ⟨same.ge, same.le⟩⟩

theorem find?_assign_CI {β : Type} (map : OrderedMap Bytes β stringCILess) (key : Bytes) (value : β)
    (query : Bytes) : (map.assign key value).find? query =
    if OrderedMap.equivalent stringCILess key query = true then some value else map.find? query := by
  apply OrderedMap.lookup_placeEntry_overwrite ?_ key value map.entries map.sorted query
  intro left right same other
  rw [stringCILess_equivalent_iff] at same
  simp only [stringCILess, lexLess, same, and_self]

section Map

variable {β : Type} (map : OrderedMap Bytes β stringLess) (key query : Bytes)

@[simp] theorem find?_insert (value : β) : (map.insert key value).find? query =
    if key = query then (map.find? query).or (some value) else map.find? query :=
  OrderedMap.find?_insert stringLess_exact map key value query

theorem find?_insert_new (free : map.find? key = none) (value : β) :
    (map.insert key value).find? key = some value := by
  rw [find?_insert, if_pos rfl, free, Option.none_or]

@[simp] theorem find?_assign (value : β) : (map.assign key value).find? query =
    if key = query then some value else map.find? query :=
  OrderedMap.find?_assign stringLess_exact map key value query

@[simp] theorem find?_erase :
    (map.erase key).find? query = if key = query then none else map.find? query :=
  OrderedMap.find?_erase stringLess_exact map key query

end Map

end FastcgiContainer
