import FastcgiContainer.AuthenticatorFilter

/-! `HashUtils`: base 64, written and read through a 32-bit accumulator that keeps stale
bits above those that count. -/

namespace FastcgiContainer

open Word (Bytes)

namespace HashUtils

def base64Table : Bytes := ascii "ABCDEFGHIJKLMNOPQRSTUVWXYZabcdefghijklmnopqrstuvwxyz0123456789+/"

def base64Symbol (accumulator : UInt32) : UInt8 := base64Table.getD (accumulator &&& 63).toNat 0

def base64Digits (accumulator : UInt32) : Nat → Bytes × Nat
  | bits + 6 =>
      let (digits, left) := base64Digits accumulator bits
      (base64Symbol (accumulator >>> UInt32.ofNat bits) :: digits, left)
  | bits => ([], bits)

def base64EncodeLoop : Bytes → Nat → UInt32 → Bytes
  | [], bits, accumulator =>
      if bits > 0 then [base64Symbol (accumulator <<< UInt32.ofNat (6 - bits))] else []
  | symbol :: rest, bits, accumulator =>
      let accumulator := (accumulator <<< 8) ||| symbol.toUInt32
      let (digits, left) := base64Digits accumulator (bits + 8)
      digits ++ base64EncodeLoop rest left accumulator

def base64Encode (bindata : Bytes) : Except Exn Bytes :=
  if bindata.length > (Word.base - 1) / 4 * 3 then
    .error (.lengthError "Converting too large a string to base64.")
  else
    let symbols := base64EncodeLoop bindata 0 0
    .ok (symbols ++ List.replicate ((bindata.length + 2) / 3 * 4 - symbols.length) 61)

example : base64Encode (ascii "user:pw") = .ok (ascii "dXNlcjpwdw==") := by decide +kernel

theorem base64Value_symbol (accumulator : UInt32) :
    base64Value (base64Symbol accumulator) = some (accumulator &&& 63) ∧
      isspace (base64Symbol accumulator) = false ∧ base64Symbol accumulator ≠ 61 ∧
      base64Symbol accumulator ≠ 32 ∧ base64Symbol accumulator ≠ 0 := by
  have all : ∀ digit : Fin 64, base64Value (base64Table.getD digit 0) = some (UInt32.ofNat digit) ∧
      isspace (base64Table.getD digit 0) = false ∧ base64Table.getD digit 0 ≠ 61 ∧
      base64Table.getD digit 0 ≠ 32 ∧ base64Table.getD digit 0 ≠ 0 := by
    decide +kernel
  have small : (accumulator &&& 63).toNat < 64 := by
    rw [UInt32.toNat_and]
    exact Nat.and_lt_two_pow _ (by decide : (63 : UInt32).toNat < 2 ^ 6)
  have found := all ⟨(accumulator &&& 63).toNat, small⟩
  rwa [UInt32.ofNat_toNat] at found

theorem push_digit (accumulator value : UInt32) (small : value.toNat < 64) :
    ((accumulator <<< 6) ||| value).toNat = accumulator.toNat * 64 % 2 ^ 32 + value.toNat := by
  have width : (6 : UInt32).toNat % 32 = 6 := by decide
  have shifted : accumulator.toNat <<< ((6 : UInt32).toNat % 32) % 2 ^ 32 =
      (accumulator.toNat % 2 ^ 26) <<< 6 := by
    rw [width, Nat.shiftLeft_eq, Nat.shiftLeft_eq]
    omega
  rw [UInt32.toNat_or, UInt32.toNat_shiftLeft, shifted, ← Nat.shiftLeft_add_eq_or_of_lt small,
    Nat.shiftLeft_eq]
  omega

theorem push_byte (accumulator : UInt32) (symbol : UInt8) :
    ((accumulator <<< 8) ||| symbol.toUInt32).toNat =
      accumulator.toNat * 256 % 2 ^ 32 + symbol.toNat := by
  have width : (8 : UInt32).toNat % 32 = 8 := by decide
  have shifted : accumulator.toNat <<< ((8 : UInt32).toNat % 32) % 2 ^ 32 =
      (accumulator.toNat % 2 ^ 24) <<< 8 := by
    rw [width, Nat.shiftLeft_eq, Nat.shiftLeft_eq]
    omega
  have small : symbol.toNat < 2 ^ 8 := symbol.toNat_lt
  rw [UInt32.toNat_or, UInt32.toNat_shiftLeft, shifted, UInt8.toNat_toUInt32,
    ← Nat.shiftLeft_add_eq_or_of_lt small, Nat.shiftLeft_eq]
  omega

theorem shifted_toNat (accumulator : UInt32) (bits : Nat) (inside : bits < 32) :
    (accumulator >>> UInt32.ofNat bits).toNat = accumulator.toNat / 2 ^ bits := by
  have width : (UInt32.ofNat bits).toNat % 32 = bits := by
    rw [UInt32.toNat_ofNat']
    omega
  rw [UInt32.toNat_shiftRight, width, Nat.shiftRight_eq_div_pow]

theorem digit_toNat (accumulator : UInt32) : (accumulator &&& 63).toNat = accumulator.toNat % 64 := by
  have mask : (63 : UInt32).toNat = 2 ^ 6 - 1 := by decide
  rw [UInt32.toNat_and, mask, Nat.and_two_pow_sub_one_eq_mod]

theorem byte_of_digits (accumulator first second : UInt32) (bits : Nat)
    (kept : bits = 0 ∨ bits = 2 ∨ bits = 4) :
    (((((accumulator <<< 6) ||| (first &&& 63)) <<< 6) ||| (second &&& 63)) >>>
        UInt32.ofNat bits).toUInt8 =
      UInt8.ofNat ((first.toNat % 64 * 64 + second.toNat % 64) / 2 ^ bits) := by
  have left := digit_toNat first
  have right := digit_toNat second
  have inner := push_digit accumulator (first &&& 63) (by omega)
  have outer := push_digit ((accumulator <<< 6) ||| (first &&& 63)) (second &&& 63) (by omega)
  apply UInt8.toNat_inj.mp
  rw [UInt32.toNat_toUInt8, shifted_toNat _ _ (by omega), UInt8.toNat_ofNat', outer, inner, left, right]
  rcases kept with rfl | rfl | rfl <;> omega

theorem base64Loop_symbol (value : UInt32) (rest : Bytes) (bits : Nat) (accumulator : UInt32)
    (retval : Bytes) :
    base64Loop (base64Symbol value :: rest) bits accumulator retval =
      let accumulator := (accumulator <<< 6) ||| (value &&& 63)
      if bits + 6 ≥ 8 then
        base64Loop rest (bits - 2) accumulator
          (retval ++ [(accumulator >>> UInt32.ofNat (bits - 2)).toUInt8])
      else base64Loop rest (bits + 6) accumulator retval := by
  obtain ⟨read, visible, digit, _⟩ := base64Value_symbol value
  simp only [base64Loop, visible, Bool.false_or, beq_eq_false_iff_ne.mpr digit, Bool.false_eq_true,
    if_false, read]

theorem base64Loop_padding (count bits : Nat) (accumulator : UInt32) (retval : Bytes) :
    base64Loop (List.replicate count 61) bits accumulator retval = .ok retval := by
  induction count with
  | zero => rfl
  | succ count ih => simpa [List.replicate_succ, base64Loop] using ih

section Decode

variable (accumulator : UInt32) (first second third fourth : UInt32) (rest retval : Bytes)

theorem base64Loop_two : base64Loop (base64Symbol first :: base64Symbol second :: rest) 0 accumulator
    retval = base64Loop rest 4 ((((accumulator <<< 6) ||| (first &&& 63)) <<< 6) ||| (second &&& 63))
      (retval ++ [UInt8.ofNat ((first.toNat % 64 * 64 + second.toNat % 64) / 16)]) := by
  simp only [base64Loop_symbol, ge_iff_le, Nat.zero_add, Nat.reduceLeDiff, if_false, if_true,
    Nat.reduceAdd, Nat.reduceSub, byte_of_digits _ _ _ 4 (Or.inr (Or.inr rfl)), Nat.reducePow]

theorem base64Loop_three :
    ∃ next : UInt32, base64Loop (base64Symbol first :: base64Symbol second :: base64Symbol third :: rest) 0
        accumulator retval =
      base64Loop rest 2 ((next <<< 6) ||| (third &&& 63))
        (retval ++ [UInt8.ofNat ((first.toNat % 64 * 64 + second.toNat % 64) / 16),
          UInt8.ofNat ((second.toNat % 64 * 64 + third.toNat % 64) / 4)]) := by
  refine ⟨(((accumulator <<< 6) ||| (first &&& 63)) <<< 6) ||| (second &&& 63), ?_⟩
  rw [base64Loop_two, base64Loop_symbol]
  simp only [ge_iff_le, Nat.reduceLeDiff, if_true, Nat.reduceAdd, Nat.reduceSub,
    byte_of_digits _ _ _ 2 (Or.inr (Or.inl rfl)), Nat.reducePow, List.append_assoc, List.cons_append,
    List.nil_append]

theorem base64Loop_four :
    ∃ next : UInt32, base64Loop (base64Symbol first :: base64Symbol second :: base64Symbol third ::
        base64Symbol fourth :: rest) 0 accumulator retval =
      base64Loop rest 0 next
        (retval ++ [UInt8.ofNat ((first.toNat % 64 * 64 + second.toNat % 64) / 16),
          UInt8.ofNat ((second.toNat % 64 * 64 + third.toNat % 64) / 4),
          UInt8.ofNat (third.toNat % 64 * 64 + fourth.toNat % 64)]) := by
  obtain ⟨next, three⟩ := base64Loop_three accumulator first second third (base64Symbol fourth :: rest)
    retval
  refine ⟨(((next <<< 6) ||| (third &&& 63)) <<< 6) ||| (fourth &&& 63), ?_⟩
  rw [three, base64Loop_symbol]
  simp only [ge_iff_le, Nat.reduceLeDiff, if_true, Nat.reduceAdd, Nat.reduceSub,
    byte_of_digits _ _ _ 0 (Or.inl rfl), Nat.reducePow, Nat.div_one, List.append_assoc,
    List.cons_append, List.nil_append]

end Decode

section Groups

variable (writer : UInt32) (first second third : UInt8) (rest : Bytes)

theorem base64EncodeLoop_one : ∃ one two : UInt32,
    base64EncodeLoop [first] 0 writer = [base64Symbol one, base64Symbol two] ∧
      one.toNat % 64 = first.toNat / 4 ∧ two.toNat % 64 / 16 = first.toNat % 4 := by
  let front := (writer <<< 8) ||| first.toUInt32
  have frontValue := push_byte writer first
  have byte := first.toNat_lt
  refine ⟨front >>> UInt32.ofNat 2, front <<< UInt32.ofNat 4, rfl, ?_, ?_⟩
  · rw [shifted_toNat _ _ (by omega), frontValue]
    omega
  · have width : (UInt32.ofNat 4).toNat % 32 = 4 := by decide
    rw [UInt32.toNat_shiftLeft, width, Nat.shiftLeft_eq, frontValue]
    omega

theorem base64EncodeLoop_two : ∃ one two three : UInt32,
    base64EncodeLoop [first, second] 0 writer =
        [base64Symbol one, base64Symbol two, base64Symbol three] ∧
      one.toNat % 64 = first.toNat / 4 ∧ two.toNat % 64 = first.toNat % 4 * 16 + second.toNat / 16 ∧
      three.toNat % 64 / 4 = second.toNat % 16 := by
  let front := (writer <<< 8) ||| first.toUInt32
  let middle := (front <<< 8) ||| second.toUInt32
  have frontValue := push_byte writer first
  have middleValue := push_byte front second
  have firstByte := first.toNat_lt
  have secondByte := second.toNat_lt
  refine ⟨front >>> UInt32.ofNat 2, middle >>> UInt32.ofNat 4, middle <<< UInt32.ofNat 2, rfl, ?_, ?_, ?_⟩
  · rw [shifted_toNat _ _ (by omega), frontValue]
    omega
  · rw [shifted_toNat _ _ (by omega), middleValue, frontValue]
    omega
  · have width : (UInt32.ofNat 2).toNat % 32 = 2 := by decide
    rw [UInt32.toNat_shiftLeft, width, Nat.shiftLeft_eq, middleValue]
    omega

theorem base64EncodeLoop_three : ∃ one two three four next : UInt32,
    base64EncodeLoop (first :: second :: third :: rest) 0 writer =
        base64Symbol one :: base64Symbol two :: base64Symbol three :: base64Symbol four ::
          base64EncodeLoop rest 0 next ∧
      one.toNat % 64 = first.toNat / 4 ∧ two.toNat % 64 = first.toNat % 4 * 16 + second.toNat / 16 ∧
      three.toNat % 64 = second.toNat % 16 * 4 + third.toNat / 64 ∧
      four.toNat % 64 = third.toNat % 64 := by
  let front := (writer <<< 8) ||| first.toUInt32
  let middle := (front <<< 8) ||| second.toUInt32
  let last := (middle <<< 8) ||| third.toUInt32
  have frontValue := push_byte writer first
  have middleValue := push_byte front second
  have lastValue := push_byte middle third
  have firstByte := first.toNat_lt
  have secondByte := second.toNat_lt
  have thirdByte := third.toNat_lt
  refine ⟨front >>> UInt32.ofNat 2, middle >>> UInt32.ofNat 4, last >>> UInt32.ofNat 6,
    last >>> UInt32.ofNat 0, last, rfl, ?_, ?_, ?_, ?_⟩
  · rw [shifted_toNat _ _ (by omega), frontValue]
    omega
  · rw [shifted_toNat _ _ (by omega), middleValue, frontValue]
    omega
  · rw [shifted_toNat _ _ (by omega), lastValue, middleValue]
    omega
  · rw [shifted_toNat _ _ (by omega), lastValue]
    omega

end Groups

theorem byte_of_first {one two first second : Nat} (byte : second < 256) (high : one = first / 4)
    (middle : two = first % 4 * 16 + second / 16) : (one * 64 + two) / 16 = first := by
  omega

theorem byte_of_second {two three first : Nat} {second : UInt8}
    (middle : two = first % 4 * 16 + second.toNat / 16) (low : three / 4 = second.toNat % 16) :
    UInt8.ofNat ((two * 64 + three) / 4) = second := by
  apply UInt8.toNat_inj.mp
  rw [UInt8.toNat_ofNat']
  have := second.toNat_lt
  omega

theorem base64Loop_encoded : (bindata : Bytes) → (padding : Nat) → (writer reader : UInt32) →
    (retval : Bytes) → base64Loop (base64EncodeLoop bindata 0 writer ++ List.replicate padding 61) 0
      reader retval = .ok (retval ++ bindata)
  | [], padding, writer, reader, retval => by
      simp [base64EncodeLoop, base64Loop_padding]
  | [first], padding, writer, reader, retval => by
      obtain ⟨one, two, digits, high, low⟩ := base64EncodeLoop_one writer first
      have byte : (one.toNat % 64 * 64 + two.toNat % 64) / 16 = first.toNat := by omega
      rw [digits, List.cons_append, List.cons_append, base64Loop_two, List.nil_append, base64Loop_padding,
        byte, UInt8.ofNat_toNat]
  | [first, second], padding, writer, reader, retval => by
      obtain ⟨one, two, three, digits, high, middle, low⟩ := base64EncodeLoop_two writer first second
      have firstByte := byte_of_first second.toNat_lt high middle
      have secondByte := byte_of_second middle low
      obtain ⟨next, read⟩ := base64Loop_three reader one two three (List.replicate padding 61) retval
      rw [digits, List.cons_append, List.cons_append, List.cons_append, List.nil_append, read,
        base64Loop_padding, firstByte, secondByte, UInt8.ofNat_toNat]
  | first :: second :: third :: rest, padding, writer, reader, retval => by
      obtain ⟨one, two, three, four, next, digits, high, middle, low, last⟩ :=
        base64EncodeLoop_three writer first second third rest
      have thirdBound := third.toNat_lt
      have firstByte := byte_of_first second.toNat_lt high middle
      have secondByte := byte_of_second middle (show three.toNat % 64 / 4 = second.toNat % 16 by omega)
      have thirdByte : UInt8.ofNat (three.toNat % 64 * 64 + four.toNat % 64) = third := by
        apply UInt8.toNat_inj.mp
        rw [UInt8.toNat_ofNat']
        omega
      obtain ⟨after, read⟩ := base64Loop_four reader one two three four
        (base64EncodeLoop rest 0 next ++ List.replicate padding 61) retval
      rw [digits, List.cons_append, List.cons_append, List.cons_append, List.cons_append, read,
        base64Loop_encoded rest padding next after _, firstByte, secondByte, thirdByte, UInt8.ofNat_toNat]
      simp

theorem base64Decode_encode {bindata ascdata : Bytes} (encoded : base64Encode bindata = .ok ascdata) :
    base64Decode ascdata = .ok bindata := by
  unfold base64Encode at encoded
  split at encoded
  · cases encoded
  · cases encoded
    exact base64Loop_encoded bindata _ 0 0 []

theorem base64EncodeLoop_length : (bindata : Bytes) → (writer : UInt32) →
    (base64EncodeLoop bindata 0 writer).length = (4 * bindata.length + 2) / 3
  | [], writer => by simp [base64EncodeLoop]
  | [first], writer => by
      obtain ⟨one, two, digits, _⟩ := base64EncodeLoop_one writer first
      simp [digits]
  | [first, second], writer => by
      obtain ⟨one, two, three, digits, _⟩ := base64EncodeLoop_two writer first second
      simp [digits]
  | first :: second :: third :: rest, writer => by
      obtain ⟨one, two, three, four, next, digits, _⟩ :=
        base64EncodeLoop_three writer first second third rest
      have later := base64EncodeLoop_length rest next
      simp only [digits, List.length_cons]
      omega

theorem padding_length (size : Nat) :
    (size + 2) / 3 * 4 = (4 * size + 2) / 3 + (3 - size % 3) % 3 := by
  have remainder : size % 3 = 0 ∨ size % 3 = 1 ∨ size % 3 = 2 := by omega
  rcases remainder with none | one | two
  · rw [none]
    omega
  · rw [one]
    omega
  · rw [two]
    omega

theorem base64Encode_eq {bindata ascdata : Bytes} (encoded : base64Encode bindata = .ok ascdata) :
    ascdata = base64EncodeLoop bindata 0 0 ++ List.replicate ((3 - bindata.length % 3) % 3) 61 := by
  have fill : (bindata.length + 2) / 3 * 4 - (base64EncodeLoop bindata 0 0).length =
      (3 - bindata.length % 3) % 3 := by
    rw [base64EncodeLoop_length, padding_length, Nat.add_sub_cancel_left]
  unfold base64Encode at encoded
  split at encoded
  · cases encoded
  · cases encoded
    simp only [fill]

theorem base64Encode_length {bindata ascdata : Bytes} (encoded : base64Encode bindata = .ok ascdata) :
    ascdata.length = 4 * ((bindata.length + 2) / 3) := by
  rw [base64Encode_eq encoded, List.length_append, List.length_replicate, base64EncodeLoop_length,
    ← padding_length, Nat.mul_comm]

theorem base64Digits_symbols (accumulator : UInt32) (bits : Nat) :
    ∀ symbol ∈ (base64Digits accumulator bits).1, ∃ value, symbol = base64Symbol value := by
  fun_induction base64Digits accumulator bits with
  | case1 bits ih => simp_all
  | case2 bits small => simp

theorem base64EncodeLoop_symbols (bindata : Bytes) (bits : Nat) (accumulator : UInt32) :
    ∀ symbol ∈ base64EncodeLoop bindata bits accumulator, ∃ value, symbol = base64Symbol value := by
  induction bindata generalizing bits accumulator with
  | nil =>
      intro symbol member
      unfold base64EncodeLoop at member
      split at member
      · exact ⟨_, List.mem_singleton.mp member⟩
      · cases member
  | cons first rest ih =>
      intro symbol member
      rcases List.mem_append.mp member with here | later
      · exact base64Digits_symbols ((accumulator <<< 8) ||| first.toUInt32) (bits + 8) symbol here
      · exact ih _ _ symbol later

theorem base64Encode_symbols {bindata ascdata : Bytes} (encoded : base64Encode bindata = .ok ascdata) :
    ∀ symbol ∈ ascdata, symbol ≠ 0 ∧ symbol ≠ 32 := by
  rw [base64Encode_eq encoded]
  intro symbol member
  rcases List.mem_append.mp member with digit | padding
  · obtain ⟨value, rfl⟩ := base64EncodeLoop_symbols _ _ _ symbol digit
    obtain ⟨_, _, _, space, zero⟩ := base64Value_symbol value
    exact ⟨zero, space⟩
  · obtain ⟨_, rfl⟩ := List.mem_replicate.mp padding
    decide

theorem base64Symbol_mem (accumulator : UInt32) : base64Symbol accumulator ∈ base64Table := by
  have entries : base64Table.length = 64 := by decide +kernel
  have inside : (accumulator &&& 63).toNat < base64Table.length := by
    rw [digit_toNat, entries]
    omega
  rw [base64Symbol, List.getD_eq_getElem?_getD, List.getElem?_eq_getElem inside, Option.getD_some]
  exact List.getElem_mem inside

theorem base64Loop_filter (text : Bytes) (bits : Nat) (accumulator : UInt32) (retval : Bytes) :
    base64Loop (text.filter (fun symbol => !isspace symbol)) bits accumulator retval =
      base64Loop text bits accumulator retval := by
  induction text generalizing bits accumulator retval with
  | nil => rfl
  | cons symbol rest ih =>
      cases space : isspace symbol with
      | true =>
          rw [List.filter_cons_of_neg (by simp [space]), ih]
          simp only [base64Loop, space, Bool.true_or, if_true]
      | false =>
          rw [List.filter_cons_of_pos (by simp [space])]
          simp only [base64Loop, ih]

/-- What the encoder writes, and that the decoder undoes it, with white space in it or
without. -/
theorem base64_round_trip (bindata : Bytes) (fits : bindata.length ≤ (Word.base - 1) / 4 * 3) :
    ∃ symbols ascdata, base64Encode bindata = .ok ascdata ∧
      ascdata.length = 4 * ((bindata.length + 2) / 3) ∧
      ascdata = symbols ++ List.replicate ((3 - bindata.length % 3) % 3) 61 ∧
      (∀ symbol ∈ symbols, symbol ∈ base64Table) ∧
      base64Decode ascdata = .ok bindata ∧
      ∀ spaced : Bytes, spaced.filter (fun symbol => !isspace symbol) = ascdata →
        base64Decode spaced = .ok bindata := by
  obtain ⟨ascdata, encoded⟩ : ∃ ascdata, base64Encode bindata = .ok ascdata :=
    ⟨_, if_neg (Nat.not_lt.mpr fits)⟩
  have read := base64Decode_encode encoded
  refine ⟨base64EncodeLoop bindata 0 0, ascdata, encoded, base64Encode_length encoded,
    base64Encode_eq encoded, ?_, read, ?_⟩
  · intro symbol member
    obtain ⟨value, rfl⟩ := base64EncodeLoop_symbols bindata 0 0 symbol member
    exact base64Symbol_mem value
  · intro spaced inserted
    rw [base64Decode, ← base64Loop_filter, inserted]
    exact read

theorem base64_round_trip_two :
    base64Encode [255, 0] = .ok (ascii "/wA=") ∧ base64Decode (ascii " /w\nA =") = .ok [255, 0] := by
  obtain ⟨symbols, ascdata, encoded, _, _, _, _, spaced⟩ := base64_round_trip [255, 0] (by decide)
  have text : base64Encode [255, 0] = .ok (ascii "/wA=") := by decide +kernel
  rw [text] at encoded
  exact ⟨text, spaced (ascii " /w\nA =") ((by decide +kernel : _ = ascii "/wA=").trans (Except.ok.inj encoded))⟩

end HashUtils

end FastcgiContainer
