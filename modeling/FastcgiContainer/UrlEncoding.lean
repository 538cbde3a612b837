import FastcgiContainer.FormDecoding

/-! URL encoding is undone by decoding, and leaves no separator in the encoded text; so a
query string that is made of encoded pairs is parsed into these pairs. -/

namespace FastcgiContainer.StringUtils

open Word (Bytes)

def encoded (symbol : UInt8) : Bool := unreserved symbol || symbol == 37

theorem forall_byte {holds : UInt8 → Prop} (all : ∀ number : Fin 256, holds (UInt8.ofNat number.val)) :
    ∀ symbol, holds symbol := by
  intro symbol
  have here := all ⟨symbol.toNat, symbol.toNat_lt⟩
  rwa [UInt8.ofNat_toNat] at here

theorem hexSymbol_unreserved : ∀ symbol : UInt8,
    unreserved (hexSymbol (symbol / 16)) = true ∧ unreserved (hexSymbol (symbol % 16)) = true := by
  apply forall_byte
  decide +kernel

theorem hexValue_hexSymbol : ∀ symbol : UInt8,
    hexValue (hexSymbol (symbol / 16)) * 16 + hexValue (hexSymbol (symbol % 16)) = symbol := by
  apply forall_byte
  decide +kernel

theorem unreserved_plain : ∀ symbol : UInt8,
    unreserved symbol = true → symbol ≠ 37 ∧ plainSymbol symbol = symbol := by
  apply forall_byte
  decide +kernel

theorem encoded_plain : ∀ symbol : UInt8, encoded symbol = true →
    symbol ≠ 38 ∧ symbol ≠ 61 ∧ symbol ≠ 59 ∧ isspace symbol = false := by
  apply forall_byte
  decide +kernel

theorem encodeSymbol_encoded (symbol : UInt8) : ∀ other ∈ encodeSymbol symbol, encoded other = true := by
  intro other member
  have digits := hexSymbol_unreserved symbol
  unfold encodeSymbol at member
  split at member
  · next kept =>
      rw [List.mem_singleton.mp member, encoded, kept, Bool.true_or]
  · simp only [List.mem_cons, List.not_mem_nil, or_false] at member
    rcases member with rfl | rfl | rfl
    · decide +kernel
    · rw [encoded, digits.1, Bool.true_or]
    · rw [encoded, digits.2, Bool.true_or]

theorem urlencode_encoded (text : Bytes) : ∀ symbol ∈ urlencode text, encoded symbol = true := by
  intro symbol member
  obtain ⟨origin, _, inside⟩ := List.mem_flatMap.mp member
  exact encodeSymbol_encoded origin symbol inside

theorem not_mem_urlencode (text : Bytes) :
    (38 : UInt8) ∉ urlencode text ∧ (61 : UInt8) ∉ urlencode text ∧ (59 : UInt8) ∉ urlencode text := by
  have plain := fun symbol member => encoded_plain symbol (urlencode_encoded text symbol member)
  exact ⟨fun member => (plain 38 member).1 rfl, fun member => (plain 61 member).2.1 rfl,
    fun member => (plain 59 member).2.2.1 rfl⟩

theorem urlencode_eq_nil (text : Bytes) : urlencode text = [] ↔ text = [] := by
  constructor
  · intro none
    have short := urlencode_length text
    rw [none] at short
    exact List.eq_nil_of_length_eq_zero (Nat.le_zero.mp short)
  · rintro rfl
    rfl

theorem urldecode_encodeSymbol (symbol : UInt8) (rest : Bytes) :
    urldecode (encodeSymbol symbol ++ rest) = symbol :: urldecode rest := by
  unfold encodeSymbol
  split
  · next kept =>
      have plain := unreserved_plain symbol kept
      rw [List.singleton_append, (head_plain symbol rest (Or.inl plain.1)).1, plain.2]
  · rw [List.cons_append, List.cons_append, List.cons_append, List.nil_append,
      (head_escape _ _ rest).1, hexValue_hexSymbol]

theorem urldecode_urlencode (text : Bytes) : urldecode (urlencode text) = text := by
  induction text with
  | nil => rfl
  | cons symbol rest ih =>
      calc urldecode (urlencode (symbol :: rest))
          = urldecode (encodeSymbol symbol ++ urlencode rest) := rfl
        _ = symbol :: urldecode (urlencode rest) := urldecode_encodeSymbol symbol (urlencode rest)
        _ = symbol :: rest := by rw [ih]

/-- One pair of a query string. -/
def segment (pair : NamedValue) : Bytes := urlencode pair.1 ++ 61 :: urlencode pair.2

def queryString (pairs : List NamedValue) : Bytes := [38].intercalate (pairs.map segment)

theorem queryString_cons (pair : NamedValue) (rest : List NamedValue) (more : rest ≠ []) :
    queryString (pair :: rest) = segment pair ++ 38 :: queryString rest := by
  obtain ⟨next, others, rfl⟩ := List.exists_cons_of_ne_nil more
  simp [queryString, List.intercalate]

theorem segment_whole (pair : NamedValue) : (38 : UInt8) ∉ segment pair := by
  unfold segment
  rw [List.mem_append, List.mem_cons]
  rintro (inName | same | inValue)
  · exact (not_mem_urlencode pair.1).1 inName
  · exact absurd same (by decide)
  · exact (not_mem_urlencode pair.2).1 inValue

theorem segment_ne_nil (pair : NamedValue) : segment pair ≠ [] := by simp [segment]

theorem parseLoop_segment (fuel : Nat) (tmp tail : Bytes) (pair : NamedValue) (v : List NamedValue)
    (named : pair.1 ≠ []) (filled : tmp ≠ [])
    (cut : ∃ found, Range.split tmp [38] = (found, segment pair, tail)) :
    parseLoop (fuel + 1) tmp v = parseLoop fuel tail (v ++ [pair]) := by
  obtain ⟨found, cut⟩ := cut
  have present : tmp.isEmpty = false := by simpa using filled
  have key : (urlencode pair.1).isEmpty = false := by
    rw [List.isEmpty_eq_false_iff]
    exact (urlencode_eq_nil pair.1).not.mpr named
  have inner : Range.split (segment pair) [61] = (true, urlencode pair.1, urlencode pair.2) :=
    Range.split_symbol _ 61 _ (not_mem_urlencode pair.1).2.1
  simp only [parseLoop, present, Range.splitChar_eq_split, cut, inner, key, urldecode_urlencode,
    Bool.false_eq_true, if_false]

theorem parseLoop_queryString (pairs : List NamedValue) (named : ∀ pair ∈ pairs, pair.1 ≠ []) (fuel : Nat)
    (v : List NamedValue) (enough : (queryString pairs).length ≤ fuel) :
    parseLoop fuel (queryString pairs) v = v ++ pairs := by
  induction pairs generalizing fuel v with
  | nil =>
      cases fuel with
      | zero => simp [parseLoop]
      | succ fuel => simp [parseLoop, queryString, List.intercalate]
  | cons pair rest ih =>
      have first : pair.1 ≠ [] := named pair List.mem_cons_self
      have others : ∀ other ∈ rest, other.1 ≠ [] :=
        fun other member => named other (List.mem_cons_of_mem pair member)
      have positive := List.length_pos_of_ne_nil (segment_ne_nil pair)
      by_cases last : rest = []
      · subst last
        have alone : queryString [pair] = segment pair := by simp [queryString]
        rw [alone] at enough ⊢
        obtain ⟨less, rfl⟩ := Nat.exists_eq_succ_of_ne_zero (Nat.pos_iff_ne_zero.mp (by omega : 0 < fuel))
        rw [parseLoop_segment less _ [] pair v first (segment_ne_nil pair)
          ⟨false, Range.split_missing 38 [] _ (segment_whole pair)⟩]
        have stop := ih others less (v ++ [pair]) (Nat.zero_le _)
        rwa [List.append_assoc] at stop
      · have joined := queryString_cons pair rest last
        rw [joined] at enough ⊢
        rw [List.length_append, List.length_cons] at enough
        obtain ⟨less, rfl⟩ := Nat.exists_eq_succ_of_ne_zero (Nat.pos_iff_ne_zero.mp (by omega : 0 < fuel))
        rw [parseLoop_segment less _ (queryString rest) pair v first (by simp [segment])
          ⟨true, Range.split_symbol _ 38 _ (segment_whole pair)⟩, ih others less _ (by omega),
          List.append_assoc]
        rfl

/-- Decoding undoes encoding, and the pairs of a query string are read back in their order. -/
theorem parse_undoes_urlencode :
    (∀ text, urldecode (urlencode text) = text) ∧
      ∀ (pairs v : List NamedValue), (∀ pair ∈ pairs, pair.1 ≠ []) →
        parse (queryString pairs) v = v ++ pairs :=
  ⟨urldecode_urlencode, fun pairs v named => parseLoop_queryString pairs named _ v (le_refl _)⟩

theorem parse_undoes_urlencode_separators :
    parse (queryString [([0, 38, 255], [37, 43, 61]), ([97], [])]) [] =
      [([0, 38, 255], [37, 43, 61]), ([97], [])] :=
  parse_undoes_urlencode.2 [([0, 38, 255], [37, 43, 61]), ([97], [])] [] (by decide)

end FastcgiContainer.StringUtils
