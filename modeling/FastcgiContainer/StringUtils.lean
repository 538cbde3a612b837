import FastcgiContainer.DataBuffer

/-! `StringUtils`: URL encoding and the parsing of query strings, for contiguous
ranges and for buffers. -/

namespace FastcgiContainer.StringUtils

open Word (Bytes)

abbrev NamedValue := Bytes × Bytes

def beginsWith (value lead : Bytes) : Bool :=
  if lead.length > value.length then false else decide (value.take lead.length = lead)

def endsWith (value suffix : Bytes) : Bool :=
  if suffix.length > value.length then false
  else decide (value.drop (value.length - suffix.length) = suffix)

def hexSymbol (value : UInt8) : UInt8 := if value > 9 then value + (65 - 10) else value + 48

def unreserved (symbol : UInt8) : Bool :=
  isalnum symbol || (ascii "-_.!~*()'").contains symbol

def encodeSymbol (symbol : UInt8) : Bytes :=
  if unreserved symbol then [symbol] else [37, hexSymbol (symbol / 16), hexSymbol (symbol % 16)]

def urlencode (range : Bytes) : Bytes := range.flatMap encodeSymbol

/-- The value `urldecode` gives a digit. The source computes in `int` and narrows
the sum to `char`; modulo 256 this is arithmetic on bytes. Any byte is taken. -/
def hexValue (digit : UInt8) : UInt8 :=
  if 65 ≤ digit ∧ digit ≤ 127 then (digit &&& 0xDF) - 65 + 10 else digit - 48

def plainSymbol (symbol : UInt8) : UInt8 := if symbol = 43 then 32 else symbol

/-- An escape needs two symbols after its percent sign; without them the sign
stands for itself. -/
def urldecode : Bytes → Bytes
  | [] => []
  | symbol :: high :: low :: tail =>
      if symbol = 37 then (hexValue high * 16 + hexValue low) :: urldecode tail
      else plainSymbol symbol :: urldecode (high :: low :: tail)
  | symbol :: rest => plainSymbol symbol :: urldecode rest

/-- `urldecode` of a buffer decodes each chunk by itself. -/
def urldecodeBuffer (data : DataBuffer) (heap : Heap) : Except Exn Bytes := do
  let pieces ← data.chunks heap
  .ok (pieces.flatMap urldecode)

/-- The loop of `parse`; a turn consumes at least one symbol. -/
def parseLoop : Nat → Bytes → List NamedValue → List NamedValue
  | 0, _, v => v
  | fuel + 1, tmp, v =>
      if tmp.isEmpty then v
      else
        let (_, head, tail) := Range.splitChar tmp 38
        let (_, key, value) := Range.splitChar head 61
        parseLoop fuel tail (if key.isEmpty then v else v ++ [(urldecode key, urldecode value)])

def parse (range : Bytes) (v : List NamedValue) : List NamedValue := parseLoop range.length range v

def parseBufferLoop (heap : Heap) : Nat → DataBuffer → List NamedValue → Except Exn (List NamedValue)
  | 0, tmp, v => if tmp.empty then .ok v else .error (.undefined "parse does not return")
  | fuel + 1, tmp, v =>
      if tmp.empty then .ok v
      else do
        let (_, head, tail) ← tmp.split heap [38]
        let (_, key, value) ← head.split heap [61]
        if key.empty then parseBufferLoop heap fuel tail v
        else do
          let name ← urldecodeBuffer key heap
          let content ← urldecodeBuffer value heap
          parseBufferLoop heap fuel tail (v ++ [(name, content)])

def parseBuffer (data : DataBuffer) (heap : Heap) (v : List NamedValue) :
    Except Exn (List NamedValue) :=
  parseBufferLoop heap data.size data v

theorem encodeSymbol_length (symbol : UInt8) :
    (encodeSymbol symbol).length = if unreserved symbol then 1 else 3 := by
  unfold encodeSymbol
  split <;> rfl

theorem urlencode_length (range : Bytes) : range.length ≤ (urlencode range).length := by
  induction range with
  | nil => simp
  | cons symbol rest ih =>
      have front := encodeSymbol_length symbol
      have split : urlencode (symbol :: rest) = encodeSymbol symbol ++ urlencode rest := rfl
      rw [split, List.length_append, List.length_cons, front]
      split_ifs <;> omega

theorem urlencode_grows (range : Bytes) (symbol : UInt8) (member : symbol ∈ range)
    (reserved : unreserved symbol = false) : range.length < (urlencode range).length := by
  induction range with
  | nil => simp at member
  | cons head rest ih =>
      have front := encodeSymbol_length head
      have tail := urlencode_length rest
      have split : urlencode (head :: rest) = encodeSymbol head ++ urlencode rest := rfl
      rw [split, List.length_append, List.length_cons, front]
      rcases List.mem_cons.mp member with rfl | later
      · rw [if_neg (by simp [reserved])]
        omega
      · have grown := ih later
        split_ifs <;> omega

end FastcgiContainer.StringUtils
