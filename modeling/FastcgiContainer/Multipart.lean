import FastcgiContainer.Parser

/-! Multipart parsing on plain bytes, without buffers: what `Parser` computes when
every trim takes away the white space around a piece. Pieces carry their storage
position, which nothing but the conditions on a storage looks at. -/

namespace FastcgiContainer.Multipart

open Word (Bytes)
open StringUtils (NamedValue)
open FastcgiContainer.Parser (returnRN returnN emptyLineRNRN emptyLineNN minusPair malformed)

structure Piece where
  pos : Nat
  bytes : Bytes
  deriving DecidableEq, Repr

structure FormFile where
  name : Bytes
  type : Bytes
  content : Bytes
  deriving DecidableEq, Repr

structure Form where
  args : List NamedValue
  files : List (Bytes × FormFile)
  deriving DecidableEq, Repr

structure PartNames where
  name : Bytes
  filename : Bytes
  type : Bytes
  deriving DecidableEq, Repr

def isTypeKey (key : Bytes) : Bool := key.map tolower == (ascii "CONTENT_TYPE").map tolower

theorem isTypeKey_long {key : Bytes} (long : 13 ≤ key.length) : isTypeKey key = false := by
  unfold isTypeKey
  rw [beq_eq_false_iff_ne]
  intro same
  have lengths := congrArg List.length same
  rw [List.length_map] at lengths
  rw [lengths] at long
  exact absurd long (by decide)

def parseParameter (head : Bytes) (found : PartNames) : PartNames :=
  let (_, key, value) := Range.split head [61]
  if key = ascii "name" then { found with name := Range.trimn value 1 1 }
  else if key = ascii "filename" then { found with filename := Range.trimn value 1 1 }
  else if isTypeKey key then { found with type := Range.trim value }
  else found

def parseLine : Nat → Bytes → PartNames → PartNames
  | 0, _, found => found
  | fuel + 1, line, found =>
      if line.isEmpty then found
      else
        let (_, head, tail) := Range.split line [59]
        parseLine fuel (Range.trim tail) (parseParameter head found)

/-- The pieces that `parseLine` trims: the value of a type, and what follows a semicolon. -/
def lineTrims : Nat → Piece → List Piece
  | 0, _ => []
  | fuel + 1, line =>
      if line.bytes.isEmpty then []
      else
        let (_, head, tail) := Range.split line.bytes [59]
        let (_, key, value) := Range.split head [61]
        let rest : Piece := ⟨line.pos + head.length + 1, tail⟩
        (if isTypeKey key then [⟨line.pos + key.length + 1, value⟩] else []) ++ rest ::
          lineTrims fuel ⟨rest.pos + Range.lead tail, Range.trim tail⟩

def splitEither (text delim other : Bytes) : Bytes × Bytes :=
  let (found, first, second) := Range.split text delim
  if found then (first, second) else (Range.split text other).2

def splitLine (text : Bytes) : Bytes × Bytes := splitEither text returnRN returnN

def folded (line : Bytes) : Bool :=
  Range.startsWith line (ascii " ") || Range.startsWith line [9]

/-- Where the first header line ends and where the next one starts, folded lines
being part of the line before them. -/
def foldLine (headers : Bytes) : Nat → Nat → Nat → Bool → Nat × Nat
  | 0, length, next, _ => (length, next)
  | fuel + 1, length, next, lineFound =>
      if (headers.drop next).isEmpty then (length, next)
      else
        let (subline, subtail) := splitLine (headers.drop next)
        if folded subline || !lineFound then
          foldLine headers fuel (next + subline.length) (headers.length - subtail.length) true
        else (length, next)

def headerLines : Nat → Piece → List Piece
  | 0, _ => []
  | fuel + 1, headers =>
      if headers.bytes.isEmpty then []
      else
        let (length, next) := foldLine headers.bytes headers.bytes.length 0 0 false
        ⟨headers.pos, headers.bytes.take length⟩ ::
          headerLines fuel ⟨headers.pos + next, headers.bytes.drop next⟩

def splitPart (part : Bytes) : Bytes × Bytes := splitEither part emptyLineRNRN emptyLineNN

def partLines (part : Piece) : List Piece :=
  headerLines (splitPart part.bytes).1.length ⟨part.pos, (splitPart part.bytes).1⟩

/-- The pieces that are trimmed while the headers of a part are read. -/
def partTrims (part : Piece) : List Piece :=
  (partLines part).flatMap (fun line => lineTrims line.bytes.length line)

def partNames (part : Bytes) : PartNames :=
  ((partLines ⟨0, part⟩).map Piece.bytes).foldl (fun found line => parseLine line.length line found)
    ⟨[], [], []⟩

def parsePart (form : Form) (part : Bytes) : Form :=
  let found := partNames part
  let content := (splitPart part).2
  if found.name.isEmpty then form
  else if !found.filename.isEmpty then
    let file : FormFile := ⟨found.filename, found.type, content⟩
    { form with files := OrderedMap.placeEntry stringLess false found.name file form.files }
  else { form with args := form.args ++ [(found.name, content)] }

def stripReturns (head : Piece) : Option Piece :=
  let front : Option Piece :=
    if Range.endsWith head.bytes returnRN then some ⟨head.pos, Range.trimn head.bytes 0 2⟩
    else if Range.endsWith head.bytes returnN then some ⟨head.pos, Range.trimn head.bytes 0 1⟩
    else none
  front.bind fun piece =>
    if Range.startsWith piece.bytes returnRN then some ⟨piece.pos + 2, Range.trimn piece.bytes 2 0⟩
    else if Range.startsWith piece.bytes returnN then
      some ⟨piece.pos + 1, Range.trimn piece.bytes 1 0⟩
    else none

def cutPart (found : Bool) (head : Piece) : Option Piece :=
  if found && !head.bytes.isEmpty then stripReturns head else some head

/-- The parts of a body up to the end or to the first malformed one, and whether
the end was reached. -/
def parts (boundary : Bytes) : Nat → Piece → List Piece × Bool
  | 0, _ => ([], true)
  | fuel + 1, data =>
      if data.bytes.isEmpty then ([], true)
      else
        let (found, head, tail) := Range.split data.bytes boundary
        match cutPart found ⟨data.pos, head⟩ with
        | none => ([], false)
        | some part =>
            let rest :=
              if Range.startsWith tail minusPair then ([], true)
              else parts boundary fuel ⟨data.pos + head.length + boundary.length, tail⟩
            (if part.bytes.isEmpty then rest.1 else part :: rest.1, rest.2)

def parse (boundary : Bytes) (data : Bytes) (form : Form) : Except Exn Form :=
  let (found, complete) := parts boundary data.length ⟨0, data⟩
  if complete then .ok ((found.map Piece.bytes).foldl parsePart form)
  else .error malformed

theorem splitEither_cases (text delim other : Bytes) :
    splitEither text delim other = (Range.split text delim).2 ∨
      splitEither text delim other = (Range.split text other).2 := by
  unfold splitEither
  dsimp only
  split
  · exact Or.inl rfl
  · exact Or.inr rfl

section Split

variable (text delim other : Bytes) (first : delim ≠ []) (second : other ≠ [])

theorem splitEither_tail_eq : (splitEither text delim other).2 =
    text.drop (text.length - (splitEither text delim other).2.length) := by
  rcases splitEither_cases text delim other with same | same <;> rw [same] <;>
    exact Range.split_tail_eq text _

include first second

theorem splitEither_bounds : (splitEither text delim other).1.length +
    (splitEither text delim other).2.length ≤ text.length := by
  have left := Range.split_inside text delim first
  have right := Range.split_inside text other second
  rcases splitEither_cases text delim other with same | same <;> rw [same]
  · rcases left.2 with none | room
    · simpa [none] using left.1
    · omega
  · rcases right.2 with none | room
    · simpa [none] using right.1
    · omega

theorem splitEither_tail_length (filled : text ≠ []) :
    (splitEither text delim other).2.length < text.length := by
  rcases splitEither_cases text delim other with same | same <;> rw [same]
  · exact Range.split_tail_length text delim first filled
  · exact Range.split_tail_length text other second filled

end Split

theorem splitLine_bounds (text : Bytes) :
    (splitLine text).1.length + (splitLine text).2.length ≤ text.length :=
  splitEither_bounds text returnRN returnN (by simp [returnRN]) (by simp [returnN])

theorem splitLine_tail_length (text : Bytes) (filled : text ≠ []) :
    (splitLine text).2.length < text.length :=
  splitEither_tail_length text returnRN returnN (by simp [returnRN]) (by simp [returnN]) filled

theorem foldLine_bounds (headers : Bytes) (fuel length next : Nat) (lineFound : Bool)
    (short : length ≤ headers.length) (inside : next ≤ headers.length)
    (enough : headers.length - next ≤ fuel) :
    (foldLine headers fuel length next lineFound).1 ≤ headers.length ∧
      next ≤ (foldLine headers fuel length next lineFound).2 ∧
      (foldLine headers fuel length next lineFound).2 ≤ headers.length ∧
      (lineFound = false → next < headers.length →
        next < (foldLine headers fuel length next lineFound).2) ∧
      (headers.drop (foldLine headers fuel length next lineFound).2 = [] ∨
        folded (splitLine (headers.drop (foldLine headers fuel length next lineFound).2)).1 =
          false) := by
  induction fuel generalizing length next lineFound with
  | zero =>
      have finished : next = headers.length := by omega
      simp only [foldLine]
      exact ⟨short, le_refl _, inside, fun _ before => by omega, Or.inl (by simp [finished])⟩
  | succ fuel ih =>
      unfold foldLine
      split
      · next blank =>
          have none := List.isEmpty_iff.mp blank
          have finished := congrArg List.length none
          simp only [List.length_drop, List.length_nil] at finished
          exact ⟨short, le_refl _, inside, fun _ before => by omega, Or.inl none⟩
      · next filled =>
          have bounds := splitLine_bounds (headers.drop next)
          have shorter := splitLine_tail_length (headers.drop next) (by simpa using filled)
          rw [List.length_drop] at bounds shorter
          dsimp only
          split
          · obtain ⟨first, second, third, _, last⟩ := ih (next + (splitLine (headers.drop next)).1.length)
              (headers.length - (splitLine (headers.drop next)).2.length) true (by omega) (by omega)
              (by omega)
            exact ⟨first, by omega, third, fun _ _ => by omega, last⟩
          · next stop =>
              simp only [Bool.or_eq_true, Bool.not_eq_true', not_or, Bool.not_eq_true,
                Bool.not_eq_false] at stop
              refine ⟨short, le_refl _, inside, ?_, Or.inr stop.1⟩
              intro unset
              rw [unset] at stop
              simp at stop

theorem headerLines_bytes (fuel pos other : Nat) (headers : Bytes) :
    (headerLines fuel ⟨pos, headers⟩).map Piece.bytes =
      (headerLines fuel ⟨other, headers⟩).map Piece.bytes := by
  induction fuel generalizing pos other headers with
  | zero => rfl
  | succ fuel ih =>
      unfold headerLines
      dsimp only
      split
      · rfl
      · simp only [List.map_cons]
        rw [ih]

theorem stripReturns_bytes (pos other : Nat) (head : Bytes) :
    (stripReturns ⟨pos, head⟩).map Piece.bytes = (stripReturns ⟨other, head⟩).map Piece.bytes := by
  unfold stripReturns
  dsimp only
  split_ifs <;> simp only [Option.bind_some, Option.bind_none, Option.map_none] <;> split_ifs <;> rfl

theorem cutPart_bytes (found : Bool) (pos other : Nat) (head : Bytes) :
    (cutPart found ⟨pos, head⟩).map Piece.bytes = (cutPart found ⟨other, head⟩).map Piece.bytes := by
  unfold cutPart
  split
  · exact stripReturns_bytes pos other head
  · rfl

theorem parts_bytes (boundary : Bytes) (fuel pos other : Nat) (data : Bytes) :
    (parts boundary fuel ⟨pos, data⟩).1.map Piece.bytes =
        (parts boundary fuel ⟨other, data⟩).1.map Piece.bytes ∧
      (parts boundary fuel ⟨pos, data⟩).2 = (parts boundary fuel ⟨other, data⟩).2 := by
  induction fuel generalizing pos other data with
  | zero => exact ⟨rfl, rfl⟩
  | succ fuel ih =>
      unfold parts
      dsimp only
      split
      · exact ⟨rfl, rfl⟩
      · rcases Range.split data boundary with ⟨found, head, tail⟩
        obtain ⟨restBytes, restEnd⟩ := ih (pos + head.length + boundary.length)
          (other + head.length + boundary.length) tail
        have cut := cutPart_bytes found pos other head
        dsimp only
        cases left : cutPart found ⟨pos, head⟩ with
        | none =>
            cases right : cutPart found ⟨other, head⟩ with
            | none => exact ⟨rfl, rfl⟩
            | some part => simp [left, right] at cut
        | some part =>
            cases right : cutPart found ⟨other, head⟩ with
            | none => simp [left, right] at cut
            | some peer =>
                simp only [left, right, Option.map_some, Option.some.injEq] at cut
                by_cases last : Range.startsWith tail minusPair = true
                · by_cases blank : peer.bytes = [] <;> simp [last, cut, blank]
                · by_cases blank : peer.bytes = [] <;> simp [last, cut, blank, restBytes, restEnd]

end FastcgiContainer.Multipart
