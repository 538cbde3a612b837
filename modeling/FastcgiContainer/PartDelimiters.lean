import FastcgiContainer.PartIsolation

/-! Which parts of a body `Parser::parseMultipart` takes its arguments and files from:
those between two boundaries, and two more, the text before the first boundary and the
text behind the last one. -/

namespace FastcgiContainer

open Word (Bytes)
open StringUtils (NamedValue)

inductive Addition where
  | arg (arg : NamedValue)
  | file (name : Bytes) (file : File)
  deriving DecidableEq

def Request.add (request : Request) : Addition → Request
  | .arg arg => { request with args := request.args ++ [arg] }
  | .file name file => { request with files := request.files.insert name file }

namespace Parser

/-- `parsePart` without the request: a part adds an argument, a file or nothing. -/
def addition (heap : Heap) (part : DataBuffer) : Except Exn (Option Addition) := do
  let (headers, content) ← splitEither part heap emptyLineRNRN emptyLineNN
  let found ← parseHeaders part heap headers.size headers ⟨.nil, .nil, .nil⟩
  if found.name.empty then .ok none
  else do
    let name ← found.name.toBytes heap
    if found.filename.empty then do
      let arg ← content.toBytes heap
      .ok (some (.arg (name, arg)))
    else do
      let file ← File.ofBuffers heap found.filename found.type content
      .ok (some (.file name file))

theorem parsePart_eq (request : Request) (heap : Heap) (part : DataBuffer) :
    parsePart request heap part =
      (addition heap part).map (fun added => added.elim request request.add) := by
  unfold parsePart addition
  cases splitEither part heap emptyLineRNRN emptyLineNN with
  | error exn => rfl
  | ok halves =>
      obtain ⟨headers, content⟩ := halves
      simp only [ok_bind]
      cases parseHeaders part heap headers.size headers ⟨.nil, .nil, .nil⟩ with
      | error exn => rfl
      | ok found =>
          simp only [ok_bind]
          split
          · rfl
          · cases found.name.toBytes heap with
            | error exn => rfl
            | ok name =>
                simp only [ok_bind]
                split
                · cases content.toBytes heap with
                  | error exn => rfl
                  | ok arg => rfl
                · cases File.ofBuffers heap found.filename found.type content with
                  | error exn => rfl
                  | ok file => rfl

theorem addition_returns {heap : Heap} {ref : Nat} {storage : DataBufferImpl} {part : DataBuffer}
    (shown : part.Shows heap ref storage) : ∃ added, addition heap part = .ok added := by
  obtain ⟨next, done⟩ := parsePart_returns shown
  rw [parsePart_eq] at done
  cases known : addition heap part with
  | error exn =>
      rw [known] at done
      cases done
  | ok added => exact ⟨added, rfl⟩

structure Taken where
  part : DataBuffer
  added : Addition
  deriving DecidableEq

def nextPart (heap : Heap) (boundary : Bytes) (data : DataBuffer) :
    Except Exn (DataBuffer × DataBuffer) := do
  let (found, head, tail) ← data.split heap boundary
  let part ← cutPart heap found head
  .ok (part, tail)

def taken (heap : Heap) (part : DataBuffer) : Except Exn (List Taken) :=
  if part.empty then .ok []
  else (addition heap part).map (fun added => (added.map (Taken.mk part)).toList)

/-- The loop of `parseMultipart`, run for what it adds, also before it throws. -/
def takenFrom (heap : Heap) (boundary : Bytes) : Nat → DataBuffer → List Taken × Except Exn Unit
  | 0, data =>
      ([], if data.empty then .ok () else .error (.undefined "parseMultipart does not return"))
  | fuel + 1, data =>
      if data.empty then ([], .ok ())
      else
        match nextPart heap boundary data with
        | .error exn => ([], .error exn)
        | .ok (part, tail) =>
            match taken heap part with
            | .error exn => ([], .error exn)
            | .ok added =>
                match tail.startsWith heap minusPair with
                | .error exn => (added, .error exn)
                | .ok true => (added, .ok ())
                | .ok false =>
                    let rest := takenFrom heap boundary fuel tail
                    (added ++ rest.1, rest.2)

def addAll (request : Request) (items : List Taken) : Request :=
  items.foldl (fun current item => current.add item.added) request

theorem addPart_eq (request : Request) (heap : Heap) (part : DataBuffer) :
    addPart request heap part = (taken heap part).map (addAll request) := by
  unfold addPart taken
  split
  · rfl
  · rw [parsePart_eq]
    cases addition heap part with
    | error exn => rfl
    | ok added =>
        cases added with
        | none => rfl
        | some added => rfl

theorem parseMultipartLoop_eq (heap : Heap) (boundary : Bytes) (fuel : Nat) (request : Request)
    (data : DataBuffer) :
    parseMultipartLoop heap boundary fuel request data =
      (takenFrom heap boundary fuel data).2.map
        (fun _ => addAll request (takenFrom heap boundary fuel data).1) := by
  induction fuel generalizing request data with
  | zero =>
      unfold parseMultipartLoop takenFrom
      split <;> rfl
  | succ fuel ih =>
      unfold parseMultipartLoop takenFrom
      split
      · rfl
      · unfold nextPart
        cases data.split heap boundary with
        | error exn => rfl
        | ok halves =>
            obtain ⟨found, head, tail⟩ := halves
            simp only [ok_bind]
            cases cutPart heap found head with
            | error exn => rfl
            | ok part =>
                simp only [ok_bind, addPart_eq]
                cases taken heap part with
                | error exn => rfl
                | ok added =>
                    simp only [Except.map, ok_bind]
                    cases tail.startsWith heap minusPair with
                    | error exn => rfl
                    | ok last =>
                        cases last with
                        | true => rfl
                        | false =>
                            simp only [ok_bind, Bool.false_eq_true, if_false, ih, addAll, List.foldl_append]
                            rfl

end Parser

namespace Multipart

open Search (Occurs search)
open DataBuffer (Denotes)
open FastcgiContainer.Parser (minusPair nextPart taken takenFrom addition_returns)

/-- A part that lies between two occurrences of the boundary in the text of a body. -/
def Delimited (boundary text : Bytes) (body part : DataBuffer) : Prop :=
  ∃ before after, Occurs boundary text before ∧ Occurs boundary text after ∧
    body.beginIndex + before + boundary.length ≤ part.beginIndex ∧
    part.endIndex ≤ body.beginIndex + after

/-- What stands before the first boundary, without its newlines. -/
def preamble (boundary : Bytes) (data : Piece) : Option Piece :=
  let (found, head, _) := Range.split data.bytes boundary
  if found then cutPart true ⟨data.pos, head⟩ else none

/-- What stands behind the last boundary, unless a boundary with two dashes behind it or
a malformed part comes before. -/
def unterminated (boundary : Bytes) : Nat → Piece → Option Piece
  | 0, _ => none
  | fuel + 1, data =>
      if data.bytes.isEmpty then none
      else
        let (found, head, tail) := Range.split data.bytes boundary
        if found then
          if (cutPart true ⟨data.pos, head⟩).isNone || Range.startsWith tail minusPair then none
          else unterminated boundary fuel ⟨data.pos + head.length + boundary.length, tail⟩
        else some data

def Silent (heap : Heap) (ref : Nat) (piece : Piece) : Prop :=
  taken heap ⟨some ref, piece.pos, piece.pos + piece.bytes.length⟩ = .ok []

theorem unterminated_missing (fuel pos : Nat) {boundary text : Bytes} (filled : text ≠ [])
    (missing : search boundary text = text.length) :
    unterminated boundary (fuel + 1) ⟨pos, text⟩ = some ⟨pos, text⟩ := by
  simp only [unterminated, List.isEmpty_iff, filled, if_false, Range.split_eq, missing, if_true,
    Bool.false_eq_true]

theorem unterminated_found (fuel pos : Nat) {boundary text : Bytes} (filled : text ≠ [])
    (found : search boundary text < text.length) :
    unterminated boundary (fuel + 1) ⟨pos, text⟩ =
      if (cutPart true ⟨pos, text.take (search boundary text)⟩).isNone ||
          Range.startsWith (text.drop (search boundary text + boundary.length)) minusPair then none
      else unterminated boundary fuel ⟨pos + (search boundary text + boundary.length),
        text.drop (search boundary text + boundary.length)⟩ := by
  simp only [unterminated, List.isEmpty_iff, filled, if_false, Range.split_eq, found.ne, if_true,
    List.length_take, Nat.min_eq_left found.le, Nat.add_assoc]

theorem stripReturns_inside {head piece : Piece} (cut : stripReturns head = some piece) :
    head.pos ≤ piece.pos ∧ piece.pos + piece.bytes.length ≤ head.pos + head.bytes.length := by
  unfold stripReturns at cut
  obtain ⟨front, back, cut⟩ := Option.bind_eq_some_iff.mp cut
  have inner : front.pos = head.pos ∧ front.bytes.length ≤ head.bytes.length := by
    split_ifs at back with windows unix
    · obtain rfl := Option.some.inj back
      refine ⟨rfl, ?_⟩
      simp only [Range.trimn, List.length_take, List.length_drop]
      omega
    · obtain rfl := Option.some.inj back
      refine ⟨rfl, ?_⟩
      simp only [Range.trimn, List.length_take, List.length_drop]
      omega
  split_ifs at cut with windows unix
  · have room := startsWith_length windows
    obtain rfl := Option.some.inj cut
    simp only [Parser.returnRN, List.length_cons, List.length_nil, Range.trimn, List.length_take,
      List.length_drop] at room ⊢
    omega
  · have room := startsWith_length unix
    obtain rfl := Option.some.inj cut
    simp only [Parser.returnN, List.length_cons, List.length_nil, Range.trimn, List.length_take,
      List.length_drop] at room ⊢
    omega

theorem cutPart_inside {found : Bool} {head piece : Piece} (cut : cutPart found head = some piece) :
    head.pos ≤ piece.pos ∧ piece.pos + piece.bytes.length ≤ head.pos + head.bytes.length := by
  unfold cutPart at cut
  split at cut
  · exact stripReturns_inside cut
  · obtain rfl := Option.some.inj cut
    exact ⟨le_refl _, le_refl _⟩

section Loop

variable {heap : Heap} {ref : Nat} {storage : DataBufferImpl}

theorem taken_piece {part : DataBuffer} {piece : Piece}
    (denotes : Denotes heap part ref storage piece.pos piece.bytes) :
    taken heap part = .ok [] ↔ Silent heap ref piece := by
  by_cases blank : piece.bytes = []
  · have here : taken heap part = .ok [] := by rw [taken, if_pos (denotes.empty_iff.mpr blank)]
    have there : Silent heap ref piece := by simp [Silent, taken, blank, DataBuffer.empty]
    exact ⟨fun _ => there, fun _ => here⟩
  · have same : part = ⟨some ref, piece.pos, piece.pos + piece.bytes.length⟩ := by
      rw [← denotes.shown.data, ← denotes.endIndex_eq blank, ← denotes.start blank]
    rw [Silent, ← same]

theorem taken_returns {part : DataBuffer} (shown : part.Shows heap ref storage) :
    ∃ added, taken heap part = .ok added ∧ ∀ item ∈ added, item.part = part ∧ ¬ part.empty = true := by
  unfold taken
  split
  · exact ⟨[], rfl, by simp⟩
  · next filled =>
      obtain ⟨added, done⟩ := addition_returns shown
      rw [done]
      refine ⟨_, rfl, ?_⟩
      cases added with
      | none => simp
      | some added => simp [filled]

theorem nextPart_found {boundary : Bytes} (marked : boundary ≠ []) {data : DataBuffer} {pos : Nat}
    {text : Bytes} (denotes : Denotes heap data ref storage pos text)
    (found : search boundary text ≠ text.length) :
    match cutPart true ⟨pos, text.take (search boundary text)⟩ with
    | none => ∃ exn, nextPart heap boundary data = .error exn
    | some piece => ∃ part tail, nextPart heap boundary data = .ok (part, tail) ∧
        Denotes heap part ref storage piece.pos piece.bytes ∧
        Denotes heap tail ref storage (pos + (search boundary text + boundary.length))
          (text.drop (search boundary text + boundary.length)) := by
  have halves := Range.split_eq text boundary
  rw [if_neg found] at halves
  have short := Search.search_le boundary text
  obtain ⟨head, tail, cut, headDenotes, tailDenotes, _⟩ := denotes.split boundary marked
  rw [halves] at cut headDenotes tailDenotes
  simp only [List.length_take, Nat.min_eq_left short, Nat.add_assoc] at tailDenotes
  have peeled := cutPart_refines true headDenotes
  cases known : cutPart true ⟨pos, text.take (search boundary text)⟩ with
  | none =>
      simp only [known] at peeled
      exact ⟨Parser.malformed, by simp only [nextPart, cut, ok_bind, peeled, error_bind]⟩
  | some piece =>
      simp only [known] at peeled
      obtain ⟨part, made, partDenotes⟩ := peeled
      exact ⟨part, tail, by simp only [nextPart, cut, ok_bind, made], partDenotes, tailDenotes⟩

theorem takenFrom_found (fuel : Nat) {boundary : Bytes} (marked : boundary ≠ []) {data : DataBuffer}
    {pos : Nat} {text : Bytes} (denotes : Denotes heap data ref storage pos text) (filled : text ≠ [])
    (found : search boundary text ≠ text.length) :
    match cutPart true ⟨pos, text.take (search boundary text)⟩ with
    | none => (takenFrom heap boundary (fuel + 1) data).1 = []
    | some piece => ∃ part tail added,
        Denotes heap part ref storage piece.pos piece.bytes ∧
        Denotes heap tail ref storage (pos + (search boundary text + boundary.length))
          (text.drop (search boundary text + boundary.length)) ∧
        taken heap part = .ok added ∧ (∀ item ∈ added, item.part = part ∧ ¬ part.empty = true) ∧
        (takenFrom heap boundary (fuel + 1) data).1 =
          added ++ (if Range.startsWith (text.drop (search boundary text + boundary.length)) minusPair
            then [] else (takenFrom heap boundary fuel tail).1) := by
  have notNil : ¬ data.empty = true := fun none => filled (denotes.empty_iff.mp none)
  have step := nextPart_found marked denotes found
  cases cut : cutPart true ⟨pos, text.take (search boundary text)⟩ with
  | none =>
      simp only [cut] at step
      obtain ⟨exn, failed⟩ := step
      simp only [takenFrom, if_neg notNil, failed]
  | some piece =>
      simp only [cut] at step
      obtain ⟨part, tail, next, partDenotes, tailDenotes⟩ := step
      obtain ⟨added, took, parts⟩ := taken_returns partDenotes.shown
      refine ⟨part, tail, added, partDenotes, tailDenotes, took, parts, ?_⟩
      simp only [takenFrom, if_neg notNil, next, took, tailDenotes.startsWith]
      cases Range.startsWith (text.drop (search boundary text + boundary.length)) minusPair with
      | true => simp
      | false => simp

theorem nextPart_missing {boundary : Bytes} (marked : boundary ≠ []) {data : DataBuffer} {pos : Nat}
    {text : Bytes} (denotes : Denotes heap data ref storage pos text)
    (missing : search boundary text = text.length) :
    ∃ part tail, nextPart heap boundary data = .ok (part, tail) ∧
      Denotes heap part ref storage pos text ∧ tail.empty = true ∧
      tail.startsWith heap minusPair = .ok false := by
  have halves := Range.split_eq text boundary
  rw [if_pos missing] at halves
  obtain ⟨head, tail, cut, headDenotes, tailDenotes, _⟩ := denotes.split boundary marked
  rw [halves] at cut headDenotes tailDenotes
  refine ⟨head, tail, ?_, headDenotes, tailDenotes.empty_iff.mpr rfl, tailDenotes.startsWith minusPair⟩
  simp only [nextPart, cut, ok_bind, Parser.cutPart, Bool.false_and]
  rfl

variable {boundary text : Bytes} {body : DataBuffer}

theorem delimited_between {part : DataBuffer} {piece : Piece} {skip : Nat}
    (partDenotes : Denotes heap part ref storage piece.pos piece.bytes) (filled : ¬ part.empty = true)
    (opened : ∃ before, Occurs boundary text before ∧ before + boundary.length ≤ skip)
    (found : search boundary (text.drop skip) < (text.drop skip).length)
    (cut : cutPart true ⟨body.beginIndex + skip, (text.drop skip).take (search boundary (text.drop skip))⟩ =
      some piece) :
    Delimited boundary text body part := by
  obtain ⟨before, occurs, room⟩ := opened
  obtain ⟨start, stop⟩ := cutPart_inside cut
  have some : piece.bytes ≠ [] := fun none => filled (partDenotes.empty_iff.mpr none)
  have here := Search.search_occurs boundary (text.drop skip) found
  rw [Search.occurs_drop] at here
  refine ⟨before, skip + search boundary (text.drop skip), occurs, here, ?_, ?_⟩
  · rw [partDenotes.start some]
    dsimp only at start
    omega
  · rw [partDenotes.endIndex_eq some]
    rw [List.length_take] at stop
    dsimp only at stop
    omega

theorem not_delimited_first {part : DataBuffer}
    (front : part.beginIndex < body.beginIndex + (search boundary text + boundary.length)) :
    ¬ Delimited boundary text body part := by
  rintro ⟨before, after, occurs, _, start, _⟩
  have first := Search.search_first boundary text before
  by_cases earlier : before < search boundary text
  · exact first earlier occurs
  · omega

theorem undelimited_silent {part : DataBuffer} {piece : Piece} {added : List Parser.Taken}
    (denotes : Denotes heap part ref storage piece.pos piece.bytes) (took : taken heap part = .ok added)
    (parts : ∀ item ∈ added, item.part = part ∧ ¬ part.empty = true)
    (never : ¬ part.empty = true → ¬ Delimited boundary text body part) :
    (∀ item ∈ added, Delimited boundary text body item.part) ↔ Silent heap ref piece := by
  rw [← taken_piece denotes, took, Except.ok.injEq]
  constructor
  · intro delimited
    by_contra some
    obtain ⟨item, member⟩ := List.exists_mem_of_ne_nil added some
    obtain ⟨same, filled⟩ := parts item member
    have here := delimited item member
    rw [same] at here
    exact never filled here
  · rintro rfl item member
    cases member

variable (marked : boundary ≠ [])

include marked

theorem not_delimited_last {part : DataBuffer} (last : part.endIndex = body.beginIndex + text.length) :
    ¬ Delimited boundary text body part := by
  rintro ⟨before, after, _, occurs, _, stop⟩
  have room := Search.occurs_bound boundary text after marked occurs
  have positive := List.length_pos_of_ne_nil marked
  omega

theorem takenFrom_missing (fuel : Nat) {data : DataBuffer} {skip : Nat} (inside : skip ≤ text.length)
    (denotes : Denotes heap data ref storage (body.beginIndex + skip) (text.drop skip))
    (filled : text.drop skip ≠ []) (missing : search boundary (text.drop skip) = (text.drop skip).length) :
    (∀ item ∈ (takenFrom heap boundary (fuel + 1) data).1, Delimited boundary text body item.part) ↔
      Silent heap ref ⟨body.beginIndex + skip, text.drop skip⟩ := by
  have notNil : ¬ data.empty = true := fun none => filled (denotes.empty_iff.mp none)
  obtain ⟨part, tail, cut, partDenotes, tailEmpty, noDashes⟩ := nextPart_missing marked denotes missing
  obtain ⟨added, took, parts⟩ := taken_returns partDenotes.shown
  have last : part.endIndex = body.beginIndex + text.length := by
    rw [partDenotes.endIndex_eq filled, List.length_drop]
    omega
  have rest : (takenFrom heap boundary fuel tail).1 = [] := by
    cases fuel <;> simp [takenFrom, tailEmpty]
  have items : (takenFrom heap boundary (fuel + 1) data).1 = added := by
    simp only [takenFrom, if_neg notNil, cut, took, noDashes, rest, List.append_nil]
  rw [items]
  exact @undelimited_silent heap ref storage boundary text body part
    ⟨body.beginIndex + skip, text.drop skip⟩ added partDenotes took parts
    (fun _ => not_delimited_last marked last)

theorem takenFrom_later (fuel : Nat) {data : DataBuffer} {skip : Nat} (inside : skip ≤ text.length)
    (opened : ∃ before, Occurs boundary text before ∧ before + boundary.length ≤ skip)
    (denotes : Denotes heap data ref storage (body.beginIndex + skip) (text.drop skip)) :
    (∀ item ∈ (takenFrom heap boundary fuel data).1, Delimited boundary text body item.part) ↔
      ∀ piece ∈ unterminated boundary fuel ⟨body.beginIndex + skip, text.drop skip⟩,
        Silent heap ref piece := by
  induction fuel generalizing data skip with
  | zero => simp [takenFrom, unterminated]
  | succ fuel ih =>
      by_cases blank : text.drop skip = []
      · simp [takenFrom, unterminated, denotes.empty_iff.mpr blank, blank]
      · have notNil : ¬ data.empty = true := fun none => blank (denotes.empty_iff.mp none)
        by_cases missing : search boundary (text.drop skip) = (text.drop skip).length
        · rw [takenFrom_missing marked fuel inside denotes blank missing,
            unterminated_missing fuel _ blank missing]
          simp
        · have found := lt_of_le_of_ne (Search.search_le boundary (text.drop skip)) missing
          have room := Search.search_bound boundary (text.drop skip) marked found
          rw [List.length_drop] at room
          rw [unterminated_found fuel _ blank found]
          have step := takenFrom_found fuel marked denotes blank missing
          cases cut : cutPart true ⟨body.beginIndex + skip,
              (text.drop skip).take (search boundary (text.drop skip))⟩ with
          | none =>
              simp only [cut] at step
              simp [step]
          | some piece =>
              simp only [cut] at step
              obtain ⟨part, tail, added, partDenotes, tailDenotes, took, parts, items⟩ := step
              have delimited : ∀ item ∈ added, Delimited boundary text body item.part := by
                intro item member
                obtain ⟨same, filled⟩ := parts item member
                rw [same]
                exact delimited_between partDenotes filled opened found cut
              rw [items]
              simp only [Option.isNone_some, Bool.false_or]
              split
              · simpa using delimited
              · rw [List.drop_drop, Nat.add_assoc] at tailDenotes ⊢
                have here := Search.search_occurs boundary (text.drop skip) found
                rw [Search.occurs_drop] at here
                have behind := @ih tail (skip + (search boundary (text.drop skip) + boundary.length))
                  (by omega) ⟨_, here, by omega⟩ tailDenotes
                rw [← behind]
                simp only [List.mem_append, or_imp, forall_and]
                exact ⟨fun both => both.2, fun later => ⟨delimited, later⟩⟩

/-- Of the parts of a body only the text before the first boundary and the text behind
the last one may be taken undelimited. -/
theorem takenFrom_delimited_iff (denotes : Denotes heap body ref storage body.beginIndex text) :
    (∀ item ∈ (takenFrom heap boundary text.length body).1, Delimited boundary text body item.part) ↔
      (∀ piece ∈ preamble boundary ⟨body.beginIndex, text⟩, Silent heap ref piece) ∧
        ∀ piece ∈ unterminated boundary text.length ⟨body.beginIndex, text⟩, Silent heap ref piece := by
  by_cases blank : text = []
  · rw [blank]
    simp [takenFrom, unterminated, preamble, Range.split_eq, search]
  · obtain ⟨fuel, size⟩ := Nat.exists_eq_succ_of_ne_zero (fun none => blank (List.length_eq_zero_iff.mp none))
    by_cases missing : search boundary text = text.length
    · have front : preamble boundary ⟨body.beginIndex, text⟩ = none := by
        simp [preamble, Range.split_eq, missing]
      have whole := @takenFrom_missing heap ref storage boundary text body marked fuel body 0 (by omega)
        denotes blank missing
      rw [front, size, Nat.succ_eq_add_one, whole, unterminated_missing fuel _ blank missing]
      simp
    · have found := lt_of_le_of_ne (Search.search_le boundary text) missing
      have front : preamble boundary ⟨body.beginIndex, text⟩ =
          cutPart true ⟨body.beginIndex, text.take (search boundary text)⟩ := by
        simp only [preamble, Range.split_eq, missing, if_false, if_true]
      have step := takenFrom_found fuel marked denotes blank missing
      rw [front, size, Nat.succ_eq_add_one, unterminated_found fuel _ blank found]
      cases cut : cutPart true ⟨body.beginIndex, text.take (search boundary text)⟩ with
      | none =>
          simp only [cut] at step
          simp [step]
      | some piece =>
          simp only [cut] at step
          obtain ⟨part, tail, added, partDenotes, tailDenotes, took, parts, items⟩ := step
          -- the first part begins before the first boundary ends
          have first : (∀ item ∈ added, Delimited boundary text body item.part) ↔
              Silent heap ref piece := by
            apply undelimited_silent partDenotes took parts
            intro filled
            have declared : piece.bytes ≠ [] := fun none => filled (partDenotes.empty_iff.mpr none)
            obtain ⟨start, stop⟩ := cutPart_inside cut
            rw [List.length_take] at stop
            apply not_delimited_first
            rw [partDenotes.start declared]
            have positive := List.length_pos_of_ne_nil declared
            dsimp only at start stop
            omega
          rw [items]
          simp only [Option.isNone_some, Bool.false_or, Option.mem_some_iff, forall_eq']
          split
          · simpa using first
          · have here := Search.search_occurs boundary text found
            have behind := @takenFrom_later heap ref storage boundary text body marked fuel tail
              (search boundary text + boundary.length)
              (Search.search_bound boundary text marked found) ⟨_, here, le_refl _⟩ tailDenotes
            rw [← behind, ← first]
            simp only [List.mem_append, or_imp, forall_and]

end Loop

/-- Every argument and file of a body lies between two boundaries exactly when the text
before the first boundary and the text behind the last one declare none. -/
theorem delimited_parts_iff (boundary : Bytes) (marked : boundary ≠ []) (request : Request) (heap : Heap)
    (ref : Nat) (storage : DataBufferImpl) (body : DataBuffer) (shown : body.Shows heap ref storage) :
    let text := body.text storage
    let run := takenFrom heap boundary body.size body
    Parser.parseMultipart request heap body boundary = run.2.map (fun _ => Parser.addAll request run.1) ∧
      ((∀ item ∈ run.1, Delimited boundary text body item.part) ↔
        (∀ piece ∈ preamble boundary ⟨body.beginIndex, text⟩, Silent heap ref piece) ∧
          ∀ piece ∈ unterminated boundary text.length ⟨body.beginIndex, text⟩,
            Silent heap ref piece) := by
  refine ⟨Parser.parseMultipartLoop_eq heap boundary body.size request body, ?_⟩
  rw [← shown.text_length]
  exact takenFrom_delimited_iff marked shown.denotes

def delimitedBody : Bytes :=
  ascii "--B\r\nContent-Disposition: form-data; name=\"a\"\r\n\r\nx\r\n--B--\r\n"

theorem delimited_parts_iff_delimited :
    let heap : Heap := [.string ⟨delimitedBody⟩]
    let body : DataBuffer := ⟨some 0, 0, delimitedBody.length⟩
    let run := takenFrom heap (ascii "--B") body.size body
    Parser.parseMultipart .fresh heap body (ascii "--B") =
        run.2.map (fun _ => Parser.addAll .fresh run.1) ∧
      ∀ item ∈ run.1, Delimited (ascii "--B") (body.text (.string ⟨delimitedBody⟩)) body item.part := by
  intro heap body run
  have shown : body.Shows heap 0 (.string ⟨delimitedBody⟩) :=
    ⟨rfl, rfl, (by decide +kernel : delimitedBody.length < Word.base), by decide +kernel,
      by decide +kernel⟩
  obtain ⟨parsed, delimited⟩ := delimited_parts_iff (ascii "--B") (by decide +kernel) .fresh heap 0
    (.string ⟨delimitedBody⟩) body shown
  refine ⟨parsed, delimited.mpr ⟨?_, ?_⟩⟩
  · have front : ∀ piece ∈ preamble (ascii "--B") ⟨0, delimitedBody⟩, taken heap
        ⟨some 0, piece.pos, piece.pos + piece.bytes.length⟩ = .ok [] := by decide +kernel
    exact front
  · have last : ∀ piece ∈ unterminated (ascii "--B") delimitedBody.length ⟨0, delimitedBody⟩, taken heap
        ⟨some 0, piece.pos, piece.pos + piece.bytes.length⟩ = .ok [] := by decide +kernel
    exact last

def undelimitedBody : Bytes :=
  ascii "Content-Disposition: form-data; name=\"a\"\r\n\r\nx"

theorem delimited_parts_missing :
    let body : DataBuffer := ⟨some 0, 0, undelimitedBody.length⟩
    (∀ index < undelimitedBody.length, ¬ Search.Occurs (ascii "--B") undelimitedBody index) ∧
      (Parser.parseMultipart .fresh [.string ⟨undelimitedBody⟩] body (ascii "--B")).map Request.args =
        .ok [(ascii "a", ascii "x")] := by
  decide +kernel

end Multipart

end FastcgiContainer
