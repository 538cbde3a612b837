import FastcgiContainer.DataBufferImpl

/-! `DataBuffer`: a range of a shared storage. Storages live in a heap, so that
buffers on one storage see each other's writes. Reading may move a file storage's
cached mapping; no answer depends on it (`FlatBuffer.run_spec`), and the heap is
left as it was. -/

namespace FastcgiContainer

open Word (Bytes)

abbrev Heap := List DataBufferImpl

structure DataBuffer where
  data : Option Nat
  beginIndex : Nat
  endIndex : Nat
  deriving DecidableEq, Repr

namespace DataBuffer

/-- The default constructor: no storage. -/
def nil : DataBuffer := ⟨none, 0, 0⟩

instance : Inhabited DataBuffer := ⟨nil⟩

def create (heap : Heap) (impl : DataBufferImpl) : Heap × DataBuffer :=
  (heap ++ [impl], ⟨some heap.length, 0, impl.size⟩)

def impl (buffer : DataBuffer) (heap : Heap) : Except Exn DataBufferImpl :=
  match buffer.data with
  | none => .error (.undefined "null storage")
  | some ref =>
      match heap[ref]? with
      | some impl => .ok impl
      | none => .error (.undefined "dangling storage")

def isNil (buffer : DataBuffer) : Bool := buffer.data.isNone

def empty (buffer : DataBuffer) : Bool := buffer.isNil || buffer.beginIndex == buffer.endIndex

def size (buffer : DataBuffer) : Nat := Word.sub buffer.endIndex buffer.beginIndex

/-- The constructor for a range of another buffer's storage. -/
def view (buffer : DataBuffer) (heap : Heap) (first last : Nat) : Except Exn DataBuffer := do
  let impl ← buffer.impl heap
  if last > impl.size then .error (.outOfRange "Incorrect index")
  else .ok ⟨buffer.data, first, last⟩

def checkIndex (buffer : DataBuffer) (index : Nat) : Except Exn Unit :=
  if index = 0 ∧ buffer.beginIndex = 0 ∧ buffer.endIndex = 0 then .ok ()
  else if index < buffer.beginIndex ∨ index ≥ buffer.endIndex then
    .error (.outOfRange "Incorrect index")
  else .ok ()

def read (buffer : DataBuffer) (heap : Heap) (pos len : Nat) : Except Exn Bytes :=
  if pos ≥ buffer.size then .ok []
  else do
    let impl ← buffer.impl heap
    let (data, _) ← impl.read (pos + buffer.beginIndex) (min (buffer.size - pos) len)
    .ok data

def update (buffer : DataBuffer) (heap : Heap) (impl : DataBufferImpl) : Heap :=
  match buffer.data with
  | none => heap
  | some ref => heap.set ref impl

/-- Writes no further than the end of the buffer; answers how much was written. -/
def write (buffer : DataBuffer) (heap : Heap) (pos : Nat) (data : Bytes) :
    Except Exn (Nat × Heap) :=
  if pos ≥ buffer.size then .ok (0, heap)
  else do
    let impl ← buffer.impl heap
    let len := min (buffer.size - pos) data.length
    let next ← impl.write (pos + buffer.beginIndex) (data.take len)
    .ok (len, buffer.update heap next)

def resize (buffer : DataBuffer) (heap : Heap) (size : Nat) : Except Exn (DataBuffer × Heap) := do
  let impl ← buffer.impl heap
  let next ← impl.resize (buffer.beginIndex + size)
  .ok ({ buffer with endIndex := buffer.beginIndex + size }, buffer.update heap next)

def atIndex (buffer : DataBuffer) (heap : Heap) (pos : Nat) : Except Exn UInt8 := do
  buffer.checkIndex (buffer.beginIndex + pos)
  let impl ← buffer.impl heap
  let (symbol, _) ← impl.atIndex (buffer.beginIndex + pos)
  .ok symbol

def find (buffer : DataBuffer) (heap : Heap) (pos : Nat) (pattern : Bytes) : Except Exn Nat := do
  buffer.checkIndex pos
  let impl ← buffer.impl heap
  let (index, _) ← impl.find pos buffer.endIndex pattern
  .ok (Word.sub index buffer.beginIndex)

def trim (buffer : DataBuffer) (heap : Heap) : Except Exn DataBuffer :=
  if buffer.empty then .ok buffer
  else do
    let impl ← buffer.impl heap
    let ((first, last), _) ← impl.trim buffer.beginIndex buffer.endIndex
    .ok { buffer with beginIndex := first, endIndex := last }

def trimn (buffer : DataBuffer) (b e : Nat) : DataBuffer :=
  if buffer.empty then buffer
  else
    let first := Word.add buffer.beginIndex b
    if first ≥ buffer.endIndex then { buffer with beginIndex := buffer.endIndex }
    else { buffer with beginIndex := first, endIndex := max (Word.sub buffer.endIndex e) first }

/-- `split`, for a string and, with a pattern of one symbol, for a character. -/
def split (buffer : DataBuffer) (heap : Heap) (delim : Bytes) :
    Except Exn (Bool × DataBuffer × DataBuffer) :=
  if buffer.empty then .ok (false, buffer, { buffer with beginIndex := 0, endIndex := 0 })
  else do
    let res ← buffer.find heap buffer.beginIndex delim
    if res = buffer.size then
      .ok (false, buffer, { buffer with beginIndex := 0, endIndex := 0 })
    else
      let last := buffer.beginIndex + res
      .ok (true, { buffer with endIndex := last },
        { buffer with beginIndex := last + delim.length })

def matchFrom (fold : UInt8 → UInt8) (buffer : DataBuffer) (heap : Heap) :
    Bytes → Nat → Except Exn Bool
  | [], _ => .ok true
  | symbol :: rest, index => do
      let other ← buffer.atIndex heap index
      if fold symbol ≠ fold other then .ok false else matchFrom fold buffer heap rest (index + 1)

def startsWithFold (fold : UInt8 → UInt8) (buffer : DataBuffer) (heap : Heap) (data : Bytes) :
    Except Exn Bool :=
  if data.length > buffer.size then .ok false else matchFrom fold buffer heap data 0

def startsWith : DataBuffer → Heap → Bytes → Except Exn Bool := startsWithFold id

def startsWithCI : DataBuffer → Heap → Bytes → Except Exn Bool := startsWithFold tolower

/-- Compares symbols backwards; `data` comes reversed. -/
def matchBack (buffer : DataBuffer) (heap : Heap) : Bytes → Nat → Except Exn Bool
  | [], _ => .ok true
  | symbol :: rest, index => do
      let other ← buffer.atIndex heap (buffer.size - index)
      if symbol ≠ other then .ok false else matchBack buffer heap rest (index + 1)

def endsWith (buffer : DataBuffer) (heap : Heap) (data : Bytes) : Except Exn Bool :=
  if data.length > buffer.size then .ok false else matchBack buffer heap data.reverse 1

def segments (buffer : DataBuffer) (heap : Heap) : Except Exn (List (Nat × Nat)) :=
  if buffer.empty then .ok []
  else do
    let impl ← buffer.impl heap
    impl.segments buffer.beginIndex buffer.endIndex

def chunks (buffer : DataBuffer) (heap : Heap) : Except Exn (List Bytes) :=
  if buffer.empty then .ok []
  else do
    let impl ← buffer.impl heap
    impl.chunks buffer.beginIndex buffer.endIndex

def toBytes (buffer : DataBuffer) (heap : Heap) : Except Exn Bytes := do
  let pieces ← buffer.chunks heap
  .ok pieces.flatten

structure Shows (heap : Heap) (buffer : DataBuffer) (ref : Nat) (impl : DataBufferImpl) : Prop where
  data : buffer.data = some ref
  live : heap[ref]? = some impl
  inv : impl.Inv
  order : buffer.beginIndex ≤ buffer.endIndex
  inside : buffer.endIndex ≤ impl.bytes.length

def text (buffer : DataBuffer) (impl : DataBufferImpl) : Bytes :=
  Range.slice impl.bytes buffer.beginIndex buffer.endIndex

section Specs

variable {heap : Heap} {buffer : DataBuffer} {ref : Nat} {storage : DataBufferImpl}

theorem Shows.impl_eq (shown : Shows heap buffer ref storage) : buffer.impl heap = .ok storage := by
  simp [impl, shown.data, shown.live]

theorem Shows.size_eq (shown : Shows heap buffer ref storage) :
    buffer.size = buffer.endIndex - buffer.beginIndex := by
  have fits := shown.inv.fits
  exact Word.sub_eq _ _ shown.order (lt_of_le_of_lt shown.inside fits)

theorem Shows.text_length (shown : Shows heap buffer ref storage) :
    (buffer.text storage).length = buffer.size := by
  rw [shown.size_eq]
  exact Range.slice_length_of_le _ _ _ shown.inside

theorem Shows.empty_iff (shown : Shows heap buffer ref storage) :
    buffer.empty = true ↔ buffer.text storage = [] := by
  have length := shown.text_length
  rw [shown.size_eq] at length
  have order := shown.order
  constructor
  · intro same
    simp only [empty, isNil, shown.data, Option.isNone_some, Bool.false_or, beq_iff_eq] at same
    exact List.eq_nil_of_length_eq_zero (by omega)
  · intro none
    rw [none] at length
    simp only [List.length_nil] at length
    simp only [empty, isNil, shown.data, Option.isNone_some, Bool.false_or, beq_iff_eq]
    omega

theorem Shows.narrow (shown : Shows heap buffer ref storage) (first last : Nat)
    (order : first ≤ last) (inside : last ≤ storage.bytes.length) :
    Shows heap { buffer with beginIndex := first, endIndex := last } ref storage :=
  ⟨shown.data, shown.live, shown.inv, order, inside⟩

theorem view_spec (shown : Shows heap buffer ref storage) (first last : Nat)
    (inside : last ≤ storage.bytes.length) :
    buffer.view heap first last = .ok { buffer with beginIndex := first, endIndex := last } := by
  have fits : ¬ last > storage.size := by
    rw [storage.size_eq shown.inv]
    omega
  simp only [view, shown.impl_eq, ok_bind, if_neg fits]

theorem view_ok {buffer part : DataBuffer} {heap : Heap} {first last : Nat}
    (done : buffer.view heap first last = .ok part) : part = ⟨buffer.data, first, last⟩ := by
  unfold view at done
  obtain ⟨impl, _, done⟩ := bind_eq_ok _ _ _ done
  split at done
  · cases done
  · cases done
    rfl

theorem Shows.inHeap (shown : Shows heap buffer ref storage) : ref < heap.length :=
  (List.getElem?_eq_some_iff.mp shown.live).1

theorem create_shows (heap : Heap) (impl : DataBufferImpl) (inv : impl.Inv) :
    Shows (create heap impl).1 (create heap impl).2 heap.length impl := by
  refine ⟨rfl, by simp [create], inv, Nat.zero_le _, ?_⟩
  exact Nat.le_of_eq (impl.size_eq inv)

theorem last_shows (heap : Heap) {impl : DataBufferImpl} (inv : impl.Inv) {first last : Nat}
    (order : first ≤ last) (inside : last ≤ impl.bytes.length) :
    Shows (heap ++ [impl]) ⟨some heap.length, first, last⟩ heap.length impl :=
  ⟨rfl, by simp, inv, order, inside⟩

theorem Shows.replaced (shown : Shows heap buffer ref storage) (next : DataBufferImpl)
    (inv : next.Inv) (inside : buffer.endIndex ≤ next.bytes.length) :
    Shows (heap.set ref next) buffer ref next := by
  refine ⟨shown.data, ?_, inv, shown.order, inside⟩
  rw [List.getElem?_set_self shown.inHeap]

theorem Shows.apart (shown : Shows heap buffer ref storage) (other : Nat) (differ : other ≠ ref)
    (next : DataBufferImpl) : Shows (heap.set other next) buffer ref storage := by
  refine ⟨shown.data, ?_, shown.inv, shown.order, shown.inside⟩
  rw [List.getElem?_set_ne differ]
  exact shown.live

theorem Shows.extended (shown : Shows heap buffer ref storage) (more : Heap) :
    Shows (heap ++ more) buffer ref storage := by
  refine ⟨shown.data, ?_, shown.inv, shown.order, shown.inside⟩
  rw [List.getElem?_append_left shown.inHeap]
  exact shown.live

theorem read_spec (shown : Shows heap buffer ref storage) (pos len : Nat) :
    buffer.read heap pos len = .ok (((buffer.text storage).drop pos).take len) := by
  have length := shown.text_length
  have size := shown.size_eq
  have order := shown.order
  have inside := shown.inside
  unfold read
  split
  · next past =>
      rw [List.drop_eq_nil_of_le (by omega), List.take_nil]
  · next within =>
      obtain ⟨next, done, _, _⟩ := storage.read_spec shown.inv (pos + buffer.beginIndex)
        (min (buffer.size - pos) len) (by omega)
      simp only [shown.impl_eq, done, ok_bind, text, Range.slice_drop]
      congr 1
      by_cases short : len ≤ buffer.size - pos
      · rw [Nat.min_eq_right short, Range.slice_take _ _ _ _ (by omega), Nat.add_comm pos]
      · rw [Nat.min_eq_left (by omega), List.take_of_length_le (by
          rw [Range.slice_length_of_le _ _ _ inside]; omega), Nat.add_comm pos]
        congr 1
        omega

theorem write_spec (shown : Shows heap buffer ref storage) (pos : Nat) (data : Bytes)
    (start : pos ≤ buffer.size) :
    ∃ next, buffer.write heap pos data =
        .ok (min (buffer.size - pos) data.length, heap.set ref next) ∧ next.Inv ∧
      next.bytes = overwrite storage.bytes (buffer.beginIndex + pos)
        (data.take (buffer.size - pos)) := by
  have size := shown.size_eq
  have order := shown.order
  have inside := shown.inside
  unfold write
  split
  · next past =>
      -- nothing can be written at the end of the buffer
      have none : buffer.size - pos = 0 := by omega
      refine ⟨storage, ?_, shown.inv, by rw [none, List.take_zero, overwrite_nil]⟩
      have kept : heap.set ref storage = heap := by
        obtain ⟨inHeap, same⟩ := List.getElem?_eq_some_iff.mp shown.live
        rw [← same, List.set_getElem_self]
      rw [kept, none, Nat.zero_min]
  · next within =>
      have piece : data.take (min (buffer.size - pos) data.length) =
          data.take (buffer.size - pos) := List.take_eq_take_min.symm
      obtain ⟨next, done, nextInv, written⟩ := storage.write_spec shown.inv
        (pos + buffer.beginIndex) (data.take (buffer.size - pos)) (by
          rw [List.length_take]
          omega)
      refine ⟨next, ?_, nextInv, by rw [written, Nat.add_comm pos]⟩
      simp only [shown.impl_eq, ok_bind, piece, done, update, shown.data]

theorem resize_spec (shown : Shows heap buffer ref storage) (size : Nat)
    (fits : buffer.beginIndex + size < Word.base) :
    ∃ next, buffer.resize heap size = .ok ({ buffer with endIndex := buffer.beginIndex + size },
        heap.set ref next) ∧ next.Inv ∧
      next.bytes = resized storage.bytes (buffer.beginIndex + size) := by
  obtain ⟨next, done, nextInv, shape⟩ := storage.resize_spec shown.inv (buffer.beginIndex + size) fits
  refine ⟨next, ?_, nextInv, shape⟩
  simp only [resize, shown.impl_eq, done, ok_bind, update, shown.data]

theorem resize_shows (shown : Shows heap buffer ref storage) {size : Nat} {grown : DataBuffer}
    {after : Heap} (done : buffer.resize heap size = .ok (grown, after)) :
    ∃ next, grown = { buffer with endIndex := buffer.beginIndex + size } ∧ after = heap.set ref next ∧
      next.bytes = resized storage.bytes (buffer.beginIndex + size) ∧ Shows after grown ref next := by
  have fits : buffer.beginIndex + size < Word.base := by
    unfold resize at done
    obtain ⟨impl, _, done⟩ := bind_eq_ok _ _ _ done
    obtain ⟨next, enlarged, _⟩ := bind_eq_ok _ _ _ done
    exact impl.resize_fits next _ enlarged
  obtain ⟨next, enlarged, nextInv, nextBytes⟩ := resize_spec shown size fits
  obtain ⟨rfl, rfl⟩ := Prod.mk.inj (Except.ok.inj (done.symm.trans enlarged))
  refine ⟨next, rfl, rfl, nextBytes, shown.data, ?_, nextInv, Nat.le_add_right _ _, ?_⟩
  · rw [List.getElem?_set_self shown.inHeap]
  · rw [nextBytes, resized_length]

theorem atIndex_spec (shown : Shows heap buffer ref storage) (index : Nat)
    (inside : index < (buffer.text storage).length) :
    buffer.atIndex heap index = .ok (buffer.text storage)[index] := by
  have length := shown.text_length
  rw [shown.size_eq] at length
  have bound := shown.inside
  obtain ⟨next, done, _, _⟩ := storage.atIndex_spec shown.inv (buffer.beginIndex + index) (by omega)
  have accepted : buffer.checkIndex (buffer.beginIndex + index) = .ok () := by
    unfold checkIndex
    split
    · rfl
    · rw [if_neg (by omega)]
  have symbol : (buffer.text storage)[index] = storage.bytes[buffer.beginIndex + index] := by
    simp [text, Range.slice]
  simp only [atIndex, accepted, shown.impl_eq, done, ok_bind, symbol]

theorem find_spec (shown : Shows heap buffer ref storage) (pattern : Bytes)
    (nonempty : pattern ≠ []) (filled : buffer.beginIndex < buffer.endIndex) :
    buffer.find heap buffer.beginIndex pattern =
      .ok (Search.search pattern (buffer.text storage)) := by
  have bound := shown.inside
  have fits := shown.inv.fits
  obtain ⟨next, done, _, _⟩ := storage.find_spec shown.inv buffer.beginIndex buffer.endIndex pattern
    nonempty shown.order bound
  have accepted : buffer.checkIndex buffer.beginIndex = .ok () := by
    unfold checkIndex
    split
    · rfl
    · rw [if_neg (by omega)]
  have short := Search.search_le pattern (Range.slice storage.bytes buffer.beginIndex buffer.endIndex)
  rw [Range.slice_length_of_le _ _ _ bound] at short
  simp only [find, accepted, shown.impl_eq, done, ok_bind]
  rw [Word.sub_eq _ _ (by omega) (by omega), Nat.add_sub_cancel_left]
  rfl

theorem split_spec (shown : Shows heap buffer ref storage) (delim : Bytes) (nonempty : delim ≠ []) :
    buffer.split heap delim = .ok (
      if Search.search delim (buffer.text storage) = (buffer.text storage).length then
        (false, buffer, { buffer with beginIndex := 0, endIndex := 0 })
      else
        (true,
          { buffer with
            endIndex := buffer.beginIndex + Search.search delim (buffer.text storage) },
          { buffer with
            beginIndex := buffer.beginIndex + Search.search delim (buffer.text storage) +
              delim.length })) := by
  have length := shown.text_length
  unfold split
  by_cases none : buffer.empty = true
  · have blank := shown.empty_iff.mp none
    simp [none, blank, Search.search]
  · have filled : buffer.beginIndex < buffer.endIndex := by
      have order := shown.order
      simp only [empty, isNil, shown.data, Option.isNone_some, Bool.false_or, beq_iff_eq] at none
      omega
    rw [if_neg none, find_spec shown delim nonempty filled, ok_bind, length]
    split <;> rfl

theorem split_refines (shown : Shows heap buffer ref storage) (delim : Bytes) (nonempty : delim ≠ []) :
    ∃ found head tail, buffer.split heap delim = .ok (found, head, tail) ∧
      Shows heap head ref storage ∧ Shows heap tail ref storage ∧
      Range.split (buffer.text storage) delim = (found, head.text storage, tail.text storage) ∧
      head.beginIndex = buffer.beginIndex ∧
      (found = true → tail.beginIndex = head.endIndex + delim.length ∧
        tail.endIndex = buffer.endIndex) := by
  have length := shown.text_length
  rw [shown.size_eq] at length
  have inside := shown.inside
  have order := shown.order
  rw [split_spec shown delim nonempty, Range.split_eq]
  split
  · exact ⟨false, buffer, { buffer with beginIndex := 0, endIndex := 0 }, rfl, shown,
      shown.narrow 0 0 (le_refl 0) (Nat.zero_le _), by simp [text], rfl, by simp⟩
  · next absent =>
      have short := Search.search_le delim (buffer.text storage)
      have room := Search.search_bound delim (buffer.text storage) nonempty (by omega)
      refine ⟨true, _, _, rfl, shown.narrow _ _ (by omega) (by omega),
        shown.narrow _ _ (by omega) (by omega), ?_, rfl, fun _ => ⟨rfl, rfl⟩⟩
      simp only [text] at length short room ⊢
      rw [Range.slice_take _ _ _ _ (by omega), Range.slice_drop, Nat.add_assoc]

theorem matchFrom_spec (fold : UInt8 → UInt8) (shown : Shows heap buffer ref storage)
    (data : Bytes) (index : Nat) (inside : index + data.length ≤ (buffer.text storage).length) :
    matchFrom fold buffer heap data index =
      .ok (decide ((((buffer.text storage).drop index).take data.length).map fold =
        data.map fold)) := by
  induction data generalizing index with
  | nil => simp [matchFrom]
  | cons symbol rest ih =>
      simp only [List.length_cons] at inside
      have here : index < (buffer.text storage).length := by omega
      have fetched := atIndex_spec shown index here
      have tail := ih (index + 1) (by omega)
      simp only [matchFrom, fetched, ok_bind, List.length_cons, List.drop_eq_getElem_cons here,
        List.take_succ_cons, List.map_cons, List.cons.injEq, tail]
      by_cases same : fold symbol = fold (buffer.text storage)[index]
      · simp [same]
      · rw [if_pos same]
        simp [Ne.symm same]

theorem startsWithFold_spec (fold : UInt8 → UInt8) (shown : Shows heap buffer ref storage)
    (data : Bytes) :
    startsWithFold fold buffer heap data =
      .ok (decide (data.length ≤ (buffer.text storage).length) &&
        decide (((buffer.text storage).take data.length).map fold = data.map fold)) := by
  have length := shown.text_length
  unfold startsWithFold
  split
  · next long =>
      have short : ¬ data.length ≤ (buffer.text storage).length := by omega
      simp [short]
  · next fits =>
      have short : data.length ≤ (buffer.text storage).length := by omega
      rw [matchFrom_spec fold shown data 0 (by omega)]
      simp [short]

theorem startsWith_spec (shown : Shows heap buffer ref storage) (data : Bytes) :
    buffer.startsWith heap data = .ok (Range.startsWith (buffer.text storage) data) := by
  have folded := startsWithFold_spec id shown data
  simpa only [startsWith, Range.startsWith, List.map_id] using folded

theorem matchBack_spec (shown : Shows heap buffer ref storage) (data : Bytes) (count : Nat)
    (inside : count + data.length ≤ (buffer.text storage).length) :
    matchBack buffer heap data.reverse (count + 1) =
      .ok (decide (((buffer.text storage).drop
        ((buffer.text storage).length - (count + data.length))).take data.length = data)) := by
  have length := shown.text_length
  generalize back : data.reverse = reversed
  induction reversed generalizing data count with
  | nil =>
      obtain rfl : data = [] := by simpa using back
      simp [matchBack]
  | cons symbol rest ih =>
      obtain rfl : data = rest.reverse ++ [symbol] := by
        rw [← List.reverse_reverse data, back, List.reverse_cons]
      simp only [List.length_append, List.length_reverse, List.length_singleton] at inside ⊢
      have here : buffer.size - (count + 1) < (buffer.text storage).length := by omega
      have fetched := atIndex_spec shown (buffer.size - (count + 1)) here
      have tail := ih rest.reverse (count + 1) (by simp; omega) (by simp)
      simp only [List.length_reverse] at tail
      simp only [matchBack, fetched, ok_bind, tail]
      generalize start : (buffer.text storage).length - (count + (rest.length + 1)) = first
      have again : (buffer.text storage).length - (count + 1 + rest.length) = first := by omega
      have last : buffer.size - (count + 1) = first + rest.length := by omega
      have grown : ((buffer.text storage).drop first).take (rest.length + 1) =
          ((buffer.text storage).drop first).take rest.length ++
            [(buffer.text storage)[first + rest.length]] := by
        rw [List.take_add_one, List.getElem?_drop,
          List.getElem?_eq_getElem (show first + rest.length < (buffer.text storage).length by omega)]
        rfl
      rw [again, grown]
      simp only [last]
      by_cases same : symbol = (buffer.text storage)[first + rest.length]
      · rw [if_neg (by simpa using same)]
        congr 1
        rw [← same]
        simp
      · rw [if_pos same]
        congr 1
        symm
        rw [decide_eq_false_iff_not]
        intro joined
        exact same (List.singleton_inj.mp (List.append_inj' joined rfl).2).symm

theorem endsWith_spec (shown : Shows heap buffer ref storage) (data : Bytes) :
    buffer.endsWith heap data = .ok (Range.endsWith (buffer.text storage) data) := by
  have length := shown.text_length
  unfold endsWith Range.endsWith
  split
  · next long =>
      have short : ¬ data.length ≤ (buffer.text storage).length := by omega
      simp [short]
  · next fits =>
      have short : data.length ≤ (buffer.text storage).length := by omega
      have matched := matchBack_spec shown data 0 (by omega)
      rw [show (0 : Nat) + 1 = 1 by rfl, Nat.zero_add] at matched
      rw [matched, List.take_of_length_le (by rw [List.length_drop]; omega)]
      simp [short]

theorem chunks_spec (shown : Shows heap buffer ref storage) :
    buffer.chunks heap = .ok ((DataBufferImpl.cuts storage.boundary
        (buffer.endIndex - buffer.beginIndex) buffer.beginIndex buffer.endIndex).map
        (fun piece => Range.slice storage.bytes piece.1 (piece.1 + piece.2))) ∧
      ((DataBufferImpl.cuts storage.boundary
        (buffer.endIndex - buffer.beginIndex) buffer.beginIndex buffer.endIndex).map
        (fun piece => Range.slice storage.bytes piece.1 (piece.1 + piece.2))).flatten =
      buffer.text storage := by
  obtain ⟨done, joined⟩ := storage.chunks_spec shown.inv buffer.beginIndex buffer.endIndex
    shown.order shown.inside
  refine ⟨?_, joined⟩
  unfold chunks
  by_cases none : buffer.empty = true
  · simp only [empty, isNil, shown.data, Option.isNone_some, Bool.false_or, beq_iff_eq] at none
    simp [empty, isNil, shown.data, none, DataBufferImpl.cuts]
  · rw [if_neg none, shown.impl_eq, ok_bind, done]

theorem segments_spec (shown : Shows heap buffer ref storage) :
    buffer.segments heap = .ok (DataBufferImpl.cuts storage.boundary
      (buffer.endIndex - buffer.beginIndex) buffer.beginIndex buffer.endIndex) := by
  unfold segments
  by_cases none : buffer.empty = true
  · simp only [empty, isNil, shown.data, Option.isNone_some, Bool.false_or, beq_iff_eq] at none
    simp [empty, isNil, shown.data, none, DataBufferImpl.cuts]
  · rw [if_neg none, shown.impl_eq, ok_bind]
    exact storage.segments_spec shown.inv _ _ shown.order shown.inside

theorem toBytes_spec (shown : Shows heap buffer ref storage) :
    buffer.toBytes heap = .ok (buffer.text storage) := by
  obtain ⟨done, joined⟩ := chunks_spec shown
  simp only [toBytes, done, ok_bind, joined]

theorem toBytes_nil (buffer : DataBuffer) (heap : Heap) (none : buffer.empty = true) :
    buffer.toBytes heap = .ok [] := by
  simp [toBytes, chunks, none]

/-- Where the subtraction does not wrap, `trimn` cuts as `Range::trimn` does. -/
theorem trimn_spec (shown : Shows heap buffer ref storage) (b e : Nat)
    (small : buffer.beginIndex + b < Word.base) (fits : e ≤ buffer.endIndex) :
    Shows heap (buffer.trimn b e) ref storage ∧
      (buffer.trimn b e).text storage = Range.trimn (buffer.text storage) b e := by
  have order := shown.order
  have inside := shown.inside
  have bound := shown.inv.fits
  unfold trimn
  by_cases none : buffer.empty = true
  · rw [if_pos none]
    have blank := shown.empty_iff.mp none
    exact ⟨shown, by simp [blank, Range.trimn]⟩
  · rw [if_neg none, Word.add_eq _ _ small, Word.sub_eq _ _ fits (by omega)]
    simp only [text, Range.trimn, Range.slice_drop]
    by_cases past : buffer.beginIndex + b ≥ buffer.endIndex
    · rw [if_pos past]
      refine ⟨⟨shown.data, shown.live, shown.inv, le_refl _, inside⟩, ?_⟩
      have gone : Range.slice storage.bytes (buffer.beginIndex + b) buffer.endIndex = [] := by
        apply List.eq_nil_of_length_eq_zero
        rw [Range.slice_length]
        omega
      simp [gone]
    · rw [if_neg past]
      refine ⟨⟨shown.data, shown.live, shown.inv, by simp, by simp; omega⟩, ?_⟩
      simp only
      rw [Range.slice_length_of_le _ _ _ inside, Range.slice_take _ _ _ _ (by omega)]
      congr 1
      omega

/-- What is left of a buffer: a range inside of it, with the bytes that `Range::trimn` leaves. -/
structure Trimmed (heap : Heap) (buffer next : DataBuffer) (ref : Nat) (storage : DataBufferImpl) (b e : Nat) : Prop where
  shown : Shows heap next ref storage
  first : buffer.beginIndex ≤ next.beginIndex
  last : next.endIndex ≤ buffer.endIndex
  same : next.text storage = Range.trimn (buffer.text storage) b e

theorem trimn_empty (shown : Shows heap buffer ref storage) (b e : Nat) (none : buffer.empty = true) :
    Trimmed heap buffer (buffer.trimn b e) ref storage b e := by
  have kept : buffer.trimn b e = buffer := if_pos none
  rw [kept]
  exact ⟨shown, le_refl _, le_refl _, by simp [shown.empty_iff.mp none, Range.trimn]⟩

theorem trimn_inside (shown : Shows heap buffer ref storage) (b e : Nat) (small : buffer.beginIndex + b < Word.base)
    (fits : e ≤ buffer.endIndex) : Trimmed heap buffer (buffer.trimn b e) ref storage b e := by
  obtain ⟨kept, same⟩ := trimn_spec shown b e small fits
  have order := shown.order
  have bound := shown.inv.fits
  have inside := shown.inside
  by_cases none : buffer.empty = true
  · exact trimn_empty shown b e none
  · have cut : buffer.beginIndex ≤ (buffer.trimn b e).beginIndex ∧
        (buffer.trimn b e).endIndex ≤ buffer.endIndex := by
      simp only [trimn, none, Bool.false_eq_true, if_false, Word.add_eq _ _ small,
        Word.sub_eq _ _ fits (Nat.lt_of_le_of_lt inside bound)]
      split
      · exact ⟨order, le_refl _⟩
      · next before => exact ⟨Nat.le_add_right _ _, max_le (Nat.sub_le _ _) (Nat.le_of_not_le before)⟩
    exact ⟨kept, cut.1, cut.2, same⟩

theorem trimn_past (shown : Shows heap buffer ref storage) (b e : Nat) (small : buffer.beginIndex + b < Word.base)
    (past : buffer.endIndex ≤ buffer.beginIndex + b) : Trimmed heap buffer (buffer.trimn b e) ref storage b e := by
  by_cases none : buffer.empty = true
  · exact trimn_empty shown b e none
  · have cut : buffer.trimn b e = { buffer with beginIndex := buffer.endIndex } := by
      simp only [trimn, none, Word.add_eq _ _ small, past, if_true, Bool.false_eq_true, if_false]
    rw [cut]
    refine ⟨⟨shown.data, shown.live, shown.inv, le_refl _, shown.inside⟩, shown.order, le_refl _, ?_⟩
    have gone : (buffer.text storage).drop b = [] := by
      rw [List.drop_eq_nil_iff, text, Range.slice_length]
      omega
    rw [Range.trimn, gone, List.take_nil]
    exact Range.slice_empty _ _

/-- A buffer is trimmed like its bytes, exactly if neither of the positions that are computed
leaves the 64-bit words. -/
theorem trimn_same_iff (shown : Shows heap buffer ref storage) (b e : Nat) (front : b < 2 ^ 31) (back : e < 2 ^ 31) :
    Trimmed heap buffer (buffer.trimn b e) ref storage b e ↔
      buffer.beginIndex = buffer.endIndex ∨
        buffer.beginIndex + b < Word.base ∧ (buffer.endIndex ≤ buffer.beginIndex + b ∨ e ≤ buffer.endIndex) := by
  have order := shown.order
  have inside := shown.inside
  have bound := shown.inv.fits
  have wide : 2 ^ 32 < Word.base := by decide
  constructor
  · intro trimmed
    by_contra wrong
    rw [not_or, not_and_or, not_or] at wrong
    obtain ⟨filled, wraps⟩ := wrong
    have some : buffer.empty = false := by
      simp [empty, isNil, shown.data, filled]
    have first := trimmed.first
    have last := trimmed.last
    simp only [trimn, some, Bool.false_eq_true, if_false] at first last
    by_cases small : buffer.beginIndex + b < Word.base
    · obtain ⟨before, large⟩ := wraps.resolve_left (not_not.mpr small)
      have below : Word.sub buffer.endIndex e = buffer.endIndex + (Word.base - e) := by
        unfold Word.sub
        exact Nat.mod_eq_of_lt (by omega)
      rw [Word.add_eq _ _ small, if_neg (by omega), below] at last
      simp only at last
      have beyond := le_trans (le_max_left _ _) last
      omega
    · have around : Word.add buffer.beginIndex b = buffer.beginIndex + b - Word.base := by
        unfold Word.add
        rw [Nat.mod_eq_sub_mod (Nat.le_of_not_lt small)]
        exact Nat.mod_eq_of_lt (by omega)
      rw [around, if_neg (by omega)] at first
      simp only at first
      omega
  · rintro (none | ⟨small, past | fits⟩)
    · have blank : buffer.empty = true := by
        simp [empty, none]
      exact trimn_empty shown b e blank
    · exact trimn_past shown b e small past
    · exact trimn_inside shown b e small fits

def threeBytes : DataBufferImpl := .string ⟨ascii "abc"⟩

theorem threeBytes_shows : Shows [threeBytes] ⟨some 0, 0, 3⟩ 0 threeBytes := by
  have short : (ascii "abc").length < Word.base := by decide +kernel
  have inv : threeBytes.Inv := short
  exact last_shows [] inv (Nat.zero_le 3) (by decide +kernel)

theorem trimn_same_iff_ends : Trimmed [threeBytes] ⟨some 0, 0, 3⟩ (trimn ⟨some 0, 0, 3⟩ 1 1) 0 threeBytes 1 1 :=
  (trimn_same_iff threeBytes_shows 1 1 (by decide) (by decide)).mpr (by decide +kernel)

/-- Four bytes are cut off behind the three that there are. -/
theorem trimn_wraps :
    Shows [threeBytes] ⟨some 0, 0, 3⟩ 0 threeBytes ∧ trimn ⟨some 0, 0, 3⟩ 0 4 = ⟨some 0, 0, 2 ^ 64 - 1⟩ ∧
      Range.trimn (ascii "abc") 0 4 = [] ∧ ¬Shows [threeBytes] (trimn ⟨some 0, 0, 3⟩ 0 4) 0 threeBytes := by
  have cut : trimn ⟨some 0, 0, 3⟩ 0 4 = ⟨some 0, 0, 2 ^ 64 - 1⟩ := by decide +kernel
  refine ⟨threeBytes_shows, cut, by decide +kernel, ?_⟩
  intro shows_
  have inside := shows_.inside
  rw [cut] at inside
  exact absurd inside (by decide +kernel)

end Specs

end DataBuffer

end FastcgiContainer
