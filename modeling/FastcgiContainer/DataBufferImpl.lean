import FastcgiContainer.FileBuffer

/-! The storage interface `DataBufferImpl` with its two implementations, and the
traversal of a storage segment by segment. -/

namespace FastcgiContainer

open Word (Bytes)

inductive DataBufferImpl where
  | string (buffer : StringBuffer)
  | file (buffer : FileBuffer)

namespace DataBufferImpl

def bytes : DataBufferImpl → Bytes
  | string buffer => buffer.data
  | file buffer => buffer.bytes

def Inv : DataBufferImpl → Prop
  | string buffer => buffer.data.length < Word.base
  | file buffer => buffer.Inv

/-- Equal up to the mapping a file storage has cached. -/
inductive Same : DataBufferImpl → DataBufferImpl → Prop where
  | string (buffer : StringBuffer) : Same (.string buffer) (.string buffer)
  | file {buffer next : FileBuffer} (same : FileBuffer.SameBuffer buffer next) :
      Same (.file buffer) (.file next)

def read (impl : DataBufferImpl) (pos len : Nat) : Except Exn (Bytes × DataBufferImpl) :=
  match impl with
  | string buffer => do .ok (← buffer.read pos len, impl)
  | file buffer => do
      let (data, next) ← buffer.read pos len
      .ok (data, file next)

def write (impl : DataBufferImpl) (pos : Nat) (data : Bytes) : Except Exn DataBufferImpl :=
  match impl with
  | string buffer => do .ok (string (← buffer.write pos data))
  | file buffer => do .ok (file (← buffer.write pos data))

def atIndex (impl : DataBufferImpl) (pos : Nat) : Except Exn (UInt8 × DataBufferImpl) :=
  match impl with
  | string buffer => do .ok (← buffer.atIndex pos, impl)
  | file buffer => do
      let (symbol, next) ← buffer.atIndex pos
      .ok (symbol, file next)

def find (impl : DataBufferImpl) (first last : Nat) (pattern : Bytes) :
    Except Exn (Nat × DataBufferImpl) :=
  match impl with
  | string buffer => .ok (buffer.find first last pattern, impl)
  | file buffer => do
      let (index, next) ← buffer.find first last pattern
      .ok (index, file next)

def trim (impl : DataBufferImpl) (first last : Nat) : Except Exn ((Nat × Nat) × DataBufferImpl) :=
  match impl with
  | string buffer => .ok (buffer.trim first last, impl)
  | file buffer => do
      let (range, next) ← buffer.trim first last
      .ok (range, file next)

def chunk (impl : DataBufferImpl) (pos : Nat) : Except Exn ((Nat × Nat) × DataBufferImpl) :=
  match impl with
  | string buffer => .ok (buffer.chunk pos, impl)
  | file buffer => do
      let (found, next) ← buffer.chunk pos
      .ok (found, file next)

def segment : DataBufferImpl → Nat → Nat × Nat
  | string buffer, pos => buffer.segment pos
  | file buffer, pos => buffer.segment pos

def size : DataBufferImpl → Nat
  | string buffer => buffer.data.length
  | file buffer => buffer.size

def resize (impl : DataBufferImpl) (size : Nat) : Except Exn DataBufferImpl :=
  match impl with
  | string buffer => do .ok (string (← buffer.resize size))
  | file buffer => do .ok (file (← buffer.resize size))

def getCopy (impl : DataBufferImpl) : Except Exn DataBufferImpl :=
  match impl with
  | string _ => .ok impl
  | file buffer => do .ok (file (← buffer.getCopy))

def load (impl : DataBufferImpl) (pointer length : Nat) : Except Exn Bytes :=
  match impl with
  | string buffer => buffer.read pointer length
  | file buffer => buffer.file.load pointer length

def store (impl : DataBufferImpl) (pointer : Nat) (data : Bytes) : Except Exn DataBufferImpl :=
  match impl with
  | string buffer => do .ok (string (← buffer.write pointer data))
  | file buffer => do
      let next ← buffer.file.store pointer data
      .ok (file { buffer with file := next })

def boundary (impl : DataBufferImpl) (pos : Nat) : Nat := (impl.segment pos).2

theorem Same.refl (impl : DataBufferImpl) : Same impl impl := by
  cases impl with
  | string buffer => exact .string buffer
  | file buffer => exact .file (FileBuffer.SameBuffer.refl buffer)

theorem Same.bytes {impl next : DataBufferImpl} (same : Same impl next) :
    next.bytes = impl.bytes := by
  cases same with
  | string => rfl
  | file same => exact same.bytes

theorem Same.boundary {impl next : DataBufferImpl} (same : Same impl next) (pos : Nat) :
    next.boundary pos = impl.boundary pos := by
  cases same with
  | string => rfl
  | file same =>
      simp only [DataBufferImpl.boundary, segment, FileBuffer.segment, same.window]

theorem Inv.fits {impl : DataBufferImpl} (inv : impl.Inv) : impl.bytes.length < Word.base := by
  cases impl with
  | string buffer => exact inv
  | file buffer => exact inv.file.fits

theorem size_eq (impl : DataBufferImpl) (inv : impl.Inv) : impl.size = impl.bytes.length := by
  cases impl with
  | string buffer => rfl
  | file buffer => exact inv.size_eq

theorem boundary_gt (impl : DataBufferImpl) (inv : impl.Inv) (pos : Nat)
    (inside : pos < impl.bytes.length) : pos < impl.boundary pos := by
  cases impl with
  | string buffer => exact inside
  | file buffer => exact FileBuffer.windowEnd_gt buffer inv pos

theorem boundary_steady (impl : DataBufferImpl) (inv : impl.Inv) (first pos : Nat)
    (after : first ≤ pos) (before : pos < impl.boundary first) :
    impl.boundary pos = impl.boundary first := by
  cases impl with
  | string buffer => rfl
  | file buffer =>
      have positive := inv.positive
      simp only [boundary, segment, FileBuffer.segment] at before ⊢
      have lower : first / buffer.window ≤ pos / buffer.window := Nat.div_le_div_right after
      have upper : pos / buffer.window < first / buffer.window + 1 := by
        rw [Nat.div_lt_iff_lt_mul positive, Nat.add_mul, Nat.mul_comm, Nat.one_mul]
        exact before
      rw [show pos / buffer.window = first / buffer.window by omega]

theorem read_spec (impl : DataBufferImpl) (inv : impl.Inv) (pos len : Nat)
    (inside : pos + len ≤ impl.bytes.length) :
    ∃ next, impl.read pos len = .ok (Range.slice impl.bytes pos (pos + len), next) ∧ next.Inv ∧
      Same impl next := by
  cases impl with
  | string buffer =>
      refine ⟨.string buffer, ?_, inv, Same.refl _⟩
      simp only [bytes] at inside
      simp [read, StringBuffer.read, inside, bytes]
  | file buffer =>
      obtain ⟨next, done, nextInv, same⟩ := buffer.read_spec inv pos len inside
      refine ⟨.file next, ?_, nextInv, .file same⟩
      simp only [read, done, ok_bind]
      rfl

theorem write_spec (impl : DataBufferImpl) (inv : impl.Inv) (pos : Nat) (data : Bytes)
    (inside : pos + data.length ≤ impl.bytes.length) :
    ∃ next, impl.write pos data = .ok next ∧ next.Inv ∧
      next.bytes = overwrite impl.bytes pos data := by
  cases impl with
  | string buffer =>
      simp only [bytes] at inside
      refine ⟨.string ⟨overwrite buffer.data pos data⟩, ?_, ?_, rfl⟩
      · simp [write, StringBuffer.write, inside]
      · exact (overwrite_length _ _ _ inside).trans_lt inv
  | file buffer =>
      obtain ⟨next, done, nextInv, written, _⟩ := buffer.write_spec inv pos data inside
      refine ⟨.file next, ?_, nextInv, written⟩
      simp only [write, done, ok_bind]

theorem atIndex_spec (impl : DataBufferImpl) (inv : impl.Inv) (pos : Nat)
    (inside : pos < impl.bytes.length) :
    ∃ next, impl.atIndex pos = .ok (impl.bytes[pos], next) ∧ next.Inv ∧ Same impl next := by
  cases impl with
  | string buffer =>
      simp only [bytes] at inside
      refine ⟨.string buffer, ?_, inv, Same.refl _⟩
      simp [atIndex, StringBuffer.atIndex, List.getElem?_eq_getElem inside, bytes]
  | file buffer =>
      obtain ⟨next, done, nextInv, same⟩ := buffer.atIndex_spec inv pos inside
      refine ⟨.file next, ?_, nextInv, .file same⟩
      simp only [atIndex, done, ok_bind]
      rfl

theorem find_spec (impl : DataBufferImpl) (inv : impl.Inv) (first last : Nat) (pattern : Bytes)
    (nonempty : pattern ≠ []) (order : first ≤ last) (inside : last ≤ impl.bytes.length) :
    ∃ next, impl.find first last pattern =
        .ok (first + Search.search pattern (Range.slice impl.bytes first last), next) ∧
      next.Inv ∧ Same impl next := by
  cases impl with
  | string buffer =>
      refine ⟨.string buffer, ?_, inv, Same.refl _⟩
      simp only [find, buffer.find_eq first last pattern nonempty order inside]
      rfl
  | file buffer =>
      obtain ⟨next, done, nextInv, same⟩ := buffer.find_spec inv first last pattern nonempty order inside
      refine ⟨.file next, ?_, nextInv, .file same⟩
      simp only [find, done, ok_bind]
      rfl

theorem chunk_spec (impl : DataBufferImpl) (inv : impl.Inv) (pos : Nat)
    (inside : pos < impl.bytes.length) :
    ∃ next, impl.chunk pos = .ok ((pos, min (impl.boundary pos) impl.bytes.length - pos), next) ∧
      next.Inv ∧ Same impl next := by
  cases impl with
  | string buffer =>
      refine ⟨.string buffer, ?_, inv, Same.refl _⟩
      simp [chunk, StringBuffer.chunk, boundary, segment, StringBuffer.segment, bytes]
  | file buffer =>
      obtain ⟨next, done, nextInv, same⟩ := buffer.chunk_spec inv pos inside
      refine ⟨.file next, ?_, nextInv, .file same⟩
      simp only [chunk, done, ok_bind]
      rfl

theorem resize_spec (impl : DataBufferImpl) (inv : impl.Inv) (size : Nat) (fits : size < Word.base) :
    ∃ next, impl.resize size = .ok next ∧ next.Inv ∧ next.bytes = resized impl.bytes size := by
  cases impl with
  | string buffer =>
      refine ⟨.string ⟨resized buffer.data size⟩, ?_, by simpa [Inv] using fits, rfl⟩
      simp [resize, StringBuffer.resize, fits]
  | file buffer =>
      obtain ⟨next, done, nextInv, shown, _⟩ := buffer.resize_spec inv size fits
      refine ⟨.file next, ?_, nextInv, shown⟩
      simp only [resize, done, ok_bind]

theorem resize_fits (impl next : DataBufferImpl) (size : Nat) (done : impl.resize size = .ok next) :
    size < Word.base := by
  by_contra large
  cases impl with
  | string buffer => simp [resize, StringBuffer.resize, large] at done
  | file buffer => simp [resize, FileBuffer.resize, MMapFile.resize, large] at done

theorem getCopy_spec (impl : DataBufferImpl) (inv : impl.Inv) :
    ∃ next, impl.getCopy = .ok next ∧ next.Inv ∧ Same impl next := by
  cases impl with
  | string buffer => exact ⟨.string buffer, rfl, inv, Same.refl _⟩
  | file buffer =>
      obtain ⟨next, done, nextInv, same⟩ := buffer.getCopy_spec inv
      refine ⟨.file next, ?_, nextInv, .file same⟩
      simp only [getCopy, done, ok_bind]

theorem load_spec (impl : DataBufferImpl) (pointer length : Nat)
    (inside : pointer + length ≤ impl.bytes.length) :
    impl.load pointer length = .ok (Range.slice impl.bytes pointer (pointer + length)) := by
  cases impl with
  | string buffer => exact if_pos inside
  | file buffer => exact if_pos inside

theorem store_spec (impl : DataBufferImpl) (inv : impl.Inv) (pointer : Nat) (data : Bytes)
    (inside : pointer + data.length ≤ impl.bytes.length) :
    ∃ next, impl.store pointer data = .ok next ∧ next.Inv ∧
      next.bytes = overwrite impl.bytes pointer data := by
  cases impl with
  | string buffer => exact write_spec (.string buffer) inv pointer data inside
  | file buffer =>
      obtain ⟨next, done, nextInv, written⟩ := buffer.store_spec inv pointer data inside
      refine ⟨.file { buffer with file := next }, ?_, nextInv, written⟩
      simp only [store, done, ok_bind]

end DataBufferImpl

/-- The iterator owns a copy of the storage object, with a mapping of its own. -/
structure SegmentIterator where
  impl : Option DataBufferImpl
  endIndex : Nat
  posBegin : Nat
  posEnd : Nat

namespace SegmentIterator

def finished : SegmentIterator := ⟨none, 0, 0, 0⟩

def isEnd (iter : SegmentIterator) : Bool :=
  iter.impl.isNone && iter.posBegin == 0 && iter.posEnd == 0

def start (impl : DataBufferImpl) (first last : Nat) : Except Exn SegmentIterator :=
  if first = last then .ok finished
  else do
    let copy ← impl.getCopy
    .ok ⟨some copy, last, first, min (copy.segment first).2 last⟩

def current (iter : SegmentIterator) : Except Exn ((Nat × Nat) × SegmentIterator) :=
  match iter.impl with
  | none => .ok ((0, 0), iter)
  | some impl => do
      let ((pointer, length), next) ← impl.chunk iter.posBegin
      .ok ((pointer, min length (iter.endIndex - iter.posBegin)), { iter with impl := some next })

def advance (iter : SegmentIterator) : SegmentIterator :=
  match iter.impl with
  | none => iter
  | some impl =>
      if iter.posEnd ≥ iter.endIndex then finished
      else { iter with
        posBegin := iter.posEnd, posEnd := min (impl.segment iter.posEnd).2 iter.endIndex }

def collect : Nat → SegmentIterator → Except Exn (List (Nat × Nat))
  | 0, iter => if iter.isEnd then .ok [] else .error (.undefined "traversal does not end")
  | fuel + 1, iter =>
      if iter.isEnd then .ok []
      else do
        let (chunk, next) ← iter.current
        let rest ← collect fuel next.advance
        .ok (chunk :: rest)

end SegmentIterator

namespace DataBufferImpl

def segments (impl : DataBufferImpl) (first last : Nat) : Except Exn (List (Nat × Nat)) := do
  let iter ← SegmentIterator.start impl first last
  iter.collect (last - first)

def chunks (impl : DataBufferImpl) (first last : Nat) : Except Exn (List Bytes) := do
  let found ← impl.segments first last
  found.mapM (fun chunk => impl.load chunk.1 chunk.2)

def cuts (boundary : Nat → Nat) : Nat → Nat → Nat → List (Nat × Nat)
  | 0, _, _ => []
  | fuel + 1, first, last =>
      if first < last then
        (first, min (boundary first) last - first) ::
          cuts boundary fuel (min (boundary first) last) last
      else []

theorem collect_spec (fuel : Nat) (impl : DataBufferImpl) (inv : impl.Inv) (first last : Nat)
    (order : first < last) (inside : last ≤ impl.bytes.length) (enough : last - first ≤ fuel) :
    SegmentIterator.collect fuel ⟨some impl, last, first, min (impl.boundary first) last⟩ =
      .ok (cuts impl.boundary fuel first last) := by
  induction fuel generalizing impl first with
  | zero => omega
  | succ fuel ih =>
      obtain ⟨next, fetched, nextInv, same⟩ := chunk_spec impl inv first (by omega)
      have beyond := boundary_gt impl inv first (by omega)
      have width : min (min (impl.boundary first) impl.bytes.length - first) (last - first) =
          min (impl.boundary first) last - first := by omega
      have agree : next.boundary = impl.boundary := funext same.boundary
      simp only [SegmentIterator.collect, SegmentIterator.isEnd, SegmentIterator.current, fetched,
        Option.isNone_some, Bool.false_and, Bool.false_eq_true, if_false, ok_bind, width, cuts,
        order, if_true, SegmentIterator.advance]
      by_cases finished : min (impl.boundary first) last ≥ last
      · have stop : min (impl.boundary first) last = last := by omega
        rw [stop, if_pos (le_refl last)]
        cases fuel <;> simp [SegmentIterator.collect, SegmentIterator.isEnd,
          SegmentIterator.finished, cuts]
      · rw [if_neg finished]
        have rest := ih next nextInv (min (impl.boundary first) last) (by omega)
          (by rw [same.bytes]; exact inside) (by omega)
        rw [agree] at rest
        change (SegmentIterator.collect fuel ⟨some next, last, min (impl.boundary first) last,
          min (next.boundary (min (impl.boundary first) last)) last⟩ >>= _) = _
        rw [agree, rest]
        rfl

theorem segments_spec (impl : DataBufferImpl) (inv : impl.Inv) (first last : Nat)
    (order : first ≤ last) (inside : last ≤ impl.bytes.length) :
    impl.segments first last = .ok (cuts impl.boundary (last - first) first last) := by
  unfold segments SegmentIterator.start
  by_cases empty : first = last
  · subst empty
    simp [cuts, SegmentIterator.collect, SegmentIterator.isEnd, SegmentIterator.finished]
  · obtain ⟨copy, done, copyInv, same⟩ := getCopy_spec impl inv
    have agree : copy.boundary = impl.boundary := funext same.boundary
    have collected := collect_spec (last - first) copy copyInv first last (by omega)
      (by rw [same.bytes]; exact inside) (le_refl _)
    simp only [if_neg empty, done, ok_bind]
    rw [agree] at collected
    change SegmentIterator.collect _ ⟨some copy, last, first, min (copy.boundary first) last⟩ = _
    rw [agree, collected]

section Cuts

variable (boundary : Nat → Nat) (last : Nat) (forward : ∀ pos < last, pos < boundary pos)

include forward

theorem cuts_inside (fuel first : Nat) (piece : Nat × Nat)
    (member : piece ∈ cuts boundary fuel first last) :
    first ≤ piece.1 ∧ piece.1 + piece.2 ≤ last := by
  induction fuel generalizing first with
  | zero => simp [cuts] at member
  | succ fuel ih =>
      unfold cuts at member
      split at member
      · next order =>
          have beyond := forward first order
          rcases List.mem_cons.mp member with rfl | later
          · simp only
            omega
          · have bounds := ih (min (boundary first) last) later
            omega
      · simp at member

theorem cuts_flatten (bytes : Bytes) (fuel first : Nat) (order : first ≤ last)
    (enough : last - first ≤ fuel) :
    ((cuts boundary fuel first last).map
      (fun piece => Range.slice bytes piece.1 (piece.1 + piece.2))).flatten =
      Range.slice bytes first last := by
  induction fuel generalizing first with
  | zero =>
      obtain rfl : first = last := by omega
      simp [cuts]
  | succ fuel ih =>
      unfold cuts
      split
      · next inside =>
          have beyond := forward first inside
          have rest := ih (min (boundary first) last) (by omega) (by omega)
          simp only [List.map_cons, List.flatten_cons, rest]
          rw [Nat.add_sub_cancel' (by omega)]
          exact Range.slice_append _ _ _ _ (by omega) (by omega)
      · obtain rfl : first = last := by omega
        simp

end Cuts

theorem chunks_spec (impl : DataBufferImpl) (inv : impl.Inv) (first last : Nat)
    (order : first ≤ last) (inside : last ≤ impl.bytes.length) :
    impl.chunks first last = .ok ((cuts impl.boundary (last - first) first last).map
        (fun piece => Range.slice impl.bytes piece.1 (piece.1 + piece.2))) ∧
      ((cuts impl.boundary (last - first) first last).map
        (fun piece => Range.slice impl.bytes piece.1 (piece.1 + piece.2))).flatten =
      Range.slice impl.bytes first last := by
  have forward : ∀ pos < last, pos < impl.boundary pos := by
    intro pos before
    exact boundary_gt impl inv pos (by omega)
  constructor
  · simp only [chunks, segments_spec impl inv first last order inside, ok_bind]
    apply mapM_ok
    intro piece member
    have bounds := cuts_inside impl.boundary last forward _ first piece member
    exact load_spec impl piece.1 piece.2 (by omega)
  · exact cuts_flatten impl.boundary last forward impl.bytes _ first order (le_refl _)

def pageFile (content : Bytes) : DataBufferImpl :=
  .file ⟨⟨none, content.length, content, 4096, 0, 0, 4096⟩, [], 4096, fun _ => false⟩

theorem pageFile_inv (content : Bytes) (fits : content.length < Word.base) :
    (pageFile content).Inv := by
  refine ⟨⟨?_, ?_, ?_, ?_, rfl, fits, by simp, by simp⟩, rfl⟩ <;> norm_num [Word.base]

theorem pageFile_boundary (content : Bytes) :
    (pageFile content).boundary = fun pos => 4096 * (pos / 4096) + 4096 := rfl

end DataBufferImpl

end FastcgiContainer
