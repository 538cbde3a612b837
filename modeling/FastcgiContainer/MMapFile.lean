import FastcgiContainer.StringBuffer

/-! `MMapFile`: a file seen through one cached mapping.

`fdes` holds the bytes of the file behind the descriptor. A pointer into a
mapping is the file offset whose byte it shows, because a shared mapping at a
page-aligned offset shows the file's bytes from that offset on. Offsets and
lengths of live mappings are added as natural numbers. -/

namespace FastcgiContainer

open Word (Bytes)

structure MMapFile where
  pointer : Option Nat
  size : Nat
  fdes : Bytes
  window : Nat
  segmentStart : Nat
  segmentLen : Nat
  pageSize : Nat
  deriving DecidableEq, Repr

namespace MMapFile

/-- The mapping cache may change, the file and its geometry may not. -/
structure SameFile (file next : MMapFile) : Prop where
  size : next.size = file.size
  fdes : next.fdes = file.fdes
  window : next.window = file.window
  pageSize : next.pageSize = file.pageSize

structure Inv (file : MMapFile) : Prop where
  page : 0 < file.pageSize
  window : 0 < file.window
  aligned : file.pageSize ∣ file.window
  word : file.window < Word.base
  size : file.fdes.length = file.size
  fits : file.fdes.length < Word.base
  shown : ∀ pointer, file.pointer = some pointer → pointer = file.segmentStart
  closed : file.pointer = none → file.segmentStart = 0 ∧ file.segmentLen = 0

/-- `mmap` refuses an offset inside of a page and an empty range. -/
def mmap (file : MMapFile) (length offset : Nat) : Except Exn Nat :=
  if offset % file.pageSize = 0 ∧ 0 < length then .ok offset
  else .error (.runtimeError "Invalid argument")

def load (file : MMapFile) (pointer length : Nat) : Except Exn Bytes :=
  if pointer + length ≤ file.fdes.length then .ok (Range.slice file.fdes pointer (pointer + length))
  else .error (.undefined "access beyond the end of the file")

def store (file : MMapFile) (pointer : Nat) (data : Bytes) : Except Exn MMapFile :=
  if pointer + data.length ≤ file.fdes.length then
    .ok { file with fdes := overwrite file.fdes pointer data }
  else .error (.undefined "access beyond the end of the file")

def loadByte (file : MMapFile) (pointer : Nat) : Except Exn UInt8 :=
  match file.fdes[pointer]? with
  | some symbol => .ok symbol
  | none => .error (.undefined "access beyond the end of the file")

def unmap (file : MMapFile) : MMapFile :=
  match file.pointer with
  | none => file
  | some _ => { file with pointer := none, segmentStart := 0, segmentLen := 0 }

def mapped (file : MMapFile) (first last : Nat) : Bool :=
  decide (file.segmentStart ≤ first) && decide (last ≤ file.segmentStart + file.segmentLen)

def mapRange (file : MMapFile) (first last : Nat) : Except Exn (Nat × MMapFile) :=
  if file.mapped first last then
    match file.pointer with
    | some pointer => .ok (pointer + (first - file.segmentStart), file)
    | none => .error (.undefined "null mapping")
  else do
    let closed := file.unmap
    let base := closed.pageSize * (first / closed.pageSize)
    let pointer ← closed.mmap (last - base) base
    .ok (pointer + (first - base),
      { closed with pointer := some pointer, segmentStart := base, segmentLen := last - base })

def mapSegment (file : MMapFile) (segment : Nat) : Except Exn (Nat × MMapFile) :=
  file.mapRange (segment * file.window) (segment * file.window + file.window)

def checkIndex (file : MMapFile) (index : Nat) : Except Exn Unit :=
  if index < file.size then .ok () else .error (.outOfRange "mapped file index out of range")

def atIndex (file : MMapFile) (index : Nat) : Except Exn (UInt8 × MMapFile) := do
  file.checkIndex index
  if file.mapped index (index + 1) then
    match file.pointer with
    | some pointer => do
        let symbol ← file.loadByte (pointer + (index - file.segmentStart))
        .ok (symbol, file)
    | none => .error (.undefined "null mapping")
  else do
    let (pointer, next) ← file.mapSegment (index / file.window)
    let symbol ← next.loadByte (pointer + index % file.window)
    .ok (symbol, next)

def atRange (file : MMapFile) (index length : Nat) : Except Exn (Nat × MMapFile) := do
  file.checkIndex index
  if length > 0 then file.checkIndex (index + length - 1)
  file.mapRange index (index + length)

def atSegment (file : MMapFile) (index : Nat) : Except Exn ((Nat × Nat) × MMapFile) := do
  file.checkIndex index
  let position := index / file.window * file.window
  let length := min (position + file.window) file.size - index
  let (pointer, next) ← file.mapRange position (position + file.window)
  .ok ((pointer + (index - position), length), next)

/-- `ftruncate` cuts the file or extends it with zero bytes; it refuses a size
that is no 64-bit word. -/
def resize (file : MMapFile) (newsize : Nat) : Except Exn MMapFile :=
  if newsize < Word.base then do
    let closed := file.unmap
    let truncated := { closed with fdes := resized closed.fdes newsize, size := newsize }
    let (_, next) ← truncated.mapSegment 0
    .ok next
  else .error (.runtimeError "File too large")

/-- Rounds the requested window up to whole pages, in 64-bit arithmetic. The page size is an
`int`, and so is its tenfold. -/
def checkWindow (pageSize window : Nat) : Except Exn Nat :=
  if window = 0 then
    if 10 * pageSize < 2 ^ 31 then .ok (10 * pageSize) else .error (.undefined "signed integer overflow")
  else
    let index := window / pageSize
    let rounded := if window - index * pageSize ≠ 0 then index + 1 else index
    .ok (pageSize * rounded % Word.base)

def opened (content : Bytes) (window pageSize : Nat) : MMapFile where
  pointer := none
  size := content.length
  fdes := content
  window := window
  segmentStart := 0
  segmentLen := 0
  pageSize := pageSize

def create (content : Bytes) (window pageSize : Nat) : Except Exn MMapFile := do
  let window ← checkWindow pageSize window
  let (_, next) ← (opened content window pageSize).mapSegment 0
  .ok next

/-- A second object on the same descriptor, with a mapping of its own. -/
def clone (file : MMapFile) : Except Exn MMapFile := do
  let window ← checkWindow file.pageSize file.window
  let (_, next) ← { opened file.fdes window file.pageSize with size := file.size }.mapSegment 0
  .ok next

theorem SameFile.refl (file : MMapFile) : SameFile file file := ⟨rfl, rfl, rfl, rfl⟩

theorem SameFile.trans {first second third : MMapFile} (left : SameFile first second)
    (right : SameFile second third) : SameFile first third :=
  ⟨right.size.trans left.size, right.fdes.trans left.fdes, right.window.trans left.window,
    right.pageSize.trans left.pageSize⟩

theorem unmap_sameFile (file : MMapFile) : SameFile file file.unmap := by
  unfold unmap
  split
  · exact SameFile.refl file
  · exact ⟨rfl, rfl, rfl, rfl⟩

theorem Inv.unmap {file : MMapFile} (inv : file.Inv) : file.unmap.Inv := by
  unfold MMapFile.unmap
  split
  · exact inv
  · exact ⟨inv.page, inv.window, inv.aligned, inv.word, inv.size, inv.fits, by simp, by simp⟩

theorem Inv.cached {file : MMapFile} (inv : file.Inv) {first last : Nat} (order : first < last)
    (cached : file.mapped first last = true) :
    ∃ pointer, file.pointer = some pointer ∧ pointer + (first - file.segmentStart) = first := by
  simp only [mapped, Bool.and_eq_true, decide_eq_true_eq] at cached
  cases known : file.pointer with
  | none =>
      have empty := inv.closed known
      omega
  | some pointer =>
      have shown := inv.shown pointer known
      exact ⟨pointer, rfl, by omega⟩

theorem mapRange_spec (file : MMapFile) (inv : file.Inv) (first last : Nat)
    (order : first < last) :
    ∃ next, file.mapRange first last = .ok (first, next) ∧ next.Inv ∧ SameFile file next := by
  unfold mapRange
  split
  · next cached =>
      obtain ⟨pointer, known, back⟩ := inv.cached order cached
      refine ⟨file, ?_, inv, SameFile.refl file⟩
      simp only [known, back]
  · have same := unmap_sameFile file
    have closed := inv.unmap
    have below : file.unmap.pageSize * (first / file.unmap.pageSize) ≤ first :=
      Nat.mul_div_le first _
    have granted : file.unmap.mmap (last - file.unmap.pageSize * (first / file.unmap.pageSize))
        (file.unmap.pageSize * (first / file.unmap.pageSize)) =
        .ok (file.unmap.pageSize * (first / file.unmap.pageSize)) := by
      unfold mmap
      rw [if_pos ⟨Nat.mul_mod_right _ _, by omega⟩]
    refine ⟨{ file.unmap with
      pointer := some (file.unmap.pageSize * (first / file.unmap.pageSize)),
      segmentStart := file.unmap.pageSize * (first / file.unmap.pageSize),
      segmentLen := last - file.unmap.pageSize * (first / file.unmap.pageSize) }, ?_, ?_, ?_⟩
    · simp only [granted, ok_bind, Nat.add_sub_cancel' below]
    · exact ⟨closed.page, closed.window, closed.aligned, closed.word, closed.size, closed.fits,
        by simp, by simp⟩
    · exact ⟨same.size, same.fdes, same.window, same.pageSize⟩

theorem mapSegment_spec (file : MMapFile) (inv : file.Inv) (segment : Nat) :
    ∃ next, file.mapSegment segment = .ok (segment * file.window, next) ∧ next.Inv ∧
      SameFile file next := by
  have positive := inv.window
  exact mapRange_spec file inv _ _ (by omega)

theorem loadByte_eq (file : MMapFile) (index : Nat) (inside : index < file.fdes.length) :
    file.loadByte index = .ok file.fdes[index] := by
  simp [loadByte, List.getElem?_eq_getElem inside]

theorem atIndex_spec (file : MMapFile) (inv : file.Inv) (index : Nat)
    (inside : index < file.fdes.length) :
    ∃ next, file.atIndex index = .ok (file.fdes[index], next) ∧ next.Inv ∧
      SameFile file next := by
  have bound : index < file.size := by rw [← inv.size]; exact inside
  unfold atIndex
  simp only [checkIndex, bound, if_true, ok_bind]
  split
  · next cached =>
      obtain ⟨pointer, known, back⟩ := inv.cached (Nat.lt_add_one index) cached
      refine ⟨file, ?_, inv, SameFile.refl file⟩
      simp only [known, back, loadByte_eq file index inside, ok_bind]
  · obtain ⟨next, granted, invariant, same⟩ := mapSegment_spec file inv (index / file.window)
    refine ⟨next, ?_, invariant, same⟩
    have back : index / file.window * file.window + index % file.window = index :=
      Nat.div_add_mod' index file.window
    have kept : index < next.fdes.length := by rw [same.fdes]; exact inside
    simp only [granted, ok_bind, back, loadByte_eq next index kept, same.fdes]

theorem atRange_spec (file : MMapFile) (inv : file.Inv) (index length : Nat)
    (positive : 0 < length) (inside : index + length ≤ file.fdes.length) :
    ∃ next, file.atRange index length = .ok (index, next) ∧ next.Inv ∧ SameFile file next := by
  have size := inv.size
  obtain ⟨next, granted, invariant, same⟩ :=
    mapRange_spec file inv index (index + length) (by omega)
  refine ⟨next, ?_, invariant, same⟩
  unfold atRange
  have low : index < file.size := by omega
  have high : index + length - 1 < file.size := by omega
  simp only [checkIndex, low, high, positive, if_true, ok_bind, granted]

theorem atSegment_spec (file : MMapFile) (inv : file.Inv) (index : Nat)
    (inside : index < file.fdes.length) :
    ∃ next, file.atSegment index =
        .ok ((index, min (index / file.window * file.window + file.window) file.fdes.length -
          index), next) ∧ next.Inv ∧ SameFile file next := by
  have size := inv.size
  have positive := inv.window
  have below : index / file.window * file.window ≤ index := Nat.div_mul_le_self index file.window
  obtain ⟨next, granted, invariant, same⟩ := mapRange_spec file inv
    (index / file.window * file.window) (index / file.window * file.window + file.window) (by omega)
  refine ⟨next, ?_, invariant, same⟩
  unfold atSegment
  have bound : index < file.size := by omega
  simp only [checkIndex, bound, if_true, ok_bind, granted, Nat.add_sub_cancel' below, size]

theorem resize_spec (file : MMapFile) (inv : file.Inv) (newsize : Nat)
    (fits : newsize < Word.base) :
    ∃ next, file.resize newsize = .ok next ∧ next.Inv ∧
      next.fdes = resized file.fdes newsize ∧ next.window = file.window ∧
      next.pageSize = file.pageSize := by
  have same := unmap_sameFile file
  have closed := inv.unmap
  have truncated : ({ file.unmap with
      fdes := resized file.unmap.fdes newsize, size := newsize } : MMapFile).Inv :=
    ⟨closed.page, closed.window, closed.aligned, closed.word, by simp, by simpa using fits,
      closed.shown, closed.closed⟩
  obtain ⟨next, granted, invariant, kept⟩ := mapSegment_spec _ truncated 0
  refine ⟨next, ?_, invariant, ?_, ?_, ?_⟩
  · simp only [resize, fits, if_true, granted, ok_bind]
  · rw [kept.fdes, same.fdes]
  · rw [kept.window, same.window]
  · rw [kept.pageSize, same.pageSize]

theorem checkWindow_aligned (pageSize window : Nat) (page : 0 < pageSize) (positive : 0 < window)
    (aligned : pageSize ∣ window) (bound : window < Word.base) :
    checkWindow pageSize window = .ok window := by
  obtain ⟨count, rfl⟩ := aligned
  have nonzero : pageSize * count ≠ 0 := by omega
  simp only [checkWindow, if_neg nonzero, Nat.mul_div_cancel_left count page, Nat.mul_comm count,
    Nat.sub_self, ne_eq, not_true_eq_false, if_false]
  rw [Nat.mod_eq_of_lt bound]

theorem opened_inv (content : Bytes) (window pageSize : Nat) (fits : content.length < Word.base)
    (page : 0 < pageSize) (positive : 0 < window) (aligned : pageSize ∣ window)
    (bound : window < Word.base) : (opened content window pageSize).Inv :=
  ⟨page, positive, aligned, bound, rfl, fits, by simp [opened], by simp [opened]⟩

theorem create_rounded (content : Bytes) (request window pageSize : Nat) (fits : content.length < Word.base)
    (page : 0 < pageSize) (rounded : checkWindow pageSize request = .ok window) (positive : 0 < window)
    (aligned : pageSize ∣ window) (bound : window < Word.base) :
    ∃ file, create content request pageSize = .ok file ∧ file.Inv ∧ file.fdes = content ∧
      file.window = window := by
  have invariant := opened_inv content window pageSize fits page positive aligned bound
  obtain ⟨next, granted, invariant, same⟩ := mapSegment_spec _ invariant 0
  refine ⟨next, ?_, invariant, same.fdes, same.window⟩
  simp only [create, rounded, granted, ok_bind]

theorem create_spec (content : Bytes) (window pageSize : Nat) (fits : content.length < Word.base)
    (page : 0 < pageSize) (positive : 0 < window) (aligned : pageSize ∣ window)
    (bound : window < Word.base) :
    ∃ file, create content window pageSize = .ok file ∧ file.Inv ∧ file.fdes = content ∧
      file.window = window :=
  create_rounded content window window pageSize fits page
    (checkWindow_aligned pageSize window page positive aligned bound) positive aligned bound

theorem clone_spec (file : MMapFile) (inv : file.Inv) :
    ∃ next, file.clone = .ok next ∧ next.Inv ∧ SameFile file next := by
  have invariant := opened_inv file.fdes file.window file.pageSize inv.fits inv.page inv.window inv.aligned inv.word
  have rounded := checkWindow_aligned file.pageSize file.window inv.page inv.window inv.aligned inv.word
  have copied : { opened file.fdes file.window file.pageSize with size := file.size } =
      opened file.fdes file.window file.pageSize := by
    simp [opened, inv.size]
  obtain ⟨next, granted, invariant, same⟩ := mapSegment_spec _ invariant 0
  refine ⟨next, ?_, invariant, same.size.trans inv.size, same.fdes, same.window, same.pageSize⟩
  simp only [clone, rounded, copied, granted, ok_bind]

end MMapFile

end FastcgiContainer
