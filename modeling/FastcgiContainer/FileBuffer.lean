import FastcgiContainer.MMapFile

/-! `FileBuffer`: the on-disk storage, read and written one window at a time.
Every access may replace the cached mapping, so it returns the buffer it leaves. -/

namespace FastcgiContainer

open Word (Bytes)

/-- `wide` is what `isspace` answers outside of its domain; only `trim` asks. -/
structure FileBuffer where
  file : MMapFile
  filename : Bytes
  window : Nat
  wide : Int → Bool

namespace FileBuffer

structure Inv (buffer : FileBuffer) : Prop where
  file : buffer.file.Inv
  window : buffer.window = buffer.file.window

def SameBuffer (buffer next : FileBuffer) : Prop :=
  ∃ file, next = { buffer with file } ∧ MMapFile.SameFile buffer.file file

def bytes (buffer : FileBuffer) : Bytes := buffer.file.fdes

def create (content filename : Bytes) (window pageSize : Nat) (wide : Int → Bool) :
    Except Exn FileBuffer := do
  let file ← MMapFile.create content window pageSize
  .ok ⟨file, filename, file.window, wide⟩

def size (buffer : FileBuffer) : Nat := buffer.file.size

def atIndex (buffer : FileBuffer) (pos : Nat) : Except Exn (UInt8 × FileBuffer) := do
  let (symbol, file) ← buffer.file.atIndex pos
  .ok (symbol, { buffer with file })

def chunk (buffer : FileBuffer) (pos : Nat) : Except Exn ((Nat × Nat) × FileBuffer) := do
  let (found, file) ← buffer.file.atSegment pos
  .ok (found, { buffer with file })

def segment (buffer : FileBuffer) (pos : Nat) : Nat × Nat :=
  (pos, buffer.window * (pos / buffer.window) + buffer.window)

/-- The copying loop of `read`; each turn copies at least one byte. -/
def readLoop : Nat → FileBuffer → Nat → Nat → Except Exn (Bytes × FileBuffer)
  | _, buffer, _, 0 => .ok ([], buffer)
  | 0, _, _, _ + 1 => .error (.undefined "read does not return")
  | fuel + 1, buffer, pos, readLen => do
      let ((pointer, length), next) ← buffer.chunk pos
      if length = 0 then .error (.runtimeError "Cannot fetch chunk")
      else
        let curLen := min length readLen
        let data ← next.file.load pointer curLen
        let (rest, last) ← readLoop fuel next (pos + curLen) (readLen - curLen)
        .ok (data ++ rest, last)

def read (buffer : FileBuffer) (pos len : Nat) : Except Exn (Bytes × FileBuffer) :=
  if pos + len > buffer.size then .error (.runtimeError "Data is out of range")
  else readLoop len buffer pos len

def writeLoop : Nat → FileBuffer → Nat → Bytes → Except Exn FileBuffer
  | _, buffer, _, [] => .ok buffer
  | 0, _, _, _ :: _ => .error (.undefined "write does not return")
  | fuel + 1, buffer, pos, data => do
      let ((pointer, length), next) ← buffer.chunk pos
      if length = 0 then .error (.runtimeError "Cannot fetch chunk")
      else
        let curLen := min length data.length
        let file ← next.file.store pointer (data.take curLen)
        writeLoop fuel { next with file } (pos + curLen) (data.drop curLen)

def write (buffer : FileBuffer) (pos : Nat) (data : Bytes) : Except Exn FileBuffer :=
  if pos + data.length > buffer.size then .error (.runtimeError "Data is out of range")
  else writeLoop data.length buffer pos data

/-- The search loop of `find`: one window, and one pattern length beyond it, a turn. -/
def findLoop : Nat → FileBuffer → Nat → Nat → Nat → Bytes → Except Exn (Nat × FileBuffer)
  | 0, _, _, _, _, _ => .error (.undefined "find does not return")
  | fuel + 1, buffer, segmentPos, offset, last, pattern => do
      let pos := segmentPos + offset
      let full := buffer.window - offset + pattern.length
      let finish := decide (pos + full ≥ last)
      let length := if finish then last - pos else full
      let (pointer, file) ← buffer.file.atRange pos length
      let base ← file.load pointer length
      let found := Range.find base pattern
      if found ≠ base.length then .ok (found + pos, { buffer with file })
      else if finish then .ok (last, { buffer with file })
      else findLoop fuel { buffer with file } (segmentPos + buffer.window) 0 last pattern

def find (buffer : FileBuffer) (first last : Nat) (pattern : Bytes) :
    Except Exn (Nat × FileBuffer) :=
  if pattern.length > last - first then .ok (last, buffer)
  else
    let segmentPos := buffer.window * (first / buffer.window)
    findLoop (last - first + 1) buffer segmentPos (first - segmentPos) last pattern

def trimFront : Nat → FileBuffer → Nat → Except Exn (Nat × FileBuffer)
  | 0, buffer, first => .ok (first, buffer)
  | count + 1, buffer, first => do
      let (symbol, next) ← buffer.atIndex first
      if isspace symbol then trimFront count next (first + 1) else .ok (first, next)

/-- The second loop of `trim` tests the position of the last byte, not the byte. -/
def trimBack (wide : Int → Bool) : Nat → Nat → Nat
  | 0, last => last
  | count + 1, last =>
      if isspaceInt wide (toInt (last - 1)) then trimBack wide count (last - 1) else last

def trim (buffer : FileBuffer) (first last : Nat) : Except Exn ((Nat × Nat) × FileBuffer) := do
  let (start, next) ← trimFront (last - first) buffer first
  .ok ((start, trimBack buffer.wide (last - start) last), next)

def resize (buffer : FileBuffer) (size : Nat) : Except Exn FileBuffer := do
  let file ← buffer.file.resize size
  .ok { buffer with file }

def getCopy (buffer : FileBuffer) : Except Exn FileBuffer := do
  let file ← buffer.file.clone
  .ok { buffer with file }

theorem SameBuffer.refl (buffer : FileBuffer) : SameBuffer buffer buffer :=
  ⟨buffer.file, rfl, MMapFile.SameFile.refl _⟩

theorem SameBuffer.trans {first second third : FileBuffer} (left : SameBuffer first second)
    (right : SameBuffer second third) : SameBuffer first third := by
  obtain ⟨middle, rfl, same⟩ := left
  obtain ⟨last, rfl, again⟩ := right
  exact ⟨last, rfl, same.trans again⟩

theorem SameBuffer.bytes {buffer next : FileBuffer} (same : SameBuffer buffer next) :
    next.bytes = buffer.bytes := by
  obtain ⟨file, rfl, kept⟩ := same
  exact kept.fdes

theorem SameBuffer.window {buffer next : FileBuffer} (same : SameBuffer buffer next) :
    next.window = buffer.window := by
  obtain ⟨file, rfl, kept⟩ := same
  rfl

theorem Inv.remap {buffer : FileBuffer} (inv : buffer.Inv) (file : MMapFile) (invariant : file.Inv)
    (same : MMapFile.SameFile buffer.file file) :
    ({ buffer with file } : FileBuffer).Inv ∧ SameBuffer buffer { buffer with file } :=
  ⟨⟨invariant, inv.window.trans same.window.symm⟩, file, rfl, same⟩

theorem Inv.positive {buffer : FileBuffer} (inv : buffer.Inv) : 0 < buffer.window := by
  rw [inv.window]
  exact inv.file.window

theorem Inv.size_eq {buffer : FileBuffer} (inv : buffer.Inv) : buffer.size = buffer.bytes.length :=
  inv.file.size.symm

theorem create_spec (content filename : Bytes) (window pageSize : Nat) (wide : Int → Bool)
    (fits : content.length < Word.base) (page : 0 < pageSize) (positive : 0 < window)
    (aligned : pageSize ∣ window) (bound : window < Word.base) :
    ∃ buffer, create content filename window pageSize wide = .ok buffer ∧ buffer.Inv ∧
      buffer.bytes = content ∧ buffer.window = window := by
  obtain ⟨file, made, invariant, shown, kept⟩ :=
    MMapFile.create_spec content window pageSize fits page positive aligned bound
  refine ⟨⟨file, filename, file.window, wide⟩, ?_, ⟨invariant, rfl⟩, shown, kept⟩
  simp only [create, made, ok_bind]

theorem atIndex_spec (buffer : FileBuffer) (inv : buffer.Inv) (pos : Nat)
    (inside : pos < buffer.bytes.length) :
    ∃ next, buffer.atIndex pos = .ok (buffer.bytes[pos], next) ∧ next.Inv ∧
      SameBuffer buffer next := by
  obtain ⟨file, found, invariant, same⟩ := MMapFile.atIndex_spec buffer.file inv.file pos inside
  obtain ⟨kept, remapped⟩ := inv.remap file invariant same
  refine ⟨{ buffer with file }, ?_, kept, remapped⟩
  simp only [atIndex, found, ok_bind]
  rfl

def windowEnd (buffer : FileBuffer) (pos : Nat) : Nat :=
  buffer.window * (pos / buffer.window) + buffer.window

theorem windowEnd_gt (buffer : FileBuffer) (inv : buffer.Inv) (pos : Nat) :
    pos < buffer.windowEnd pos := by
  have positive := inv.positive
  have split := Nat.div_add_mod pos buffer.window
  have small := Nat.mod_lt pos positive
  unfold windowEnd
  omega

theorem chunk_spec (buffer : FileBuffer) (inv : buffer.Inv) (pos : Nat)
    (inside : pos < buffer.bytes.length) :
    ∃ next, buffer.chunk pos =
        .ok ((pos, min (buffer.windowEnd pos) buffer.bytes.length - pos), next) ∧ next.Inv ∧
      SameBuffer buffer next := by
  obtain ⟨file, found, invariant, same⟩ := MMapFile.atSegment_spec buffer.file inv.file pos inside
  obtain ⟨kept, remapped⟩ := inv.remap file invariant same
  refine ⟨{ buffer with file }, ?_, kept, remapped⟩
  simp only [chunk, found, ok_bind, windowEnd, inv.window, Nat.mul_comm]
  rfl

theorem load_spec (file : MMapFile) (pointer length : Nat)
    (inside : pointer + length ≤ file.fdes.length) :
    file.load pointer length = .ok (Range.slice file.fdes pointer (pointer + length)) := by
  simp [MMapFile.load, inside]

theorem readLoop_spec (fuel : Nat) (buffer : FileBuffer) (inv : buffer.Inv) (pos readLen : Nat)
    (enough : readLen ≤ fuel) (inside : pos + readLen ≤ buffer.bytes.length) :
    ∃ next, readLoop fuel buffer pos readLen =
        .ok (Range.slice buffer.bytes pos (pos + readLen), next) ∧ next.Inv ∧
      SameBuffer buffer next := by
  induction fuel generalizing buffer pos readLen with
  | zero =>
      obtain rfl : readLen = 0 := by omega
      exact ⟨buffer, by simp [readLoop], inv, SameBuffer.refl buffer⟩
  | succ fuel ih =>
      cases readLen with
      | zero => exact ⟨buffer, by simp [readLoop], inv, SameBuffer.refl buffer⟩
      | succ rest =>
          obtain ⟨mid, fetched, midInv, midSame⟩ := chunk_spec buffer inv pos (by omega)
          have beyond := windowEnd_gt buffer inv pos
          generalize width : min (buffer.windowEnd pos) buffer.bytes.length - pos = length at fetched
          have bounds : 0 < length ∧ pos + length ≤ buffer.bytes.length := by omega
          have copied := load_spec mid.file pos (min length (rest + 1)) (by
            have := congrArg List.length midSame.bytes
            simp only [bytes] at this bounds
            omega)
          obtain ⟨last, done, lastInv, lastSame⟩ := ih mid midInv (pos + min length (rest + 1))
            (rest + 1 - min length (rest + 1)) (by omega) (by rw [midSame.bytes]; omega)
          refine ⟨last, ?_, lastInv, midSame.trans lastSame⟩
          have nonzero : ¬ length = 0 := by omega
          simp only [readLoop, fetched, ok_bind, nonzero, if_false, copied, done]
          change Except.ok (Range.slice mid.bytes _ _ ++ _, last) = _
          rw [midSame.bytes, show pos + min length (rest + 1) + (rest + 1 - min length (rest + 1)) =
            pos + (rest + 1) by omega, Range.slice_append _ _ _ _ (by omega) (by omega)]

theorem read_spec (buffer : FileBuffer) (inv : buffer.Inv) (pos len : Nat)
    (inside : pos + len ≤ buffer.bytes.length) :
    ∃ next, buffer.read pos len = .ok (Range.slice buffer.bytes pos (pos + len), next) ∧
      next.Inv ∧ SameBuffer buffer next := by
  have fits : ¬ pos + len > buffer.size := by rw [inv.size_eq]; omega
  simpa only [read, if_neg fits] using
    readLoop_spec len buffer inv pos len (le_refl _) inside

theorem store_spec (buffer : FileBuffer) (inv : buffer.Inv) (pos : Nat) (data : Bytes)
    (inside : pos + data.length ≤ buffer.bytes.length) :
    ∃ file, buffer.file.store pos data = .ok file ∧ ({ buffer with file } : FileBuffer).Inv ∧
      file.fdes = overwrite buffer.bytes pos data := by
  refine ⟨{ buffer.file with fdes := overwrite buffer.file.fdes pos data }, ?_, ?_, rfl⟩
  · exact if_pos inside
  · exact ⟨⟨inv.file.page, inv.file.window, inv.file.aligned, inv.file.word,
      (overwrite_length _ _ _ inside).trans inv.file.size,
      (overwrite_length _ _ _ inside).trans_lt inv.file.fits, inv.file.shown, inv.file.closed⟩,
      inv.window⟩

theorem writeLoop_spec (fuel : Nat) (buffer : FileBuffer) (inv : buffer.Inv) (pos : Nat)
    (data : Bytes) (enough : data.length ≤ fuel) (inside : pos + data.length ≤ buffer.bytes.length) :
    ∃ next, writeLoop fuel buffer pos data = .ok next ∧ next.Inv ∧
      next.bytes = overwrite buffer.bytes pos data ∧ next.window = buffer.window ∧
      next.wide = buffer.wide ∧ next.filename = buffer.filename := by
  induction fuel generalizing buffer pos data with
  | zero =>
      obtain rfl : data = [] := List.eq_nil_of_length_eq_zero (by omega)
      exact ⟨buffer, by simp [writeLoop], inv, by simp, rfl, rfl, rfl⟩
  | succ fuel ih =>
      cases data with
      | nil => exact ⟨buffer, by simp [writeLoop], inv, by simp, rfl, rfl, rfl⟩
      | cons symbol rest =>
          have positive : 0 < (symbol :: rest).length := by simp
          generalize symbol :: rest = data at enough inside positive ⊢
          obtain ⟨mid, fetched, midInv, midSame⟩ := chunk_spec buffer inv pos (by omega)
          have beyond := windowEnd_gt buffer inv pos
          generalize width : min (buffer.windowEnd pos) buffer.bytes.length - pos = length at fetched
          have bounds : 0 < length ∧ pos + length ≤ buffer.bytes.length := by omega
          have front : (data.take (min length data.length)).length = min length data.length := by
            rw [List.length_take]
            omega
          obtain ⟨file, stored, storedInv, written⟩ := store_spec mid midInv pos
            (data.take (min length data.length)) (by rw [front, midSame.bytes]; omega)
          have kept : ({ mid with file } : FileBuffer).bytes =
              overwrite buffer.bytes pos (data.take (min length data.length)) := by
            rw [← midSame.bytes]
            exact written
          obtain ⟨last, done, lastInv, lastBytes, lastWindow, lastWide, lastName⟩ :=
            ih { mid with file } storedInv (pos + min length data.length)
              (data.drop (min length data.length))
              (by rw [List.length_drop]; omega)
              (by rw [kept, List.length_drop, overwrite_length _ _ _ (by rw [front]; omega)]; omega)
          obtain ⟨remap, rfl, sameFile⟩ := midSame
          refine ⟨last, ?_, lastInv, ?_, lastWindow, lastWide, lastName⟩
          · cases data with
            | nil => simp at positive
            | cons symbol rest =>
                have nonzero : ¬ length = 0 := by omega
                simp only [writeLoop, fetched, ok_bind, nonzero, if_false, stored, done]
          · rw [lastBytes, kept]
            have joined := overwrite_overwrite buffer.bytes pos (data.take (min length data.length))
              (data.drop (min length data.length)) (by rw [front]; omega)
            rwa [front, List.take_append_drop] at joined

theorem write_spec (buffer : FileBuffer) (inv : buffer.Inv) (pos : Nat) (data : Bytes)
    (inside : pos + data.length ≤ buffer.bytes.length) :
    ∃ next, buffer.write pos data = .ok next ∧ next.Inv ∧
      next.bytes = overwrite buffer.bytes pos data ∧ next.window = buffer.window ∧
      next.wide = buffer.wide ∧ next.filename = buffer.filename := by
  have fits : ¬ pos + data.length > buffer.size := by rw [inv.size_eq]; omega
  simpa only [write, if_neg fits] using
    writeLoop_spec data.length buffer inv pos data (le_refl _) inside

theorem findLoop_spec (fuel : Nat) (buffer : FileBuffer) (inv : buffer.Inv)
    (segmentPos offset last : Nat) (pattern : Bytes) (nonempty : pattern ≠ [])
    (within : offset < buffer.window) (room : segmentPos + offset + pattern.length ≤ last)
    (inside : last ≤ buffer.bytes.length) (enough : last - (segmentPos + offset) < fuel) :
    ∃ next, findLoop fuel buffer segmentPos offset last pattern =
        .ok (segmentPos + offset +
          Search.search pattern (Range.slice buffer.bytes (segmentPos + offset) last), next) ∧
      next.Inv ∧ SameBuffer buffer next := by
  have positive : 0 < pattern.length := List.length_pos_of_ne_nil nonempty
  induction fuel generalizing buffer segmentPos offset with
  | zero => omega
  | succ fuel ih =>
      generalize start : segmentPos + offset = pos at room enough ⊢
      generalize width : buffer.window - offset + pattern.length = full
      by_cases finish : pos + full ≥ last
      · -- the last turn sees the rest of the range
        obtain ⟨file, granted, fileInv, same⟩ := MMapFile.atRange_spec buffer.file inv.file pos
          (last - pos) (by omega) (by simp only [bytes] at inside; omega)
        obtain ⟨kept, remapped⟩ := inv.remap file fileInv same
        refine ⟨{ buffer with file }, ?_, kept, remapped⟩
        have loaded := load_spec file pos (last - pos) (by
          rw [same.fdes]; simp only [bytes] at inside; omega)
        rw [same.fdes, show pos + (last - pos) = last by omega] at loaded
        change file.load pos (last - pos) = .ok (Range.slice buffer.bytes pos last) at loaded
        have size : (Range.slice buffer.bytes pos last).length = last - pos :=
          Range.slice_length_of_le _ _ _ inside
        simp only [findLoop, start, width, finish, decide_true, if_true, granted, ok_bind, loaded,
          Range.find_eq_search]
        split
        · rw [Nat.add_comm]
        · next absent =>
            simp only [ne_eq, not_not] at absent
            rw [absent, size, show pos + (last - pos) = last by omega]
      · obtain ⟨file, granted, fileInv, same⟩ := MMapFile.atRange_spec buffer.file inv.file pos
          full (by omega) (by simp only [bytes] at inside; omega)
        obtain ⟨kept, remapped⟩ := inv.remap file fileInv same
        have loaded := load_spec file pos full (by
          rw [same.fdes]; simp only [bytes] at inside; omega)
        rw [same.fdes] at loaded
        change file.load pos full = .ok (Range.slice buffer.bytes pos (pos + full)) at loaded
        have block : Range.slice buffer.bytes pos (pos + full) =
            (Range.slice buffer.bytes pos last).take full :=
          (Range.slice_take _ _ _ _ (by omega)).symm
        have size : (Range.slice buffer.bytes pos (pos + full)).length = full := by
          rw [Range.slice_length_of_le _ _ _ (by omega)]
          omega
        by_cases found : Search.search pattern (Range.slice buffer.bytes pos (pos + full)) = full
        · have resumed := Search.search_take_absent pattern (Range.slice buffer.bytes pos last) full
            nonempty (by rw [Range.slice_length_of_le _ _ _ inside]; omega) (by omega)
            (by rw [← block]; exact found)
          have advance : segmentPos + buffer.window + 0 = pos + (full - pattern.length) := by omega
          obtain ⟨next, done, nextInv, nextSame⟩ := ih { buffer with file } kept
            (segmentPos + buffer.window) 0 inv.positive (by omega)
            (by rw [remapped.bytes]; exact inside) (by omega)
          refine ⟨next, ?_, nextInv, remapped.trans nextSame⟩
          simp only [findLoop, start, width, finish, decide_false, Bool.false_eq_true, if_false,
            granted, ok_bind, loaded, Range.find_eq_search, found, size, ne_eq, not_true_eq_false]
          rw [done, remapped.bytes, advance, resumed, Range.slice_drop, Nat.add_assoc]
        · have smaller : Search.search pattern (Range.slice buffer.bytes pos (pos + full)) < full := by
            have := Search.search_le pattern (Range.slice buffer.bytes pos (pos + full))
            omega
          have whole := Search.search_take_found pattern (Range.slice buffer.bytes pos last) full
            nonempty (by rw [← block, size]; exact smaller)
          refine ⟨{ buffer with file }, ?_, kept, remapped⟩
          simp only [findLoop, start, width, finish, decide_false, Bool.false_eq_true, if_false,
            granted, ok_bind, loaded, Range.find_eq_search, size, ne_eq, found, not_false_eq_true,
            if_true]
          rw [whole, ← block, Nat.add_comm]

theorem find_spec (buffer : FileBuffer) (inv : buffer.Inv) (first last : Nat) (pattern : Bytes)
    (nonempty : pattern ≠ []) (order : first ≤ last) (inside : last ≤ buffer.bytes.length) :
    ∃ next, buffer.find first last pattern =
        .ok (first + Search.search pattern (Range.slice buffer.bytes first last), next) ∧
      next.Inv ∧ SameBuffer buffer next := by
  have size : (Range.slice buffer.bytes first last).length = last - first :=
    Range.slice_length_of_le _ _ _ inside
  unfold find
  split
  · next long =>
      refine ⟨buffer, ?_, inv, SameBuffer.refl buffer⟩
      rw [Search.search_long_pattern _ _ nonempty (by omega), size, Nat.add_sub_cancel' order]
  · have split := Nat.div_add_mod first buffer.window
    have small := Nat.mod_lt first inv.positive
    have start : buffer.window * (first / buffer.window) +
        (first - buffer.window * (first / buffer.window)) = first := by omega
    have found := findLoop_spec (last - first + 1) buffer inv
      (buffer.window * (first / buffer.window)) (first - buffer.window * (first / buffer.window))
      last pattern nonempty (by omega) (by omega) inside (by omega)
    rwa [start] at found

theorem trimBack_bounds (wide : Int → Bool) (count last : Nat) :
    last - count ≤ trimBack wide count last ∧ trimBack wide count last ≤ last := by
  induction count generalizing last with
  | zero => exact ⟨le_refl _, le_refl _⟩
  | succ count ih =>
      simp only [trimBack]
      split
      · have inner := ih (last - 1)
        exact ⟨by omega, by omega⟩
      · exact ⟨by omega, le_refl _⟩

theorem trimFront_spec (count : Nat) (buffer : FileBuffer) (inv : buffer.Inv) (first : Nat)
    (inside : first + count ≤ buffer.bytes.length) :
    ∃ next, trimFront count buffer first =
        .ok (first + (count - ((Range.slice buffer.bytes first (first + count)).dropWhile
          isspace).length), next) ∧ next.Inv ∧ SameBuffer buffer next := by
  induction count generalizing buffer first with
  | zero => exact ⟨buffer, by simp [trimFront], inv, SameBuffer.refl buffer⟩
  | succ count ih =>
      obtain ⟨mid, fetched, midInv, midSame⟩ := atIndex_spec buffer inv first (by omega)
      have unfolded : Range.slice buffer.bytes first (first + (count + 1)) =
          buffer.bytes[first] :: Range.slice buffer.bytes (first + 1) (first + 1 + count) := by
        simp only [Range.slice, List.drop_eq_getElem_cons (show first < buffer.bytes.length by omega),
          show first + (count + 1) - first = count + 1 by omega,
          show first + 1 + count - (first + 1) = count by omega, List.take_succ_cons]
      by_cases space : isspace buffer.bytes[first] = true
      · obtain ⟨next, done, nextInv, nextSame⟩ := ih mid midInv (first + 1)
          (by rw [midSame.bytes]; omega)
        refine ⟨next, ?_, nextInv, midSame.trans nextSame⟩
        have shorter := List.length_dropWhile_le isspace
          (Range.slice buffer.bytes (first + 1) (first + 1 + count))
        rw [Range.slice_length] at shorter
        simp only [trimFront, fetched, ok_bind, space, if_true, done, midSame.bytes, unfolded,
          List.dropWhile_cons_of_pos]
        congr 2
        omega
      · refine ⟨mid, ?_, midInv, midSame⟩
        have rest : (Range.slice buffer.bytes (first + 1) (first + 1 + count)).length = count := by
          rw [Range.slice_length_of_le _ _ _ (by omega)]
          omega
        simp only [trimFront, fetched, ok_bind, space, unfolded,
          List.dropWhile_cons_of_neg space, List.length_cons, rest]
        simp

theorem trim_spec (buffer : FileBuffer) (inv : buffer.Inv) (first last : Nat)
    (order : first ≤ last) (inside : last ≤ buffer.bytes.length) :
    ∃ next, buffer.trim first last =
        .ok ((last - ((Range.slice buffer.bytes first last).dropWhile isspace).length,
          trimBack buffer.wide ((Range.slice buffer.bytes first last).dropWhile isspace).length
            last), next) ∧ next.Inv ∧ SameBuffer buffer next := by
  obtain ⟨next, done, nextInv, nextSame⟩ := trimFront_spec (last - first) buffer inv first (by omega)
  rw [Nat.add_sub_cancel' order] at done
  have shorter := List.length_dropWhile_le isspace (Range.slice buffer.bytes first last)
  rw [Range.slice_length] at shorter
  have start : first + (last - first -
      ((Range.slice buffer.bytes first last).dropWhile isspace).length) =
      last - ((Range.slice buffer.bytes first last).dropWhile isspace).length := by omega
  have count : last - (last - ((Range.slice buffer.bytes first last).dropWhile isspace).length) =
      ((Range.slice buffer.bytes first last).dropWhile isspace).length := by omega
  refine ⟨next, ?_, nextInv, nextSame⟩
  rw [start] at done
  simp only [trim, done, ok_bind, count]

theorem resize_spec (buffer : FileBuffer) (inv : buffer.Inv) (size : Nat)
    (fits : size < Word.base) :
    ∃ next, buffer.resize size = .ok next ∧ next.Inv ∧ next.bytes = resized buffer.bytes size ∧
      next.window = buffer.window ∧ next.wide = buffer.wide ∧ next.filename = buffer.filename := by
  obtain ⟨file, done, invariant, shown, kept, _⟩ :=
    MMapFile.resize_spec buffer.file inv.file size fits
  refine ⟨{ buffer with file }, ?_, ⟨invariant, inv.window.trans kept.symm⟩, shown, rfl, rfl, rfl⟩
  simp only [resize, done, ok_bind]

theorem getCopy_spec (buffer : FileBuffer) (inv : buffer.Inv) :
    ∃ next, buffer.getCopy = .ok next ∧ next.Inv ∧ SameBuffer buffer next := by
  obtain ⟨file, done, invariant, same⟩ := MMapFile.clone_spec buffer.file inv.file
  obtain ⟨kept, remapped⟩ := inv.remap file invariant same
  refine ⟨{ buffer with file }, ?_, kept, remapped⟩
  simp only [getCopy, done, ok_bind]

end FileBuffer

end FastcgiContainer
