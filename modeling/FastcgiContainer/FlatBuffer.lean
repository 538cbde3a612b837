import FastcgiContainer.DataBufferImpl

/-! A storage as a flat array of bytes: what any sequence of operations answers,
whichever implementation is behind the interface. -/

namespace FastcgiContainer.FlatBuffer

open Word (Bytes)

inductive Op where
  | resize (size : Nat)
  | atIndex (pos : Nat)
  | read (pos len : Nat)
  | write (pos : Nat) (data : Bytes)
  | find (first last : Nat) (pattern : Bytes)
  | traverse (first last : Nat)
  deriving DecidableEq, Repr

inductive Reply where
  | done
  | symbol (value : UInt8)
  | bytes (data : Bytes)
  | position (index : Nat)
  deriving DecidableEq, Repr

/-- One operation on a storage. The answer to a traversal is what its chunks
give when put together. -/
def perform (impl : DataBufferImpl) : Op → Except Exn (Reply × DataBufferImpl)
  | .resize size => do .ok (.done, ← impl.resize size)
  | .atIndex pos => do
      let (value, next) ← impl.atIndex pos
      .ok (.symbol value, next)
  | .read pos len => do
      let (data, next) ← impl.read pos len
      .ok (.bytes data, next)
  | .write pos data => do .ok (.done, ← impl.write pos data)
  | .find first last pattern => do
      let (index, next) ← impl.find first last pattern
      .ok (.position index, next)
  | .traverse first last => do
      let pieces ← impl.chunks first last
      .ok (.bytes pieces.flatten, impl)

def run (impl : DataBufferImpl) : List Op → Except Exn (List Reply × DataBufferImpl)
  | [] => .ok ([], impl)
  | op :: ops => do
      let (reply, next) ← perform impl op
      let (replies, last) ← run next ops
      .ok (reply :: replies, last)

def Inside (size : Nat) : Op → Prop
  | .resize newsize => newsize < Word.base
  | .atIndex pos => pos < size
  | .read pos len => pos + len ≤ size
  | .write pos data => pos + data.length ≤ size
  | .find first last pattern => pattern ≠ [] ∧ first < last ∧ last ≤ size
  | .traverse first last => first ≤ last ∧ last ≤ size

def sizeAfter (size : Nat) : Op → Nat
  | .resize newsize => newsize
  | _ => size

def AllInside : Nat → List Op → Prop
  | _, [] => True
  | size, op :: ops => Inside size op ∧ AllInside (sizeAfter size op) ops

instance (size : Nat) : (op : Op) → Decidable (Inside size op)
  | .resize newsize => inferInstanceAs (Decidable (newsize < Word.base))
  | .atIndex pos => inferInstanceAs (Decidable (pos < size))
  | .read pos len => inferInstanceAs (Decidable (pos + len ≤ size))
  | .write pos data => inferInstanceAs (Decidable (pos + data.length ≤ size))
  | .find first last pattern =>
      inferInstanceAs (Decidable (pattern ≠ [] ∧ first < last ∧ last ≤ size))
  | .traverse first last => inferInstanceAs (Decidable (first ≤ last ∧ last ≤ size))

def decideAllInside : (size : Nat) → (ops : List Op) → Decidable (AllInside size ops)
  | _, [] => isTrue trivial
  | size, op :: ops =>
      @instDecidableAnd _ _ inferInstance (decideAllInside (sizeAfter size op) ops)

instance (size : Nat) (ops : List Op) : Decidable (AllInside size ops) := decideAllInside size ops

/-- `index` is where the pattern first occurs in the range, or the range's end
when it does not occur. -/
def FirstIn (content : Bytes) (first last : Nat) (pattern : Bytes) (index : Nat) : Prop :=
  (∀ earlier, first ≤ earlier → earlier < index → earlier + pattern.length ≤ last →
      ¬ pattern <+: content.drop earlier) ∧
    first ≤ index ∧
    (index = last ∨ index + pattern.length ≤ last ∧ pattern <+: content.drop index)

/-- What an array of bytes answers, and how it changes. -/
def Meets (content : Bytes) : Op → Reply → Bytes → Prop
  | .resize size, reply, after =>
      reply = .done ∧ after.length = size ∧
        ∀ index < size, after[index]? = some (content.getD index 0)
  | .atIndex pos, reply, after => after = content ∧ (content[pos]?).map Reply.symbol = some reply
  | .read pos len, reply, after =>
      after = content ∧ reply = .bytes ((content.drop pos).take len)
  | .write pos data, reply, after =>
      reply = .done ∧ after.length = content.length ∧
        ∀ index, after[index]? =
          if pos ≤ index ∧ index < pos + data.length then data[index - pos]? else content[index]?
  | .find first last pattern, reply, after =>
      after = content ∧ ∃ index, reply = .position index ∧ FirstIn content first last pattern index
  | .traverse first last, reply, after =>
      after = content ∧ reply = .bytes ((content.drop first).take (last - first))

def MeetsAll (content : Bytes) : List Op → List Reply → Bytes → Prop
  | [], replies, after => replies = [] ∧ after = content
  | op :: ops, replies, after =>
      ∃ reply rest middle, replies = reply :: rest ∧ Meets content op reply middle ∧
        MeetsAll middle ops rest after

def answer (content : Bytes) : Op → Reply × Bytes
  | .resize size => (.done, resized content size)
  | .atIndex pos => (.symbol (content.getD pos 0), content)
  | .read pos len => (.bytes (Range.slice content pos (pos + len)), content)
  | .write pos data => (.done, overwrite content pos data)
  | .find first last pattern =>
      (.position (first + Search.search pattern (Range.slice content first last)), content)
  | .traverse first last => (.bytes (Range.slice content first last), content)

def answers (content : Bytes) : List Op → List Reply × Bytes
  | [] => ([], content)
  | op :: ops =>
      let (reply, middle) := answer content op
      let (replies, after) := answers middle ops
      (reply :: replies, after)

theorem resized_getElem? (content : Bytes) (size index : Nat) (inside : index < size) :
    (resized content size)[index]? = some (content.getD index 0) := by
  unfold resized
  by_cases old : index < content.length
  · rw [List.getElem?_append_left (by rw [List.length_take]; omega), List.getElem?_take,
      if_pos inside, List.getElem?_eq_getElem old]
    simp [List.getElem?_eq_getElem old]
  · rw [List.getElem?_append_right (by rw [List.length_take]; omega), List.length_take]
    rw [List.getElem?_replicate, if_pos (by omega)]
    simp [List.getElem?_eq_none (show content.length ≤ index by omega)]

theorem overwrite_getElem? (content : Bytes) (pos : Nat) (data : Bytes)
    (inside : pos + data.length ≤ content.length) (index : Nat) :
    (overwrite content pos data)[index]? =
      if pos ≤ index ∧ index < pos + data.length then data[index - pos]? else content[index]? := by
  have front : (content.take pos).length = pos := by
    rw [List.length_take]
    omega
  unfold overwrite
  rw [List.append_assoc]
  by_cases before : index < pos
  · rw [List.getElem?_append_left (by omega), List.getElem?_take, if_pos before, if_neg (by omega)]
  · rw [List.getElem?_append_right (by omega), front]
    by_cases written : index < pos + data.length
    · rw [List.getElem?_append_left (by omega), if_pos ⟨by omega, written⟩]
    · rw [List.getElem?_append_right (by omega), List.getElem?_drop, if_neg (by omega)]
      congr 1
      omega

theorem occurs_slice (content pattern : Bytes) (first last index : Nat)
    (fits : index + pattern.length ≤ last - first) :
    Search.Occurs pattern (Range.slice content first last) index ↔
      pattern <+: content.drop (first + index) := by
  unfold Range.slice
  rw [Search.occurs_take pattern (content.drop first) (last - first) index fits,
    Search.occurs_drop]
  rfl

theorem search_firstIn (content pattern : Bytes) (first last : Nat) (nonempty : pattern ≠ [])
    (order : first < last) (inside : last ≤ content.length) :
    FirstIn content first last pattern
      (first + Search.search pattern (Range.slice content first last)) := by
  have size := Range.slice_length_of_le content first last inside
  have bound := Search.search_le pattern (Range.slice content first last)
  refine ⟨?_, by omega, ?_⟩
  · intro earlier after before fits occurs
    refine Search.search_first pattern (Range.slice content first last) (earlier - first)
      (by omega) ?_
    rw [occurs_slice content pattern first last (earlier - first) (by omega),
      Nat.add_sub_cancel' after]
    exact occurs
  · by_cases found : Search.search pattern (Range.slice content first last) <
        (Range.slice content first last).length
    · have fits := Search.search_bound pattern _ nonempty found
      have occurs := Search.search_occurs pattern _ found
      rw [occurs_slice content pattern first last _ (by omega)] at occurs
      exact Or.inr ⟨by omega, occurs⟩
    · exact Or.inl (by omega)

theorem answer_meets (content : Bytes) (op : Op) (inside : Inside content.length op) :
    Meets content op (answer content op).1 (answer content op).2 := by
  cases op with
  | resize size => exact ⟨rfl, resized_length _ _, resized_getElem? content size⟩
  | atIndex pos =>
      refine ⟨rfl, ?_⟩
      simp only [Inside] at inside
      simp [answer, List.getElem?_eq_getElem inside]
  | read pos len =>
      refine ⟨rfl, ?_⟩
      simp [answer, Range.slice]
  | write pos data =>
      exact ⟨rfl, overwrite_length _ _ _ inside, overwrite_getElem? content pos data inside⟩
  | find first last pattern =>
      obtain ⟨nonempty, order, bound⟩ := inside
      exact ⟨rfl, _, rfl, search_firstIn content pattern first last nonempty order bound⟩
  | traverse first last => exact ⟨rfl, rfl⟩

theorem answer_length (content : Bytes) (op : Op) (inside : Inside content.length op) :
    (answer content op).2.length = sizeAfter content.length op := by
  cases op with
  | resize size => exact resized_length _ _
  | write pos data => exact overwrite_length _ _ _ inside
  | _ => rfl

theorem answers_meet (content : Bytes) (ops : List Op) (inside : AllInside content.length ops) :
    MeetsAll content ops (answers content ops).1 (answers content ops).2 := by
  induction ops generalizing content with
  | nil => exact ⟨rfl, rfl⟩
  | cons op ops ih =>
      obtain ⟨here, later⟩ := inside
      refine ⟨_, _, (answer content op).2, rfl, answer_meets content op here, ?_⟩
      exact ih (answer content op).2 (by rw [answer_length content op here]; exact later)

theorem perform_spec (impl : DataBufferImpl) (inv : impl.Inv) (op : Op)
    (inside : Inside impl.bytes.length op) :
    ∃ next, perform impl op = .ok ((answer impl.bytes op).1, next) ∧ next.Inv ∧
      next.bytes = (answer impl.bytes op).2 := by
  cases op with
  | resize size =>
      obtain ⟨next, done, nextInv, shown⟩ := impl.resize_spec inv size inside
      exact ⟨next, by simp only [perform, done, ok_bind, answer], nextInv, shown⟩
  | atIndex pos =>
      simp only [Inside] at inside
      obtain ⟨next, done, nextInv, same⟩ := impl.atIndex_spec inv pos inside
      refine ⟨next, ?_, nextInv, same.bytes⟩
      simp [perform, done, answer, List.getElem?_eq_getElem inside]
  | read pos len =>
      obtain ⟨next, done, nextInv, same⟩ := impl.read_spec inv pos len inside
      exact ⟨next, by simp only [perform, done, ok_bind, answer], nextInv, same.bytes⟩
  | write pos data =>
      obtain ⟨next, done, nextInv, shown⟩ := impl.write_spec inv pos data inside
      exact ⟨next, by simp only [perform, done, ok_bind, answer], nextInv, shown⟩
  | find first last pattern =>
      obtain ⟨nonempty, order, bound⟩ := inside
      obtain ⟨next, done, nextInv, same⟩ :=
        impl.find_spec inv first last pattern nonempty (by omega) bound
      exact ⟨next, by simp only [perform, done, ok_bind, answer], nextInv, same.bytes⟩
  | traverse first last =>
      obtain ⟨order, bound⟩ := inside
      obtain ⟨done, joined⟩ := impl.chunks_spec inv first last order bound
      refine ⟨impl, ?_, inv, rfl⟩
      simp only [perform, done, ok_bind, joined, answer]

theorem run_spec (impl : DataBufferImpl) (inv : impl.Inv) (ops : List Op)
    (inside : AllInside impl.bytes.length ops) :
    ∃ last, run impl ops = .ok ((answers impl.bytes ops).1, last) ∧ last.Inv ∧
      last.bytes = (answers impl.bytes ops).2 := by
  induction ops generalizing impl with
  | nil => exact ⟨impl, rfl, inv, rfl⟩
  | cons op ops ih =>
      obtain ⟨here, later⟩ := inside
      obtain ⟨next, done, nextInv, shown⟩ := perform_spec impl inv op here
      obtain ⟨last, finished, lastInv, lastShown⟩ := ih next nextInv (by
        rw [shown, answer_length impl.bytes op here]
        exact later)
      refine ⟨last, ?_, lastInv, ?_⟩
      · simp only [run, done, finished, ok_bind, answers, shown]
      · rw [lastShown, shown]
        rfl

/-- Over any file content, page size and window of whole pages, every sequence of
operations is answered by the file storage exactly as by the string storage, and
as an array of bytes prescribes. -/
theorem file_runs_as_string (content filename : Bytes) (window pageSize : Nat) (wide : Int → Bool)
    (ops : List Op) (page : 0 < pageSize) (positive : 0 < window) (aligned : pageSize ∣ window)
    (word : window < Word.base) (fits : content.length < Word.base)
    (inside : AllInside content.length ops) :
    ∃ buffer replies fileLast stringLast,
      FileBuffer.create content filename window pageSize wide = .ok buffer ∧
      run (.file buffer) ops = .ok (replies, fileLast) ∧
      run (.string ⟨content⟩) ops = .ok (replies, stringLast) ∧
      fileLast.bytes = stringLast.bytes ∧
      MeetsAll content ops replies stringLast.bytes := by
  obtain ⟨buffer, made, inv, shown, _⟩ := FileBuffer.create_spec content filename window pageSize
    wide fits page positive aligned word
  obtain ⟨fileLast, fileRun, _, fileBytes⟩ := run_spec (.file buffer) inv ops (by
    simpa only [DataBufferImpl.bytes, shown] using inside)
  obtain ⟨stringLast, stringRun, _, stringBytes⟩ := run_spec (.string ⟨content⟩) fits ops inside
  simp only [DataBufferImpl.bytes, shown] at fileRun fileBytes
  refine ⟨buffer, (answers content ops).1, fileLast, stringLast, made, fileRun, stringRun, ?_, ?_⟩
  · exact fileBytes.trans stringBytes.symm
  · rw [stringBytes]
    exact answers_meet content ops inside

theorem file_runs_as_string_two_pages :
    ∃ buffer replies fileLast stringLast,
      FileBuffer.create [1, 2, 3, 4, 5] [] 2 2 (fun _ => false) = .ok buffer ∧
      run (.file buffer) [.find 1 5 [4, 5], .write 1 [9, 9], .resize 7, .traverse 0 7] =
        .ok (replies, fileLast) ∧
      run (.string ⟨[1, 2, 3, 4, 5]⟩)
        [.find 1 5 [4, 5], .write 1 [9, 9], .resize 7, .traverse 0 7] =
        .ok (replies, stringLast) ∧
      fileLast.bytes = stringLast.bytes ∧
      MeetsAll [1, 2, 3, 4, 5] [.find 1 5 [4, 5], .write 1 [9, 9], .resize 7, .traverse 0 7]
        replies stringLast.bytes :=
  file_runs_as_string [1, 2, 3, 4, 5] [] 2 2 (fun _ => false)
    [.find 1 5 [4, 5], .write 1 [9, 9], .resize 7, .traverse 0 7] (by decide) (by decide)
    (by decide) (by decide) (by decide) (by decide)

end FastcgiContainer.FlatBuffer
