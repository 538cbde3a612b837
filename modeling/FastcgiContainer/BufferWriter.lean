import FastcgiContainer.DataBuffer

/-! Writing into a buffer front to back: the positions of a program that writes
piece after piece need no attention once it is known what each piece writes. -/

namespace FastcgiContainer

open Word (Bytes)

namespace DataBuffer

abbrev Writer := Nat → Heap → Except Exn (Nat × Heap)

/-- The step writes the data at its position as far as the buffer reaches, and
nothing else; it may rely on what the guard says of the heap. -/
def Emits (guard : Heap → Prop) (buffer : DataBuffer) (ref : Nat) (writer : Writer)
    (data : Bytes) : Prop :=
  ∀ pos heap storage, guard heap → buffer.Shows heap ref storage → pos ≤ buffer.size →
    ∃ next, writer pos heap = .ok (min (pos + data.length) buffer.size, heap.set ref next) ∧
      next.Inv ∧ next.bytes = overwrite storage.bytes (buffer.beginIndex + pos)
        (data.take (buffer.size - pos))

def Apart (guard : Heap → Prop) (ref : Nat) : Prop :=
  ∀ heap next, guard heap → guard (heap.set ref next)

section Emits

variable {guard : Heap → Prop} {buffer : DataBuffer} {ref : Nat}

theorem emits_write (data : Bytes) :
    Emits guard buffer ref (fun pos heap => do
      let (written, heap) ← buffer.write heap pos data
      .ok (pos + written, heap)) data := by
  intro pos heap storage _ shown start
  obtain ⟨next, done, nextInv, written⟩ := write_spec shown pos data start
  refine ⟨next, ?_, nextInv, written⟩
  have stop : pos + min (buffer.size - pos) data.length = min (pos + data.length) buffer.size := by
    omega
  simp only [done, ok_bind, stop]

theorem emits_nothing : Emits guard buffer ref (fun pos heap => .ok (pos, heap)) [] := by
  intro pos heap storage _ shown start
  refine ⟨storage, ?_, shown.inv, by simp⟩
  obtain ⟨inHeap, same⟩ := List.getElem?_eq_some_iff.mp shown.live
  rw [← same, List.set_getElem_self, List.length_nil, Nat.add_zero, Nat.min_eq_left start]

theorem emits_append (apart : Apart guard ref) {first second : Writer} {front back : Bytes}
    (frontEmits : Emits guard buffer ref first front)
    (backEmits : Emits guard buffer ref second back) :
    Emits guard buffer ref (fun pos heap => do
      let (pos, heap) ← first pos heap
      second pos heap) (front ++ back) := by
  intro pos heap storage guarded shown start
  have size := shown.size_eq
  have order := shown.order
  have inside := shown.inside
  obtain ⟨middle, firstDone, middleInv, middleBytes⟩ :=
    frontEmits pos heap storage guarded shown start
  have width : (front.take (buffer.size - pos)).length = min (buffer.size - pos) front.length :=
    List.length_take
  have room : buffer.beginIndex + pos + (front.take (buffer.size - pos)).length ≤
      storage.bytes.length := by omega
  have middleLength : middle.bytes.length = storage.bytes.length := by
    rw [middleBytes]
    exact overwrite_length _ _ _ room
  obtain ⟨next, secondDone, nextInv, nextBytes⟩ :=
    backEmits (min (pos + front.length) buffer.size) (heap.set ref middle) middle
      (apart heap middle guarded) (shown.replaced middle middleInv (by omega)) (by omega)
  refine ⟨next, ?_, nextInv, ?_⟩
  · have stop : min (min (pos + front.length) buffer.size + back.length) buffer.size =
        min (pos + (front.length + back.length)) buffer.size := by omega
    simp only [firstDone, ok_bind, secondDone, List.set_set, List.length_append, stop]
  · have place : buffer.beginIndex + min (pos + front.length) buffer.size =
        buffer.beginIndex + pos + (front.take (buffer.size - pos)).length := by omega
    have rest : buffer.size - min (pos + front.length) buffer.size =
        buffer.size - pos - front.length := by omega
    rw [nextBytes, middleBytes, place, rest, overwrite_overwrite _ _ _ _ room, List.take_append]

theorem Emits.whole {writer : Writer} {data : Bytes} (emits : Emits guard buffer ref writer data)
    {pos : Nat} {heap : Heap} {storage : DataBufferImpl} (guarded : guard heap)
    (shown : buffer.Shows heap ref storage) (fits : pos + data.length ≤ buffer.size) :
    ∃ next, writer pos heap = .ok (pos + data.length, heap.set ref next) ∧ next.Inv ∧
      next.bytes = overwrite storage.bytes (buffer.beginIndex + pos) data := by
  obtain ⟨next, done, nextInv, written⟩ := emits pos heap storage guarded shown (by omega)
  rw [Nat.min_eq_left fits] at done
  rw [List.take_of_length_le (by omega)] at written
  exact ⟨next, done, nextInv, written⟩

end Emits

theorem slice_overwrite (bytes : Bytes) (pos : Nat) (data : Bytes)
    (fits : pos + data.length ≤ bytes.length) :
    Range.slice (overwrite bytes pos data) pos (pos + data.length) = data := by
  have front : (bytes.take pos).length = pos := by
    rw [List.length_take]
    omega
  have tail : (overwrite bytes pos data).drop pos = data ++ bytes.drop (pos + data.length) := by
    have cut := @List.drop_left _ (bytes.take pos) (data ++ bytes.drop (pos + data.length))
    rw [front, ← List.append_assoc] at cut
    exact cut
  rw [Range.slice, tail, Nat.add_sub_cancel_left, List.take_left]

end DataBuffer

end FastcgiContainer
