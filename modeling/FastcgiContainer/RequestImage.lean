import FastcgiContainer.BufferWriter
import FastcgiContainer.RequestSerializer

/-! The bytes that `Request::serialize` writes, and that they are written whole. -/

namespace FastcgiContainer.Request

open Word (Bytes)
open StringUtils (NamedValue)
open DataBuffer (Emits Apart Writer emits_write emits_append emits_nothing)

def sectionImage (data : Bytes) : Bytes := Word.toBytes 8 data.length ++ data

def pairImage (entry : NamedValue) : Bytes := sectionImage entry.1 ++ sectionImage entry.2

def pairsImage (entries : List NamedValue) : Bytes := entries.flatMap pairImage

def fileImage (body : DataBuffer) (entry : Bytes × File) : Bytes :=
  sectionImage entry.1 ++ (sectionImage entry.2.name ++ (sectionImage entry.2.type ++
    (Word.toBytes 8 (Word.sub entry.2.data.beginIndex body.beginIndex) ++
      Word.toBytes 8 (Word.sub entry.2.data.endIndex entry.2.data.beginIndex))))

def filesImage (request : Request) : Bytes :=
  request.files.entries.flatMap (fileImage request.body)

def envImage (request : Request) : Bytes :=
  sectionImage (pairsImage request.headers.entries) ++
    (sectionImage (pairsImage request.cookies.entries) ++
      sectionImage (pairsImage request.vars.entries))

def tailImage (request : Request) : Bytes :=
  sectionImage request.filesImage ++ sectionImage (pairsImage request.args)

def image (request : Request) (body : Bytes) : Bytes :=
  request.envImage ++ (sectionImage body ++ request.tailImage)

@[simp] theorem sectionImage_length (data : Bytes) :
    (sectionImage data).length = 8 + data.length := by
  simp [sectionImage]

theorem pairsImage_length (entries : List NamedValue) :
    (pairsImage entries).length = pairsSize entries := by
  induction entries with
  | nil => rfl
  | cons entry rest ih =>
      simp only [pairsImage, pairsSize, List.flatMap_cons, List.length_append, List.map_cons,
        List.sum_cons, pairImage, sectionImage_length] at ih ⊢
      omega

theorem filesImage_length (request : Request) :
    request.filesImage.length = request.filesSerializedSize := by
  unfold filesImage filesSerializedSize
  induction request.files.entries with
  | nil => rfl
  | cons entry rest ih =>
      simp only [List.flatMap_cons, List.length_append, List.map_cons, List.sum_cons, fileImage,
        fileSize, sectionImage_length, Word.toBytes_length] at ih ⊢
      omega

theorem envImage_length (request : Request) : request.envImage.length = request.envSize := by
  simp only [envImage, envSize, List.length_append, sectionImage_length, pairsImage_length]
  omega

theorem tailImage_length (request : Request) :
    request.tailImage.length = 2 * 8 + request.filesSerializedSize + request.argsSerializedSize := by
  simp only [tailImage, argsSerializedSize, List.length_append, sectionImage_length,
    pairsImage_length, filesImage_length]
  omega

section Emits

variable {guard : Heap → Prop} {buffer : DataBuffer} {ref : Nat} (apart : Apart guard ref)

theorem serializeInt_emits (val : Nat) :
    Emits guard buffer ref (serializeInt buffer val) (Word.toBytes 8 val) :=
  emits_write _

include apart

theorem serializeString_emits (val : Bytes) :
    Emits guard buffer ref (serializeString buffer val) (sectionImage val) :=
  emits_append apart (serializeInt_emits val.length) (emits_write val)

theorem serializePairs_emits (entries : List NamedValue) :
    Emits guard buffer ref (serializePairs buffer entries) (pairsImage entries) := by
  induction entries with
  | nil => exact emits_nothing
  | cons entry rest ih =>
      have pair := emits_append apart (serializeString_emits apart entry.1)
        (emits_append apart (serializeString_emits apart entry.2) ih)
      rw [← List.append_assoc] at pair
      exact pair

theorem serializeFile_emits (body : DataBuffer) (entry : Bytes × File) :
    Emits guard buffer ref (serializeFile buffer body entry) (fileImage body entry) :=
  emits_append apart (serializeString_emits apart entry.1)
    (emits_append apart (serializeString_emits apart entry.2.name)
      (emits_append apart (serializeString_emits apart entry.2.type)
        (emits_append apart (serializeInt_emits _) (serializeInt_emits _))))

theorem serializeEachFile_emits (body : DataBuffer) (entries : List (Bytes × File)) :
    Emits guard buffer ref (serializeEachFile buffer body entries)
      (entries.flatMap (fileImage body)) := by
  induction entries with
  | nil => exact emits_nothing
  | cons entry rest ih => exact emits_append apart (serializeFile_emits apart body entry) ih

theorem serializeFiles_emits (request : Request) :
    Emits guard buffer ref (request.serializeFiles buffer) (sectionImage request.filesImage) := by
  rw [sectionImage, filesImage_length]
  exact emits_append apart (serializeInt_emits _) (serializeEachFile_emits apart _ _)

theorem serializeSection_emits (entries : List NamedValue) :
    Emits guard buffer ref (serializeSection buffer entries) (sectionImage (pairsImage entries)) := by
  rw [sectionImage, pairsImage_length]
  exact emits_append apart (serializeInt_emits _) (serializePairs_emits apart _)

theorem writeTail_emits (request : Request) :
    Emits guard buffer ref (fun pos heap => do
      let (pos, heap) ← request.serializeFiles buffer pos heap
      request.serializeArgs buffer pos heap) request.tailImage :=
  emits_append apart (serializeFiles_emits apart request) (serializeSection_emits apart _)

theorem writeEnv_emits (request : Request) :
    Emits guard buffer ref (request.writeEnv buffer) request.envImage :=
  emits_append apart (serializeSection_emits apart _)
    (emits_append apart (serializeSection_emits apart _) (serializeSection_emits apart _))

end Emits

/-- Where the body is: nowhere, or in a storage other than the one written to. -/
def Source (ref : Nat) (src : DataBuffer) (text : Bytes) (heap : Heap) : Prop :=
  (src = .nil ∧ text = []) ∨
    ∃ srcRef storage, srcRef ≠ ref ∧ src.Shows heap srcRef storage ∧ src.text storage = text

theorem source_apart (ref : Nat) (src : DataBuffer) (text : Bytes) : Apart (Source ref src text) ref := by
  intro heap next source
  rcases source with ⟨none, blank⟩ | ⟨srcRef, storage, differ, shown, same⟩
  · exact Or.inl ⟨none, blank⟩
  · exact Or.inr ⟨srcRef, storage, differ, shown.apart ref differ.symm next, same⟩

theorem serializeChunks_emits {buffer src : DataBuffer} {ref srcRef : Nat} {storage : DataBufferImpl}
    (differ : srcRef ≠ ref) (pieces : List (Nat × Nat))
    (inside : ∀ piece ∈ pieces, piece.1 + piece.2 ≤ storage.bytes.length) :
    Emits (fun heap => src.Shows heap srcRef storage) buffer ref (serializeChunks buffer src pieces)
      (pieces.flatMap (fun piece => Range.slice storage.bytes piece.1 (piece.1 + piece.2))) := by
  have apart : Apart (fun heap => src.Shows heap srcRef storage) ref := by
    intro heap next shown
    exact shown.apart ref differ.symm next
  induction pieces with
  | nil => exact emits_nothing
  | cons piece rest ih =>
      intro pos heap target guarded shown fits
      have tail := ih (fun other member => inside other (by simp [member]))
      have loaded := storage.load_spec piece.1 piece.2 (inside piece (by simp))
      obtain ⟨next, done, nextInv, written⟩ :=
        emits_append apart (emits_write (Range.slice storage.bytes piece.1 (piece.1 + piece.2))) tail
          pos heap target guarded shown fits
      refine ⟨next, ?_, nextInv, written⟩
      simp only [serializeChunks, guarded.impl_eq, ok_bind, loaded]
      exact done

theorem serializeBuffer_emits {buffer src : DataBuffer} {ref : Nat} {text : Bytes} :
    Emits (Source ref src text) buffer ref (serializeBuffer buffer src) (sectionImage text) := by
  intro pos heap target guarded shown fits
  rcases guarded with ⟨rfl, rfl⟩ | ⟨srcRef, storage, differ, srcShown, same⟩
  · have apart : Apart (fun _ => True) ref := fun _ _ _ => trivial
    exact emits_append apart (serializeInt_emits 0) emits_nothing pos heap target trivial shown fits
  · have apart : Apart (fun heap => src.Shows heap srcRef storage) ref := by
      intro heap next shown
      exact shown.apart ref differ.symm next
    have length : src.size = text.length := by rw [← same, srcShown.text_length]
    have joined := (DataBuffer.chunks_spec srcShown).2
    rw [same] at joined
    have copied := @serializeChunks_emits buffer src ref srcRef storage differ
      (DataBufferImpl.cuts storage.boundary (src.endIndex - src.beginIndex) src.beginIndex src.endIndex)
      (by
        intro piece member
        have inside := srcShown.inside
        have bounds := DataBufferImpl.cuts_inside storage.boundary src.endIndex
          (fun pos before => storage.boundary_gt srcShown.inv pos (by omega)) _ _ piece member
        omega)
    rw [List.flatMap_def, joined] at copied
    obtain ⟨next, done, nextInv, written⟩ := emits_append apart (serializeInt_emits text.length) copied
      pos heap target srcShown shown fits
    refine ⟨next, Eq.trans ?_ done, nextInv, written⟩
    obtain ⟨middle, firstDone, middleInv, _⟩ := @serializeInt_emits (fun _ => True) buffer ref
      text.length pos heap target trivial shown fits
    simp only [serializeBuffer, length, firstDone, ok_bind,
      DataBuffer.segments_spec (srcShown.apart ref differ.symm middle)]

theorem serializeEnv_spec {heap : Heap} {buffer : DataBuffer} {ref : Nat} {storage : DataBufferImpl}
    (request : Request) (shown : buffer.Shows heap ref storage) (addSize total : Nat)
    (sum : Word.add addSize request.envSize = total) (fits : buffer.beginIndex + total < Word.base) :
    ∃ next, request.serializeEnv heap buffer addSize = .ok (min request.envSize total,
        { buffer with endIndex := buffer.beginIndex + total }, heap.set ref next) ∧ next.Inv ∧
      next.bytes = overwrite (resized storage.bytes (buffer.beginIndex + total)) buffer.beginIndex
        (request.envImage.take total) := by
  obtain ⟨middle, resizing, middleInv, middleBytes⟩ := DataBuffer.resize_spec shown total fits
  have grown : ({ buffer with endIndex := buffer.beginIndex + total } : DataBuffer).Shows
      (heap.set ref middle) ref middle := by
    refine ⟨shown.data, ?_, middleInv, by simp, ?_⟩
    · rw [List.getElem?_set_self shown.inHeap]
    · rw [middleBytes, resized_length]
  have size : ({ buffer with endIndex := buffer.beginIndex + total } : DataBuffer).size = total := by
    rw [grown.size_eq]
    exact Nat.add_sub_cancel_left _ _
  have apart : Apart (fun _ => True) ref := fun _ _ _ => trivial
  obtain ⟨next, done, nextInv, written⟩ := writeEnv_emits apart request 0 _ middle trivial grown
    (Nat.zero_le _)
  rw [List.set_set, Nat.zero_add, envImage_length, size] at done
  rw [size, Nat.sub_zero, middleBytes] at written
  refine ⟨next, ?_, nextInv, written⟩
  simp only [serializeEnv, sum, resizing, ok_bind, done]

theorem writeRest_emits {buffer : DataBuffer} {ref : Nat} (request : Request) (text : Bytes) :
    Emits (Source ref request.body text) buffer ref (request.writeRest buffer)
      (sectionImage text ++ request.tailImage) :=
  have apart := source_apart ref request.body text
  emits_append apart serializeBuffer_emits (writeTail_emits apart request)

/-- `serialize` makes the buffer as large as the image and fills it with the image. -/
theorem serialize_spec {heap : Heap} {buffer : DataBuffer} {ref : Nat} {storage : DataBufferImpl}
    (request : Request) (text : Bytes) (shown : buffer.Shows heap ref storage)
    (source : Source ref request.body text heap)
    (fits : buffer.beginIndex + (request.image text).length < Word.base) :
    ∃ next, request.serialize heap buffer =
        .ok ({ buffer with endIndex := buffer.beginIndex + (request.image text).length },
          heap.set ref next) ∧ next.Inv ∧
      next.bytes.length = buffer.beginIndex + (request.image text).length ∧
      ({ buffer with endIndex := buffer.beginIndex + (request.image text).length } : DataBuffer).text
        next = request.image text := by
  have bodySize : request.body.size = text.length := by
    rcases source with ⟨none, rfl⟩ | ⟨srcRef, srcStorage, differ, srcShown, same⟩
    · rw [none]
      rfl
    · rw [← same, srcShown.text_length]
  have total : 8 + request.body.size + 8 + request.filesSerializedSize + 8 +
      request.argsSerializedSize + request.envSize = (request.image text).length := by
    simp only [image, List.length_append, sectionImage_length, envImage_length, tailImage_length,
      bodySize]
    omega
  have sum := Word.add_eq (8 + request.body.size + 8 + request.filesSerializedSize + 8 +
    request.argsSerializedSize) request.envSize (by omega)
  have order := shown.order
  obtain ⟨middle, envDone, middleInv, middleBytes⟩ := serializeEnv_spec request shown _ _
    (sum.trans total) fits
  have env : request.envSize ≤ (request.image text).length := by omega
  rw [Nat.min_eq_left env] at envDone
  rw [List.take_of_length_le (by rw [envImage_length]; exact env)] at middleBytes
  have width : buffer.beginIndex + request.envImage.length ≤
      (resized storage.bytes (buffer.beginIndex + (request.image text).length)).length := by
    rw [resized_length, image, List.length_append]
    omega
  have middleLength : middle.bytes.length = buffer.beginIndex + (request.image text).length := by
    rw [middleBytes, overwrite_length _ _ _ width, resized_length]
  have grown : ({ buffer with endIndex := buffer.beginIndex + (request.image text).length } :
      DataBuffer).Shows (heap.set ref middle) ref middle := by
    refine ⟨shown.data, ?_, middleInv, by simp, by simp [middleLength]⟩
    rw [List.getElem?_set_self shown.inHeap]
  have fill : request.envSize + (sectionImage text ++ request.tailImage).length ≤
      ({ buffer with endIndex := buffer.beginIndex + (request.image text).length } :
        DataBuffer).size := by
    rw [grown.size_eq]
    simp only [image, List.length_append, envImage_length]
    omega
  obtain ⟨next, restDone, nextInv, nextBytes⟩ := (writeRest_emits request text).whole
    (source_apart ref request.body text heap middle source) grown fill
  rw [← envImage_length, middleBytes] at nextBytes
  rw [overwrite_overwrite _ _ _ _ width] at nextBytes
  change next.bytes = overwrite _ _ (request.image text) at nextBytes
  have whole : buffer.beginIndex + (request.image text).length ≤
      (resized storage.bytes (buffer.beginIndex + (request.image text).length)).length := by
    rw [resized_length]
  refine ⟨next, ?_, nextInv, ?_, ?_⟩
  · simp only [serialize, envDone, ok_bind, restDone, List.set_set]
  · rw [nextBytes, overwrite_length _ _ _ whole, resized_length]
  · rw [DataBuffer.text, nextBytes]
    exact DataBuffer.slice_overwrite _ _ _ whole

end FastcgiContainer.Request
