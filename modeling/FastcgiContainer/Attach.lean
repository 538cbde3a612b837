import FastcgiContainer.Environment
import FastcgiContainer.Parser
import FastcgiContainer.RequestRoundTrip

/-! `Request::attach`: the environment and the body of a request are read, and a
large body goes to a file of the request cache, laid out as `serialize` does it. -/

namespace FastcgiContainer

open Word (Bytes)

/-- A stream answers its calls in turn: what it puts at the pointer, and what it
says it has read. -/
structure RequestIOStream where
  read : Nat → Nat → Bytes × Int

/-- The cache, with the storage that its next `create` opens. -/
structure RequestCache where
  minPostSize : Nat
  storage : DataBufferImpl
  inv : storage.Inv

namespace Request

open StringUtils (NamedValue)
open DataBuffer (Emits Apart)

def addCount (sum : Nat) (count : Int) : Nat := ((sum + count) % Word.base).toNat

def readChunks (stream : RequestIOStream) (body : DataBuffer) :
    List (Nat × Nat) → Nat → Nat → Heap → Except Exn (Nat × Heap)
  | [], _, rsz, heap => .ok (rsz, heap)
  | (pointer, length) :: rest, call, rsz, heap => do
      let impl ← body.impl heap
      let (data, count) := stream.read call length
      let next ← impl.store pointer (data.take length)
      readChunks stream body rest (call + 1) (addCount rsz count) (body.update heap next)

def readBody (request : Request) (stream : RequestIOStream) (heap : Heap) :
    Except Exn (Nat × Heap) := do
  let chunks ← request.body.segments heap
  readChunks stream request.body chunks 0 0 heap

/-- The storage for the body: behind the environment in a file of the cache, with
the size between them, or in memory. -/
def openBody (request : Request) (cache : Option RequestCache) (heap : Heap) (size : Nat) :
    Except Exn (DataBuffer × Request × Heap) :=
  match cache.filter (fun cache => size ≥ cache.minPostSize) with
  | some cache => do
      let (heap, postBuffer) := DataBuffer.create heap cache.storage
      let (shift, postBuffer, heap) ← request.serializeEnv heap postBuffer (Word.add size 8)
      let (shift, heap) ← serializeInt postBuffer size shift heap
      let body ← postBuffer.view heap (postBuffer.beginIndex + shift) postBuffer.endIndex
      .ok (postBuffer, { request with body }, heap)
  | none => do
      let (heap, body) := DataBuffer.create heap (.string ⟨[]⟩)
      let (body, heap) ← body.resize heap size
      .ok (.nil, { request with body }, heap)

def parseQuery (request : Request) : Request :=
  { request with args := StringUtils.parse request.getQueryString request.args }

def parseContent (request : Request) (heap : Heap) : Except Exn Request :=
  let type := request.getContentType
  if strncasecmp (ascii "multipart/form-data") type then do
    let boundary ← Parser.getBoundary type
    if boundary.isEmpty then .ok request
    else Parser.parseMultipart request heap request.body boundary
  else if !strncasecmp (ascii "text/plain") type &&
      !strncasecmp (ascii "application/octet-stream") type && !request.disablePostParams then do
    let args ← StringUtils.parseBuffer request.body heap request.args
    .ok { request with args }
  else .ok request

def closeBody (request : Request) (postBuffer : DataBuffer) (heap : Heap) :
    Except Exn (DataBuffer × Heap) :=
  if postBuffer.isNil then .ok (postBuffer, heap)
  else do
    let pos := postBuffer.size
    let (postBuffer, heap) ← postBuffer.resize heap
      (pos + 2 * 8 + request.filesSerializedSize + request.argsSerializedSize)
    let (pos, heap) ← request.serializeFiles postBuffer pos heap
    let (_, heap) ← request.serializeArgs postBuffer pos heap
    .ok (postBuffer, heap)

/-- The second component is the local buffer of `attach`, nil if nothing is cached. -/
def attach (request : Request) (cache : Option RequestCache) (stream : RequestIOStream)
    (heap : Heap) (env : List Bytes) : Except Exn (Request × DataBuffer × Heap) := do
  let request := Parser.parse request env
  if request.getRequestMethod ≠ ascii "POST" ∧ request.getRequestMethod ≠ ascii "PUT" then
    .ok (request.parseQuery, .nil, heap)
  else do
    let length ← request.getContentLength
    let size := addCount 0 length
    let (postBuffer, request, heap) ← request.openBody cache heap size
    let (rsz, heap) ← request.readBody stream heap
    if rsz ≠ size then .error (.runtimeError "failed to read request entity")
    else do
      let request := if request.getQueryString.isEmpty then request else request.parseQuery
      let request ← request.parseContent heap
      let (postBuffer, heap) ← request.closeBody postBuffer heap
      .ok (request, postBuffer, heap)

theorem overwrite_start (bytes data : Bytes) :
    (overwrite bytes 0 data).take data.length = data := by
  rw [overwrite, List.take_zero, List.nil_append, List.take_left]

theorem overwrite_before (bytes data : Bytes) (first pos : Nat) (before : first ≤ pos)
    (inside : pos ≤ bytes.length) : (overwrite bytes pos data).take first = bytes.take first := by
  rw [overwrite, List.append_assoc, List.take_append_of_le_length, List.take_take,
    Nat.min_eq_left before]
  rw [List.length_take]
  omega

theorem set_last (heap : Heap) (impl next : DataBufferImpl) :
    (heap ++ [impl]).set heap.length next = heap ++ [next] := by
  rw [List.set_append_right _ _ (le_refl _), Nat.sub_self]
  rfl

section OpenBody

variable (request : Request) (heap : Heap) (cache : RequestCache) (size : Nat)

theorem openBody_cached (large : cache.minPostSize ≤ size) (total : Nat)
    (sum : Word.add (Word.add size 8) request.envSize = total) :
    ∃ next : DataBufferImpl, request.openBody (some cache) heap size =
        .ok (⟨some heap.length, 0, total⟩,
          { request with body :=
            ⟨some heap.length, min (request.envSize + 8) total, total⟩ }, heap ++ [next]) ∧
      next.Inv ∧ next.bytes.length = total ∧
      next.bytes.take (min (request.envSize + 8) total) =
        (request.envImage ++ Word.toBytes 8 size).take total := by
  have fits : total < Word.base := by
    rw [← sum]
    exact Word.add_lt _ _
  have made := DataBuffer.create_shows heap cache.storage cache.inv
  obtain ⟨middle, envDone, middleInv, middleBytes⟩ := serializeEnv_spec request made
    (Word.add size 8) total sum (by
      rw [DataBuffer.create, Nat.zero_add]
      exact fits)
  simp only [DataBuffer.create, Nat.zero_add, set_last] at envDone middleBytes
  have width : (request.envImage.take total).length = min total request.envSize := by
    rw [List.length_take, envImage_length]
  have middleLength : middle.bytes.length = total := by
    rw [middleBytes, overwrite_length _ _ _ (by rw [width, resized_length]; omega), resized_length]
  have live := DataBuffer.last_shows heap middleInv (Nat.zero_le total) (Nat.le_of_eq middleLength.symm)
  have span : (⟨some heap.length, 0, total⟩ : DataBuffer).size = total := live.size_eq
  obtain ⟨next, done, nextInv, nextBytes⟩ := @serializeInt_emits (fun _ => True) _ heap.length size
    (min request.envSize total) (heap ++ [middle]) middle trivial live (by
      rw [span]
      omega)
  have stop : min (min request.envSize total + 8) total = min (request.envSize + 8) total := by omega
  rw [set_last, span, Word.toBytes_length, stop] at done
  -- the two pieces are one, cut where the file ends
  have joined : next.bytes = overwrite (resized cache.storage.bytes total) 0
      ((request.envImage ++ Word.toBytes 8 size).take total) := by
    rw [nextBytes, middleBytes, span]
    simp only [Nat.zero_add]
    rw [Nat.min_comm request.envSize, ← width, ← Nat.zero_add (List.length _),
      overwrite_overwrite _ _ _ _ (by rw [width, resized_length]; omega)]
    have rest : total - (0 + (request.envImage.take total).length) =
        total - request.envImage.length := by
      rw [width, envImage_length]
      omega
    rw [rest, List.take_append]
  have cut : ((request.envImage ++ Word.toBytes 8 size).take total).length =
      min (request.envSize + 8) total := by
    rw [List.length_take, List.length_append, envImage_length, Word.toBytes_length, Nat.min_comm]
  have nextLength : next.bytes.length = total := by
    rw [joined, overwrite_length _ _ _ (by rw [cut, resized_length]; omega), resized_length]
  have shown := DataBuffer.last_shows heap nextInv (Nat.zero_le total) (Nat.le_of_eq nextLength.symm)
  have view := DataBuffer.view_spec shown (min (request.envSize + 8) total)
    total (Nat.le_of_eq nextLength.symm)
  refine ⟨next, ?_, nextInv, nextLength, ?_⟩
  · have taken : (some cache).filter (fun cache => size ≥ cache.minPostSize) = some cache := by
      simp [Option.filter, large]
    unfold openBody
    rw [taken]
    simp only [DataBuffer.create]
    rw [envDone, ok_bind]
    simp only
    rw [done, ok_bind]
    simp only
    rw [Nat.zero_add, view, ok_bind]
  · rw [joined, ← cut, overwrite_start]

end OpenBody

theorem readChunks_spec (stream : RequestIOStream) {body : DataBuffer} {ref : Nat}
    (pieces : List (Nat × Nat)) (call rsz : Nat) (heap : Heap) (storage : DataBufferImpl)
    (shown : body.Shows heap ref storage)
    (inside : ∀ piece ∈ pieces, body.beginIndex ≤ piece.1 ∧
      piece.1 + piece.2 ≤ storage.bytes.length) :
    ∃ total next, readChunks stream body pieces call rsz heap = .ok (total, heap.set ref next) ∧
      next.Inv ∧ next.bytes.length = storage.bytes.length ∧
      next.bytes.take body.beginIndex = storage.bytes.take body.beginIndex := by
  induction pieces generalizing call rsz heap storage with
  | nil =>
      refine ⟨rsz, storage, ?_, shown.inv, rfl, rfl⟩
      obtain ⟨inHeap, same⟩ := List.getElem?_eq_some_iff.mp shown.live
      rw [readChunks, ← same, List.set_getElem_self]
  | cons piece rest ih =>
      have bounds := inside piece (by simp)
      have width : ((stream.read call piece.2).1.take piece.2).length ≤ piece.2 := by
        rw [List.length_take]
        omega
      obtain ⟨middle, stored, middleInv, middleBytes⟩ := storage.store_spec shown.inv piece.1
        ((stream.read call piece.2).1.take piece.2) (by omega)
      have middleLength : middle.bytes.length = storage.bytes.length := by
        rw [middleBytes]
        exact overwrite_length _ _ _ (by omega)
      have kept : middle.bytes.take body.beginIndex = storage.bytes.take body.beginIndex := by
        rw [middleBytes]
        exact overwrite_before _ _ _ _ bounds.1 (by omega)
      have last := shown.inside
      obtain ⟨total, next, done, nextInv, nextLength, nextKept⟩ := ih (call + 1)
        (addCount rsz (stream.read call piece.2).2) (heap.set ref middle) middle
        (shown.replaced middle middleInv (by omega)) (by
          intro other member
          have otherBounds := inside other (by simp [member])
          omega)
      refine ⟨total, next, ?_, nextInv, nextLength.trans middleLength, nextKept.trans kept⟩
      rw [List.set_set] at done
      simp only [readChunks, shown.impl_eq, ok_bind, stored, DataBuffer.update, shown.data, done]

theorem readBody_spec (request : Request) (stream : RequestIOStream) {heap : Heap} {ref : Nat}
    {storage : DataBufferImpl} (shown : request.body.Shows heap ref storage) :
    ∃ total next, request.readBody stream heap = .ok (total, heap.set ref next) ∧ next.Inv ∧
      next.bytes.length = storage.bytes.length ∧
      next.bytes.take request.body.beginIndex = storage.bytes.take request.body.beginIndex := by
  have inside := shown.inside
  obtain ⟨total, next, done, rest⟩ := readChunks_spec stream
    (DataBufferImpl.cuts storage.boundary (request.body.endIndex - request.body.beginIndex)
      request.body.beginIndex request.body.endIndex) 0 0 heap storage shown (by
      intro piece member
      have bounds := DataBufferImpl.cuts_inside storage.boundary request.body.endIndex
        (fun pos before => storage.boundary_gt shown.inv pos (by omega)) _ _ piece member
      omega)
  refine ⟨total, next, ?_, rest⟩
  simp only [readBody, DataBuffer.segments_spec shown, ok_bind, done]

theorem readBody_empty (request : Request) (stream : RequestIOStream) (heap : Heap)
    (none : request.body.empty = true) : request.readBody stream heap = .ok (0, heap) := by
  simp [readBody, DataBuffer.segments, none, readChunks]

structure Kept (request next : Request) : Prop where
  headers : next.headers = request.headers
  cookies : next.cookies = request.cookies
  vars : next.vars = request.vars
  body : next.body = request.body

theorem Kept.refl (request : Request) : Kept request request := ⟨rfl, rfl, rfl, rfl⟩

theorem Kept.trans {first second third : Request} (left : Kept first second)
    (right : Kept second third) : Kept first third :=
  ⟨right.headers.trans left.headers, right.cookies.trans left.cookies, right.vars.trans left.vars,
    right.body.trans left.body⟩

theorem parsePart_kept {request next : Request} {heap : Heap} {part : DataBuffer}
    (done : Parser.parsePart request heap part = .ok next) : Kept request next := by
  unfold Parser.parsePart at done
  obtain ⟨⟨headers, content⟩, _, done⟩ := bind_eq_ok _ _ _ done
  obtain ⟨found, _, done⟩ := bind_eq_ok _ _ _ done
  split at done
  · cases done
    exact Kept.refl request
  · obtain ⟨name, _, done⟩ := bind_eq_ok _ _ _ done
    split at done
    · obtain ⟨arg, _, done⟩ := bind_eq_ok _ _ _ done
      cases done
      exact ⟨rfl, rfl, rfl, rfl⟩
    · obtain ⟨file, _, done⟩ := bind_eq_ok _ _ _ done
      cases done
      exact ⟨rfl, rfl, rfl, rfl⟩

theorem addPart_kept {request next : Request} {heap : Heap} {part : DataBuffer}
    (done : Parser.addPart request heap part = .ok next) : Kept request next := by
  unfold Parser.addPart at done
  split at done
  · cases done
    exact Kept.refl request
  · exact parsePart_kept done

theorem parseMultipartLoop_kept {heap : Heap} {boundary : Bytes} (fuel : Nat)
    {request next : Request} {data : DataBuffer}
    (done : Parser.parseMultipartLoop heap boundary fuel request data = .ok next) :
    Kept request next := by
  induction fuel generalizing request data with
  | zero =>
      simp only [Parser.parseMultipartLoop] at done
      split at done
      · cases done
        exact Kept.refl _
      · cases done
  | succ fuel ih =>
      simp only [Parser.parseMultipartLoop] at done
      split at done
      · cases done
        exact Kept.refl _
      · obtain ⟨⟨found, head, tail⟩, _, done⟩ := bind_eq_ok _ _ _ done
        obtain ⟨part, _, done⟩ := bind_eq_ok _ _ _ done
        obtain ⟨middle, added, done⟩ := bind_eq_ok _ _ _ done
        obtain ⟨last, _, done⟩ := bind_eq_ok _ _ _ done
        split at done
        · cases done
          exact addPart_kept added
        · exact (addPart_kept added).trans (ih done)

theorem parseQuery_kept (request : Request) : Kept request request.parseQuery := ⟨rfl, rfl, rfl, rfl⟩

theorem parseContent_kept {request next : Request} {heap : Heap}
    (done : request.parseContent heap = .ok next) : Kept request next := by
  simp only [parseContent] at done
  split at done
  · obtain ⟨boundary, _, done⟩ := bind_eq_ok _ _ _ done
    split at done
    · cases done
      exact Kept.refl request
    · exact parseMultipartLoop_kept _ done
  · split at done
    · obtain ⟨args, _, done⟩ := bind_eq_ok _ _ _ done
      cases done
      exact ⟨rfl, rfl, rfl, rfl⟩
    · cases done
      exact Kept.refl request

theorem overwrite_end (bytes data : Bytes) :
    overwrite (resized bytes (bytes.length + data.length)) bytes.length data = bytes ++ data := by
  have front : (resized bytes (bytes.length + data.length)).take bytes.length = bytes := by
    rw [resized, List.take_of_length_le (Nat.le_add_right _ _), List.take_left]
  have back : (resized bytes (bytes.length + data.length)).drop (bytes.length + data.length) = [] := by
    rw [List.drop_eq_nil_iff, resized_length]
  rw [overwrite, front, back, List.append_nil]

theorem closeBody_spec {request : Request} {heap after : Heap} {ref : Nat} {storage : DataBufferImpl}
    {final : DataBuffer} (shown : (⟨some ref, 0, storage.bytes.length⟩ : DataBuffer).Shows heap ref
      storage)
    (done : request.closeBody ⟨some ref, 0, storage.bytes.length⟩ heap = .ok (final, after)) :
    ∃ filled, after = heap.set ref filled ∧ filled.Inv ∧
      filled.bytes = storage.bytes ++ request.tailImage ∧
      final = ⟨some ref, 0, filled.bytes.length⟩ := by
  have size : (⟨some ref, 0, storage.bytes.length⟩ : DataBuffer).size = storage.bytes.length :=
    shown.size_eq
  have tail := request.tailImage_length
  have sum : storage.bytes.length + 2 * 8 + request.filesSerializedSize + request.argsSerializedSize =
      storage.bytes.length + request.tailImage.length := by omega
  simp only [closeBody, DataBuffer.isNil, Option.isNone_some, Bool.false_eq_true, if_false, size,
    sum] at done
  obtain ⟨⟨grown, middleHeap⟩, resizing, done⟩ := bind_eq_ok _ _ _ done
  obtain ⟨middle, rfl, rfl, middleBytes, live⟩ := DataBuffer.resize_shows shown resizing
  simp only [Nat.zero_add] at live middleBytes done
  have span : (⟨some ref, 0, storage.bytes.length + request.tailImage.length⟩ : DataBuffer).size =
      storage.bytes.length + request.tailImage.length := live.size_eq
  have apart : Apart (fun _ => True) ref := fun _ _ _ => trivial
  obtain ⟨next, written, nextInv, nextBytes⟩ := (writeTail_emits apart request).whole trivial live
    (Nat.le_of_eq span.symm)
  obtain ⟨⟨filesEnd, filesHeap⟩, filesDone, done⟩ := bind_eq_ok _ _ _ done
  obtain ⟨⟨argsEnd, argsHeap⟩, argsDone, done⟩ := bind_eq_ok _ _ _ done
  simp only at filesDone argsDone
  rw [filesDone, ok_bind] at written
  simp only at written
  rw [argsDone, List.set_set] at written
  obtain ⟨rfl, rfl⟩ := Prod.mk.inj (Except.ok.inj written)
  obtain ⟨rfl, rfl⟩ := Prod.mk.inj (Except.ok.inj done)
  rw [Nat.zero_add, middleBytes, overwrite_end] at nextBytes
  refine ⟨next, rfl, nextInv, nextBytes, ?_⟩
  rw [nextBytes, List.length_append]

theorem addCount_lt (sum : Nat) (count : Int) : addCount sum count < Word.base := by
  have positive : (0 : Int) < Word.base := by decide
  have lower := Int.emod_nonneg (sum + count) (Int.ne_of_gt positive)
  have upper := Int.emod_lt_of_pos (sum + count) positive
  unfold addCount
  omega

theorem openBody_taken {request opened : Request} {cache : Option RequestCache} {heap after : Heap}
    {size : Nat} {postBuffer : DataBuffer}
    (done : request.openBody cache heap size = .ok (postBuffer, opened, after))
    (cached : postBuffer.isNil = false) :
    ∃ taken : RequestCache, cache = some taken ∧ taken.minPostSize ≤ size := by
  unfold openBody at done
  split at done
  · next taken chosen =>
      obtain ⟨same, large⟩ := Option.filter_eq_some_iff.mp chosen
      exact ⟨taken, same, by simpa using large⟩
  · obtain ⟨⟨body, bodyHeap⟩, _, done⟩ := bind_eq_ok _ _ _ done
    cases done
    cases cached

theorem closeBody_isNil {request : Request} {postBuffer final : DataBuffer} {heap after : Heap}
    (done : request.closeBody postBuffer heap = .ok (final, after)) :
    final.isNil = postBuffer.isNil ∧ (final.isNil = true → after = heap) := by
  unfold closeBody at done
  split at done
  · cases done
    exact ⟨rfl, fun _ => rfl⟩
  · next filled =>
      obtain ⟨⟨grown, grownHeap⟩, resizing, done⟩ := bind_eq_ok _ _ _ done
      obtain ⟨_, _, done⟩ := bind_eq_ok _ _ _ done
      obtain ⟨_, _, done⟩ := bind_eq_ok _ _ _ done
      cases done
      unfold DataBuffer.resize at resizing
      obtain ⟨_, _, resizing⟩ := bind_eq_ok _ _ _ resizing
      obtain ⟨_, _, resizing⟩ := bind_eq_ok _ _ _ resizing
      cases resizing
      exact ⟨rfl, fun none => absurd none filled⟩

/-- Everything that `attach` can do: a request without a body takes the arguments
of its query, any other one goes through all the steps. -/
theorem attach_cases {request result : Request} {cache : Option RequestCache}
    {stream : RequestIOStream} {heap after : Heap} {env : List Bytes} {postBuffer : DataBuffer}
    (done : request.attach cache stream heap env = .ok (result, postBuffer, after)) :
    (result = (Parser.parse request env).parseQuery ∧ postBuffer = .nil ∧ after = heap) ∨
    ∃ size opened queried first firstHeap middleHeap, size < Word.base ∧
      (Parser.parse request env).openBody cache heap size = .ok (first, opened, firstHeap) ∧
      opened.readBody stream firstHeap = .ok (size, middleHeap) ∧
      Kept opened queried ∧ queried.files = opened.files ∧
      queried.parseContent middleHeap = .ok result ∧
      result.closeBody first middleHeap = .ok (postBuffer, after) := by
  simp only [attach] at done
  split at done
  · cases done
    exact Or.inl ⟨rfl, rfl, rfl⟩
  · right
    obtain ⟨length, _, done⟩ := bind_eq_ok _ _ _ done
    obtain ⟨⟨first, opened, firstHeap⟩, opening, done⟩ := bind_eq_ok _ _ _ done
    obtain ⟨⟨rsz, middleHeap⟩, reading, done⟩ := bind_eq_ok _ _ _ done
    split at done
    · cases done
    · next complete =>
        obtain ⟨parsed, parsing, done⟩ := bind_eq_ok _ _ _ done
        obtain ⟨⟨final, finalHeap⟩, closing, done⟩ := bind_eq_ok _ _ _ done
        cases done
        simp only [ne_eq, Decidable.not_not] at complete
        rw [complete] at reading
        refine ⟨_, opened, _, first, firstHeap, middleHeap, addCount_lt 0 length, opening, reading,
          ?_, ?_, parsing, closing⟩
        · split
          · exact Kept.refl opened
          · exact parseQuery_kept opened
        · split <;> rfl

theorem kept_image {request next : Request} (kept : Kept request next) :
    next.envImage = request.envImage ∧ next.envSize = request.envSize := by
  constructor
  · rw [envImage, kept.headers, kept.cookies, kept.vars]
    rfl
  · rw [envSize, kept.headers, kept.cookies, kept.vars]
    rfl

/-- The file of the cache holds the image of the request, with the body that was
read as its text. -/
theorem attach_filled {request result : Request} {cache : Option RequestCache}
    {stream : RequestIOStream} {heap after : Heap} {env : List Bytes} {postBuffer : DataBuffer}
    (small : (Parser.parse request env).envSize + 8 < Word.base)
    (done : request.attach cache stream heap env = .ok (result, postBuffer, after))
    (cached : postBuffer.isNil = false) :
    ∃ (filled : DataBufferImpl) (text : Bytes), after = heap ++ [filled] ∧
      postBuffer = ⟨some heap.length, 0, filled.bytes.length⟩ ∧
      postBuffer.Shows after heap.length filled ∧ filled.bytes = result.image text ∧
      result.body = result.bodyIn text postBuffer := by
  rcases attach_cases done with ⟨_, rfl, _⟩ | ⟨size, opened, queried, first, firstHeap, middleHeap,
    bound, opening, reading, asked, _, parsing, closing⟩
  · cases cached
  obtain ⟨taken, rfl, large⟩ := openBody_taken opening
    ((closeBody_isNil closing).1.symm.trans cached)
  have kept := asked.trans (parseContent_kept parsing)
  generalize Parser.parse request env = parsed at small opening
  obtain ⟨next, opens, nextInv, nextLength, nextFront⟩ := openBody_cached parsed heap taken size large
    _ rfl
  obtain ⟨rfl, same⟩ := Prod.mk.inj (Except.ok.inj (opening.symm.trans opens))
  obtain ⟨rfl, rfl⟩ := Prod.mk.inj same
  by_cases fits : size + 8 + parsed.envSize < Word.base
  · -- the file has room for the environment and the body
    have total : Word.add (Word.add size 8) parsed.envSize = size + 8 + parsed.envSize := by
      rw [Word.add_eq size 8 (by omega), Word.add_eq _ _ fits]
    have start : min (parsed.envSize + 8) (size + 8 + parsed.envSize) = parsed.envSize + 8 := by omega
    rw [total] at closing nextLength
    rw [total, start] at reading kept nextFront
    have order : parsed.envSize + 8 ≤ size + 8 + parsed.envSize := by omega
    have bodyShown := DataBuffer.last_shows heap nextInv order (Nat.le_of_eq nextLength.symm)
    obtain ⟨rsz, middle, reads, middleInv, middleLength, middleFront⟩ := readBody_spec
      { parsed with body := ⟨some heap.length, parsed.envSize + 8, size + 8 + parsed.envSize⟩ }
      stream bodyShown
    obtain ⟨_, rfl⟩ := Prod.mk.inj (Except.ok.inj (reading.symm.trans reads))
    rw [set_last] at closing
    rw [← nextLength, ← middleLength] at closing
    have shown := DataBuffer.last_shows heap middleInv (Nat.zero_le _) (le_refl middle.bytes.length)
    obtain ⟨filled, rfl, filledInv, filledBytes, final⟩ := closeBody_spec shown closing
    obtain ⟨env, width⟩ := kept_image kept
    change result.envImage = parsed.envImage at env
    change result.envSize = parsed.envSize at width
    have front : middle.bytes.take (parsed.envSize + 8) = parsed.envImage ++ Word.toBytes 8 size := by
      rw [middleFront, nextFront]
      apply List.take_of_length_le
      rw [List.length_append, envImage_length, Word.toBytes_length]
      omega
    have textLength : (middle.bytes.drop (parsed.envSize + 8)).length = size := by
      rw [List.length_drop]
      omega
    refine ⟨filled, middle.bytes.drop (parsed.envSize + 8), set_last _ _ _, final, ?_, ?_, ?_⟩
    · rw [final, set_last]
      exact DataBuffer.last_shows heap filledInv (Nat.zero_le _) (le_refl _)
    · calc
        filled.bytes = middle.bytes ++ result.tailImage := filledBytes
        _ = middle.bytes.take (parsed.envSize + 8) ++ middle.bytes.drop (parsed.envSize + 8) ++
            result.tailImage := by rw [List.take_append_drop]
        _ = parsed.envImage ++ Word.toBytes 8 size ++ middle.bytes.drop (parsed.envSize + 8) ++
            result.tailImage := by rw [front]
        _ = result.image (middle.bytes.drop (parsed.envSize + 8)) := by
          rw [image, sectionImage, textLength, env]
          simp only [List.append_assoc]
    · have stop : parsed.envSize + 8 + size = size + 8 + parsed.envSize := by omega
      rw [kept.body, final, bodyIn, width, textLength, Nat.zero_add, stop]
  · -- the size of the body has wrapped around: nothing is read, and that is too little
    have total := Word.add_add_wrapped size 8 parsed.envSize bound (by omega) (by omega)
    rw [total] at reading
    rw [readBody_empty _ _ _ (by simp [DataBuffer.empty]; omega)] at reading
    obtain ⟨rfl, _⟩ := Prod.mk.inj (Except.ok.inj reading)
    omega

theorem attach_text {result : Request} {filled : DataBufferImpl} {text : Bytes} (ref : Nat)
    (same : filled.bytes = result.image text) :
    (⟨some ref, 0, filled.bytes.length⟩ : DataBuffer).text filled = result.image text := by
  rw [← same]
  exact Range.slice_full _

/-- A file that `attach` has filled is the file that `serialize` would write. -/
theorem attach_image_as_serialize (request : Request) (cache : Option RequestCache)
    (stream : RequestIOStream) (heap : Heap) (env : List Bytes)
    (small : (Parser.parse request env).envSize + 8 < Word.base) (result : Request)
    (postBuffer : DataBuffer) (after : Heap)
    (done : request.attach cache stream heap env = .ok (result, postBuffer, after))
    (cached : postBuffer.isNil = false) (impl : DataBufferImpl) (inv : impl.Inv) :
    ∃ (filled next : DataBufferImpl) (written : DataBuffer) (last : Heap),
      postBuffer.impl after = .ok filled ∧
      result.serialize (DataBuffer.create after impl).1 (DataBuffer.create after impl).2 =
        .ok (written, last) ∧
      written.impl last = .ok next ∧ next.bytes = filled.bytes ∧
      written.beginIndex = postBuffer.beginIndex ∧ written.endIndex = postBuffer.endIndex := by
  obtain ⟨filled, text, rfl, rfl, filledShown, filledBytes, body⟩ := attach_filled small done cached
  have made := DataBuffer.create_shows (heap ++ [filled]) impl inv
  have fits := filledShown.inv.fits
  have shown := filledShown.extended [impl]
  have here := attach_text heap.length filledBytes
  have bodyShown := bodyIn_shows shown here
  have bodyText := bodyIn_text shown here
  rw [← body] at bodyShown bodyText
  have source : Source (heap ++ [filled]).length result.body text
      (DataBuffer.create (heap ++ [filled]) impl).1 := by
    refine Or.inr ⟨heap.length, filled, ?_, bodyShown, bodyText⟩
    simp
  obtain ⟨next, serialized, nextInv, nextLength, nextText⟩ := serialize_spec result text made source (by
    rw [← filledBytes]
    simpa [DataBuffer.create] using fits)
  simp only [DataBuffer.create, Nat.zero_add] at serialized nextLength nextText
  refine ⟨filled, next, _, _, ?_, serialized, ?_, ?_, rfl, ?_⟩
  · simp [DataBuffer.impl]
  · simp [DataBuffer.impl]
  · rw [filledBytes, ← nextText, ← nextLength]
    exact (Range.slice_full _).symm
  · rw [filledBytes]

def formEnv : List Bytes :=
  [ascii "REQUEST_METHOD=POST", ascii "QUERY_STRING=a=1", ascii "CONTENT_LENGTH=3",
    ascii "HTTP_COOKIE=c=2"]

def formStream : RequestIOStream := ⟨fun _ _ => (ascii "b=2", 3)⟩

def formCache : RequestCache :=
  ⟨1, DataBufferImpl.pageFile [], DataBufferImpl.pageFile_inv [] (by decide)⟩

theorem formAttach_done : ∃ result postBuffer after,
    fresh.attach (some formCache) formStream [] formEnv = .ok (result, postBuffer, after) ∧
      postBuffer.isNil = false := by
  have finished : (match fresh.attach (some formCache) formStream [] formEnv with
      | .ok (_, postBuffer, _) => !postBuffer.isNil
      | .error _ => false) = true := by decide +kernel
  split at finished
  · next result postBuffer after done =>
      exact ⟨result, postBuffer, after, done, by simpa using finished⟩
  · cases finished

theorem attach_image_as_serialize_form : ∃ result postBuffer after,
    fresh.attach (some formCache) formStream [] formEnv = .ok (result, postBuffer, after) ∧
    ∃ (filled next : DataBufferImpl) (written : DataBuffer) (last : Heap),
      postBuffer.impl after = .ok filled ∧
      result.serialize (DataBuffer.create after (.string ⟨[]⟩)).1
        (DataBuffer.create after (.string ⟨[]⟩)).2 = .ok (written, last) ∧
      written.impl last = .ok next ∧ next.bytes = filled.bytes ∧
      written.beginIndex = postBuffer.beginIndex ∧ written.endIndex = postBuffer.endIndex := by
  obtain ⟨result, postBuffer, after, done, cached⟩ := formAttach_done
  have inv : (DataBufferImpl.string ⟨[]⟩).Inv := by
    unfold DataBufferImpl.Inv
    decide
  exact ⟨result, postBuffer, after, done, attach_image_as_serialize fresh (some formCache) formStream []
    formEnv (by decide +kernel) result postBuffer after done cached (.string ⟨[]⟩) inv⟩

end Request

end FastcgiContainer
