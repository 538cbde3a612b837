import FastcgiContainer.RequestImage

/-! A request that was serialised and read back. -/

namespace FastcgiContainer.Request

open Word (Bytes)
open StringUtils (NamedValue)

theorem drop_behind {text front rest : Bytes} {pos : Nat} (here : text.drop pos = front ++ rest) :
    text.drop (pos + front.length) = rest := by
  rw [← List.drop_drop, here, List.drop_left]

theorem behind_inside {text front rest : Bytes} {pos : Nat} (here : text.drop pos = front ++ rest)
    (inside : pos ≤ text.length) : pos + front.length + rest.length = text.length := by
  have length := congrArg List.length here
  rw [List.length_drop, List.length_append] at length
  omega

section Read

variable {heap : Heap} {buffer : DataBuffer} {ref : Nat} {storage : DataBufferImpl}
  (shown : buffer.Shows heap ref storage)

include shown

theorem text_fits : (buffer.text storage).length < Word.base := by
  have fits := shown.inv.fits
  have inside := shown.inside
  rw [shown.text_length, shown.size_eq]
  omega

theorem parseInt_spec {pos val : Nat} {rest : Bytes}
    (here : (buffer.text storage).drop pos = Word.toBytes 8 val ++ rest) (bound : val < Word.base) :
    parseInt buffer heap pos = .ok (pos + 8, val) := by
  have read := DataBuffer.read_spec shown pos 8
  have taken : (Word.toBytes 8 val ++ rest).take 8 = Word.toBytes 8 val := by
    have front := @List.take_left _ (Word.toBytes 8 val) rest
    rwa [Word.toBytes_length] at front
  rw [here, taken] at read
  simp only [parseInt, read, ok_bind, Word.toBytes_length]
  rw [Word.ofBytes_toBytes 8 val bound]

theorem parseString_spec {pos : Nat} {val rest : Bytes}
    (here : (buffer.text storage).drop pos = sectionImage val ++ rest)
    (inside : pos ≤ (buffer.text storage).length) :
    parseString buffer heap pos = .ok (pos + (sectionImage val).length, val) := by
  have fits := text_fits shown
  have length := behind_inside here inside
  rw [sectionImage_length] at length
  unfold sectionImage at here
  rw [List.append_assoc] at here
  have number := parseInt_spec shown here (by omega)
  have behind := drop_behind here
  rw [Word.toBytes_length] at behind
  have read := DataBuffer.read_spec shown (pos + 8) val.length
  rw [behind, List.take_left] at read
  have whole : resized val val.length = val := by simp [resized]
  simp only [parseString, number, ok_bind, read, whole, sectionImage_length]
  rw [Nat.add_assoc]

theorem parseLength_spec {pos : Nat} {data rest : Bytes} (what : String)
    (here : (buffer.text storage).drop pos = sectionImage data ++ rest)
    (inside : pos ≤ (buffer.text storage).length) :
    parseLength buffer heap pos what = .ok (pos + 8, pos + 8 + data.length) := by
  have fits := text_fits shown
  have length := behind_inside here inside
  have size := shown.text_length
  rw [sectionImage_length] at length
  unfold sectionImage at here
  rw [List.append_assoc] at here
  have number := parseInt_spec shown here (by omega)
  have sum : Word.add (pos + 8) data.length = pos + 8 + data.length := Word.add_eq _ _ (by omega)
  have room : ¬ pos + 8 + data.length > buffer.size := by omega
  simp only [parseLength, number, ok_bind, sum, if_neg room]

theorem parsePairs_spec {σ : Type} (add : σ → Bytes → Bytes → σ) (entries : List NamedValue)
    (rest : Bytes) (fuel pos : Nat) (found : σ)
    (here : (buffer.text storage).drop pos = pairsImage entries ++ rest)
    (inside : pos ≤ (buffer.text storage).length) (enough : (pairsImage entries).length ≤ fuel) :
    parsePairs buffer heap add (pos + (pairsImage entries).length) fuel pos found =
      .ok (pos + (pairsImage entries).length,
        entries.foldl (fun current entry => add current entry.1 entry.2) found) := by
  induction entries generalizing fuel pos found with
  | nil => cases fuel <;> simp [parsePairs, pairsImage]
  | cons entry tail ih =>
      have shape : pairsImage (entry :: tail) =
          sectionImage entry.1 ++ (sectionImage entry.2 ++ pairsImage tail) := by
        simp [pairsImage, pairImage]
      have width := congrArg List.length shape
      simp only [List.length_append, sectionImage_length] at width
      rw [shape, List.append_assoc, List.append_assoc] at here
      have total := behind_inside here inside
      have name := parseString_spec shown here inside
      have second := drop_behind here
      rw [List.length_append] at total
      have value := parseString_spec shown second (by omega)
      have third := drop_behind second
      obtain ⟨fuel, rfl⟩ : ∃ count, fuel = count + 1 := by
        refine ⟨fuel - 1, ?_⟩
        omega
      have loop := ih fuel _ (add found entry.1 entry.2) third (by
        rw [sectionImage_length] at total
        rw [sectionImage_length, sectionImage_length]
        rw [List.length_append, sectionImage_length] at total
        omega) (by omega)
      have stop : pos + (sectionImage entry.1).length + (sectionImage entry.2).length +
          (pairsImage tail).length = pos + (pairsImage (entry :: tail)).length := by
        rw [width, sectionImage_length, sectionImage_length]
        omega
      rw [stop] at loop
      have more : pos < pos + (pairsImage (entry :: tail)).length := by omega
      simp only [parsePairs, if_pos more, name, ok_bind, value, loop, List.foldl_cons]

theorem parseSection_spec {σ : Type} (add : σ → Bytes → Bytes → σ) (entries : List NamedValue)
    (rest : Bytes) (what : String) (pos : Nat) (found : σ)
    (here : (buffer.text storage).drop pos = sectionImage (pairsImage entries) ++ rest)
    (inside : pos ≤ (buffer.text storage).length) :
    parseSection buffer heap add what pos found =
      .ok (pos + (sectionImage (pairsImage entries)).length,
        entries.foldl (fun current entry => add current entry.1 entry.2) found) := by
  have length := parseLength_spec shown what here inside
  have total := behind_inside here inside
  rw [sectionImage_length] at total
  unfold sectionImage at here
  rw [List.append_assoc] at here
  have behind := drop_behind here
  rw [Word.toBytes_length] at behind
  have loop := parsePairs_spec shown add entries rest (pos + 8 + (pairsImage entries).length) (pos + 8)
    found behind (by omega) (by omega)
  simp only [parseSection, length, ok_bind, loop, sectionImage_length]
  rw [Nat.add_assoc]

theorem parseSection_map {less : Bytes → Bytes → Bool} [KeyOrder less]
    (map : OrderedMap Bytes Bytes less) (rest : Bytes) (what : String) (pos : Nat)
    (here : (buffer.text storage).drop pos = sectionImage (pairsImage map.entries) ++ rest)
    (inside : pos ≤ (buffer.text storage).length) :
    parseSection buffer heap OrderedMap.insert what pos (.empty : OrderedMap Bytes Bytes less) =
      .ok (pos + (sectionImage (pairsImage map.entries)).length, map) := by
  have read := parseSection_spec shown OrderedMap.insert map.entries rest what pos
    (.empty : OrderedMap Bytes Bytes less) here inside
  rw [OrderedMap.foldl_insert_empty] at read
  exact read

end Read

/-- A file is a piece of the body, or it is empty and lies no further before the
body than the environment reaches. -/
structure FileIn (request : Request) (file : File) : Prop where
  data : file.data.data = request.body.data
  order : file.data.beginIndex ≤ file.data.endIndex
  inside : file.data.endIndex ≤ request.body.endIndex
  reach : request.body.beginIndex ≤ file.data.beginIndex + (request.envSize + 8)
  piece : file.data.beginIndex = file.data.endIndex ∨
    request.body.beginIndex ≤ file.data.beginIndex

/-- A request as `attach` and `parse` leave it, with the bytes of its body. -/
structure Attached (heap : Heap) (request : Request) (text : Bytes) : Prop where
  body : (request.body = .nil ∧ text = []) ∨ ∃ ref storage,
    request.body.Shows heap ref storage ∧ request.body.text storage = text
  files : ∀ entry ∈ request.files.entries, FileIn request entry.2

theorem Attached.span {heap : Heap} {request : Request} {text : Bytes}
    (attached : Attached heap request text) :
    request.body.endIndex = request.body.beginIndex + text.length ∧
      request.body.endIndex < Word.base := by
  rcases attached.body with ⟨none, rfl⟩ | ⟨ref, storage, shown, same⟩
  · rw [none]
    exact ⟨rfl, by decide⟩
  · have length := shown.text_length
    have size := shown.size_eq
    have order := shown.order
    have inside := shown.inside
    have fits := shown.inv.fits
    rw [same] at length
    constructor
    · omega
    · omega

def moved (body target : DataBuffer) (file : File) : File :=
  { file with data := ⟨target.data, file.data.beginIndex + target.beginIndex - body.beginIndex,
      file.data.endIndex + target.beginIndex - body.beginIndex⟩ }

def bodyIn (request : Request) (text : Bytes) (buffer : DataBuffer) : DataBuffer :=
  { buffer with
    beginIndex := buffer.beginIndex + (request.envSize + 8)
    endIndex := buffer.beginIndex + (request.envSize + 8) + text.length }

section ReadBody

variable {heap : Heap} {buffer : DataBuffer} {ref : Nat} {storage : DataBufferImpl}
  {request : Request} {text : Bytes} (shown : buffer.Shows heap ref storage)
  (here : buffer.text storage = request.image text)

include shown here

theorem image_inside :
    buffer.beginIndex + (request.envSize + 8 + text.length) ≤ buffer.endIndex := by
  have length := shown.text_length
  have size := shown.size_eq
  have order := shown.order
  rw [here, image, List.length_append, List.length_append, sectionImage_length,
    envImage_length] at length
  omega

theorem bodyIn_shows : (request.bodyIn text buffer).Shows heap ref storage := by
  have inside := image_inside shown here
  have last := shown.inside
  apply shown.narrow
  · omega
  · omega

theorem bodyIn_text : (request.bodyIn text buffer).text storage = text := by
  have inside := image_inside shown here
  have outer : Range.slice (buffer.text storage) (request.envSize + 8)
      (request.envSize + 8 + text.length) = (request.bodyIn text buffer).text storage := by
    simp only [bodyIn, DataBuffer.text]
    rw [Range.slice_slice _ _ _ _ _ (by omega) (by omega), Nat.add_assoc buffer.beginIndex]
  have front : (request.envImage ++ Word.toBytes 8 text.length).length = request.envSize + 8 := by
    rw [List.length_append, envImage_length, Word.toBytes_length]
  have shape : request.image text =
      (request.envImage ++ Word.toBytes 8 text.length) ++ (text ++ request.tailImage) := by
    simp only [image, sectionImage, List.append_assoc]
  rw [← outer, here, shape, Range.slice, ← front, List.drop_left, Nat.add_sub_cancel_left,
    List.take_left]

theorem moved_view {home : Heap} (attached : Attached home request text) {file : File}
    (inside : FileIn request file) :
    (request.bodyIn text buffer).view heap
      (Word.add (Word.sub file.data.beginIndex request.body.beginIndex)
        (request.bodyIn text buffer).beginIndex)
      (Word.add (Word.add (Word.sub file.data.beginIndex request.body.beginIndex)
        (Word.sub file.data.endIndex file.data.beginIndex))
          (request.bodyIn text buffer).beginIndex) =
      .ok (moved request.body (request.bodyIn text buffer) file).data := by
  have bodyShown := bodyIn_shows shown here
  have fits := bodyShown.inv.fits
  have last := bodyShown.inside
  have order := inside.order
  have reach := inside.reach
  have stop := inside.inside
  obtain ⟨span, small⟩ := attached.span
  simp only [bodyIn] at last ⊢
  rw [Word.sub_add_sub _ _ _ order (by omega)]
  rw [Word.add_sub _ _ _ (by omega) (by omega) (by omega)]
  rw [Word.add_sub _ _ _ (by omega) (by omega) (by omega)]
  exact DataBuffer.view_spec bodyShown _ _ (by omega)

theorem parseFile_spec {home : Heap} (attached : Attached home request text)
    {entry : Bytes × File} (inside : FileIn request entry.2) {pos : Nat} {rest : Bytes}
    (behind : (buffer.text storage).drop pos = fileImage request.body entry ++ rest)
    (start : pos ≤ (buffer.text storage).length) :
    parseFile (request.bodyIn text buffer) buffer heap pos =
      .ok (pos + (fileImage request.body entry).length, entry.1,
        moved request.body (request.bodyIn text buffer) entry.2) := by
  have total := behind_inside behind start
  simp only [fileImage, List.length_append, sectionImage_length, Word.toBytes_length] at total
  simp only [fileImage, List.append_assoc] at behind
  have name := parseString_spec shown behind start
  have second := drop_behind behind
  rw [sectionImage_length] at name second
  have remoteName := parseString_spec shown second (by omega)
  have third := drop_behind second
  rw [sectionImage_length] at remoteName third
  have type := parseString_spec shown third (by omega)
  have fourth := drop_behind third
  rw [sectionImage_length] at type fourth
  have offset := parseInt_spec shown fourth (Word.sub_lt _ _)
  have fifth := drop_behind fourth
  rw [Word.toBytes_length] at fifth
  have length := parseInt_spec shown fifth (Word.sub_lt _ _)
  have content := moved_view shown here attached inside
  have file : File.create entry.2.name entry.2.type
      (moved request.body (request.bodyIn text buffer) entry.2).data =
      .ok (moved request.body (request.bodyIn text buffer) entry.2) := by
    rw [File.create, dif_pos entry.2.named]
    rfl
  simp only [parseFile, name, remoteName, type, offset, length, content, file, ok_bind]
  simp only [fileImage, List.length_append, sectionImage_length, Word.toBytes_length, Nat.add_assoc]

theorem parseEachFile_spec {home : Heap} (attached : Attached home request text)
    (entries : List (Bytes × File)) (inside : ∀ entry ∈ entries, FileIn request entry.2)
    (rest : Bytes) (fuel pos : Nat) (found : OrderedMap Bytes File stringLess)
    (behind : (buffer.text storage).drop pos =
      entries.flatMap (fileImage request.body) ++ rest)
    (start : pos ≤ (buffer.text storage).length)
    (enough : (entries.flatMap (fileImage request.body)).length ≤ fuel) :
    parseEachFile (request.bodyIn text buffer) buffer heap
        (pos + (entries.flatMap (fileImage request.body)).length) fuel pos found =
      .ok (pos + (entries.flatMap (fileImage request.body)).length,
        (entries.map (fun entry =>
          (entry.1, moved request.body (request.bodyIn text buffer) entry.2))).foldl
            (fun current entry => current.insert entry.1 entry.2) found) := by
  induction entries generalizing fuel pos found with
  | nil => cases fuel <;> simp [parseEachFile]
  | cons entry tail ih =>
      rw [List.flatMap_cons] at behind enough
      rw [List.append_assoc] at behind
      have total := behind_inside behind start
      have positive : 0 < (fileImage request.body entry).length := by
        simp only [fileImage, List.length_append, sectionImage_length]
        omega
      rw [List.length_append] at enough
      have head := parseFile_spec shown here attached (inside entry (by simp)) behind start
      obtain ⟨fuel, rfl⟩ : ∃ count, fuel = count + 1 := ⟨fuel - 1, by omega⟩
      have loop := ih (fun other member => inside other (by simp [member])) fuel _
        (found.insert entry.1 (moved request.body (request.bodyIn text buffer) entry.2))
        (drop_behind behind) (by omega) (by omega)
      have stop : pos + ((entry :: tail).flatMap (fileImage request.body)).length =
          pos + (fileImage request.body entry).length +
            (tail.flatMap (fileImage request.body)).length := by
        rw [List.flatMap_cons, List.length_append, Nat.add_assoc]
      have more : pos < pos + ((entry :: tail).flatMap (fileImage request.body)).length := by omega
      rw [← stop] at loop
      simp only [parseEachFile, if_pos more, head, ok_bind, loop, List.map_cons, List.foldl_cons]

theorem parseBody_spec {rest : Bytes}
    (behind : (buffer.text storage).drop request.envSize = sectionImage text ++ rest)
    (reader : Request) :
    reader.parseBody buffer heap request.envSize =
      .ok (request.envSize + 8 + text.length, { reader with body := request.bodyIn text buffer }) := by
  have inside := image_inside shown here
  have last := shown.inside
  have length := parseLength_spec shown "Cannot parse request body" behind (by
    rw [here, image, List.length_append, envImage_length]
    omega)
  have view := DataBuffer.view_spec shown (request.envSize + 8 + buffer.beginIndex)
    (request.envSize + 8 + text.length + buffer.beginIndex) (by omega)
  simp only [parseBody, length, ok_bind, view, bodyIn]
  simp only [Nat.add_comm, Nat.add_left_comm]

theorem parseFiles_spec {home : Heap} (attached : Attached home request text) {pos : Nat}
    {rest : Bytes}
    (behind : (buffer.text storage).drop pos = sectionImage request.filesImage ++ rest)
    (start : pos ≤ (buffer.text storage).length) (reader : Request)
    (body : reader.body = request.bodyIn text buffer) (files : reader.files = .empty) :
    reader.parseFiles buffer heap pos =
      .ok (pos + (sectionImage request.filesImage).length, { reader with
        files := request.files.mapValues (moved request.body (request.bodyIn text buffer)) }) := by
  have total := behind_inside behind start
  have length := parseLength_spec shown "Cannot parse request files" behind start
  rw [sectionImage_length] at total
  unfold sectionImage at behind
  rw [List.append_assoc] at behind
  have content := drop_behind behind
  rw [Word.toBytes_length] at content
  have loop := parseEachFile_spec shown here attached request.files.entries attached.files rest
    (pos + 8 + request.filesImage.length) (pos + 8) .empty content (by omega) (by
      unfold filesImage
      omega)
  have mapped := OrderedMap.foldl_insert_empty
    (request.files.mapValues (moved request.body (request.bodyIn text buffer)))
  have entries : (request.files.mapValues (moved request.body (request.bodyIn text buffer))).entries =
      request.files.entries.map (fun entry =>
        (entry.1, moved request.body (request.bodyIn text buffer) entry.2)) := rfl
  rw [entries] at mapped
  rw [mapped] at loop
  change parseEachFile _ _ _ (pos + 8 + request.filesImage.length) _ _ _ =
    .ok (pos + 8 + request.filesImage.length, _) at loop
  simp only [parseFiles, length, ok_bind, body, files, loop, sectionImage_length]
  rw [Nat.add_assoc]

theorem moved_content {home : Heap} (attached : Attached home request text) {file : File}
    (inside : FileIn request file) :
    ∃ bytes, file.data.toBytes home = .ok bytes ∧
      (moved request.body (request.bodyIn text buffer) file).data.toBytes heap = .ok bytes := by
  have order := inside.order
  have stop := inside.inside
  obtain ⟨span, small⟩ := attached.span
  by_cases none : file.data.beginIndex = file.data.endIndex
  · refine ⟨[], DataBuffer.toBytes_nil _ _ ?_, DataBuffer.toBytes_nil _ _ ?_⟩
    · simp [DataBuffer.empty, none]
    · simp [DataBuffer.empty, moved, none]
  · have piece := inside.piece.resolve_left none
    rcases attached.body with ⟨blank, rfl⟩ | ⟨homeRef, homeStorage, bodyShown, same⟩
    · rw [blank] at stop
      simp only [DataBuffer.nil] at stop
      omega
    · have targetShown := bodyIn_shows shown here
      have targetText := bodyIn_text shown here
      have last := bodyShown.inside
      have targetLast := targetShown.inside
      simp only [bodyIn] at targetLast
      have fileShown : file.data.Shows home homeRef homeStorage :=
        ⟨inside.data.trans bodyShown.data, bodyShown.live, bodyShown.inv, order, by omega⟩
      have movedShown := targetShown.narrow
        (file.data.beginIndex + (request.bodyIn text buffer).beginIndex - request.body.beginIndex)
        (file.data.endIndex + (request.bodyIn text buffer).beginIndex - request.body.beginIndex)
        (by omega) (by simp only [bodyIn]; omega)
      refine ⟨file.data.text homeStorage, DataBuffer.toBytes_spec fileShown, ?_⟩
      refine (DataBuffer.toBytes_spec movedShown).trans (congrArg Except.ok ?_)
      -- both are the same piece of the body
      have source : Range.slice text (file.data.beginIndex - request.body.beginIndex)
          (file.data.endIndex - request.body.beginIndex) = file.data.text homeStorage := by
        rw [← same, DataBuffer.text, Range.slice_slice _ _ _ _ _ (by omega) (by omega),
          Nat.add_sub_cancel' piece, Nat.add_sub_cancel' (by omega), DataBuffer.text]
      have target : Range.slice text (file.data.beginIndex - request.body.beginIndex)
          (file.data.endIndex - request.body.beginIndex) = Range.slice storage.bytes
            (file.data.beginIndex + (request.bodyIn text buffer).beginIndex - request.body.beginIndex)
            (file.data.endIndex + (request.bodyIn text buffer).beginIndex -
              request.body.beginIndex) := by
        have outer := Range.slice_slice storage.bytes (request.bodyIn text buffer).beginIndex
          (request.bodyIn text buffer).endIndex (file.data.beginIndex - request.body.beginIndex)
          (file.data.endIndex - request.body.beginIndex) (by omega) (by simp only [bodyIn]; omega)
        change Range.slice ((request.bodyIn text buffer).text storage) _ _ = _ at outer
        rw [targetText] at outer
        rw [outer]
        congr 1
        · omega
        · omega
      exact target.symm.trans source

end ReadBody

def cleared (request : Request) : Request :=
  { request with
    args := [], vars := .empty, files := .empty, cookies := .empty, headers := .empty }

/-- What is read back from the image of a request. -/
def replayed (request : Request) (text : Bytes) (buffer : DataBuffer) (reader : Request) : Request :=
  { reader with
    headers := request.headers
    cookies := request.cookies
    vars := request.vars
    body := request.bodyIn text buffer
    files := request.files.mapValues (moved request.body (request.bodyIn text buffer))
    args := request.args.map (fun arg => (arg.1, parsedValue arg.2)) }

theorem foldl_append_map (args : List NamedValue) (found : List NamedValue) :
    args.foldl (fun current arg => current ++ [(arg.1, parsedValue arg.2)]) found =
      found ++ args.map (fun arg => (arg.1, parsedValue arg.2)) := by
  induction args generalizing found with
  | nil => simp
  | cons head tail ih => simp [ih]

theorem parseArgs_spec {heap : Heap} {buffer : DataBuffer} {ref : Nat} {storage : DataBufferImpl}
    (shown : buffer.Shows heap ref storage) (args : List NamedValue) (rest : Bytes) (pos : Nat)
    (here : (buffer.text storage).drop pos = sectionImage (pairsImage args) ++ rest)
    (inside : pos ≤ (buffer.text storage).length) :
    parseSection buffer heap (fun found name value => found ++ [(name, parsedValue value)])
        "Cannot parse request args" pos [] =
      .ok (pos + (sectionImage (pairsImage args)).length,
        args.map (fun arg => (arg.1, parsedValue arg.2))) := by
  have read := parseSection_spec shown (fun found name value => found ++ [(name, parsedValue value)])
    args rest "Cannot parse request args" pos [] here inside
  rw [foldl_append_map, List.nil_append] at read
  exact read

theorem parse_image {heap : Heap} {buffer : DataBuffer} {ref : Nat} {storage : DataBufferImpl}
    {request : Request} {text : Bytes} (shown : buffer.Shows heap ref storage)
    (here : buffer.text storage = request.image text) {home : Heap}
    (attached : Attached home request text) (reader : Request) :
    reader.cleared.parse heap buffer = .ok (request.replayed text buffer reader) := by
  have start : (buffer.text storage).drop 0 = request.image text := by rw [here, List.drop_zero]
  have total := congrArg List.length here
  have width := request.envImage_length
  simp only [image, envImage, tailImage, List.length_append, sectionImage_length] at total width
  simp only [image, envImage, tailImage, List.append_assoc] at start
  have headers := parseSection_map shown request.headers _ "Cannot parse request headers" 0 start
    (by omega)
  have second := drop_behind start
  rw [sectionImage_length] at headers second
  have cookies := parseSection_map shown request.cookies _ "Cannot parse request cookies" _ second
    (by omega)
  have third := drop_behind second
  rw [sectionImage_length] at cookies third
  have vars := parseSection_map shown request.vars _ "Cannot parse request vars" _ third (by omega)
  have fourth := drop_behind third
  rw [sectionImage_length] at vars fourth
  have env : 0 + (8 + (pairsImage request.headers.entries).length) +
      (8 + (pairsImage request.cookies.entries).length) +
      (8 + (pairsImage request.vars.entries).length) = request.envSize := by omega
  rw [env] at vars fourth
  have body := parseBody_spec shown here fourth
  have fifth := drop_behind fourth
  rw [sectionImage_length, ← Nat.add_assoc] at fifth
  have files := parseFiles_spec shown here attached fifth (by omega)
  have sixth := drop_behind fifth
  rw [← List.append_nil (sectionImage (pairsImage request.args))] at sixth
  have args := parseArgs_spec shown request.args [] _ sixth (by
    rw [sectionImage_length]
    omega)
  simp only [parse, parseHeaders, parseCookies, parseVars, parseArgs, cleared, headers, cookies,
    vars, ok_bind, body, files, args]
  rfl

structure SameFile (heap after : Heap) (entry other : Bytes × File) : Prop where
  field : other.1 = entry.1
  name : other.2.name = entry.2.name
  type : other.2.type = entry.2.type
  content : ∃ bytes, entry.2.data.toBytes heap = .ok bytes ∧ other.2.data.toBytes after = .ok bytes

/-- The environment, the body and the files of a request are those of another one. -/
structure Restores (heap : Heap) (request : Request) (after : Heap) (restored : Request) : Prop where
  headers : restored.headers = request.headers
  cookies : restored.cookies = request.cookies
  vars : restored.vars = request.vars
  body : ∃ text, request.body.toBytes heap = .ok text ∧ restored.body.toBytes after = .ok text
  files : List.Forall₂ (SameFile heap after) request.files.entries restored.files.entries

theorem Attached.body_toBytes {heap : Heap} {request : Request} {text : Bytes}
    (attached : Attached heap request text) : request.body.toBytes heap = .ok text := by
  rcases attached.body with ⟨none, rfl⟩ | ⟨ref, storage, shown, same⟩
  · rw [none]
    rfl
  · rw [DataBuffer.toBytes_spec shown, same]

theorem replayed_restores {heap : Heap} {buffer : DataBuffer} {ref : Nat} {storage : DataBufferImpl}
    {request : Request} {text : Bytes} (shown : buffer.Shows heap ref storage)
    (here : buffer.text storage = request.image text) {home : Heap}
    (attached : Attached home request text) (reader : Request) :
    Restores home request heap (request.replayed text buffer reader) := by
  have body := DataBuffer.toBytes_spec (bodyIn_shows shown here)
  rw [bodyIn_text shown here] at body
  refine ⟨rfl, rfl, rfl, ⟨text, attached.body_toBytes, body⟩, ?_⟩
  change List.Forall₂ _ _ (request.files.entries.map _)
  rw [List.forall₂_map_right_iff, List.forall₂_same]
  intro entry member
  exact ⟨rfl, rfl, rfl, moved_content shown here attached (attached.files entry member)⟩

theorem replayed_attached {heap : Heap} {buffer : DataBuffer} {ref : Nat} {storage : DataBufferImpl}
    {request : Request} {text : Bytes} (shown : buffer.Shows heap ref storage)
    (here : buffer.text storage = request.image text) {home : Heap}
    (attached : Attached home request text) (reader : Request) :
    Attached heap (request.replayed text buffer reader) text := by
  obtain ⟨span, small⟩ := attached.span
  refine ⟨Or.inr ⟨ref, storage, bodyIn_shows shown here, bodyIn_text shown here⟩, ?_⟩
  intro entry member
  obtain ⟨source, sourceMember, rfl⟩ := List.mem_map.mp member
  have inside := attached.files source sourceMember
  have order := inside.order
  have stop := inside.inside
  have reach := inside.reach
  have piece := inside.piece
  have env : (request.replayed text buffer reader).envSize = request.envSize := rfl
  constructor
  · rfl
  · simp only [moved]
    omega
  · simp only [moved, replayed, bodyIn]
    omega
  · rw [env]
    simp only [moved, replayed, bodyIn]
    omega
  · simp only [moved, replayed, bodyIn]
    omega

def serializedSize (request : Request) : Nat :=
  request.envSize + 8 + request.body.size + 8 + request.filesSerializedSize + 8 +
    request.argsSerializedSize

theorem Attached.image_length {heap : Heap} {request : Request} {text : Bytes}
    (attached : Attached heap request text) :
    (request.image text).length = request.serializedSize := by
  obtain ⟨span, small⟩ := attached.span
  have size : request.body.size = text.length := by
    rw [DataBuffer.size, Word.sub_eq _ _ (by omega) small]
    omega
  simp only [image, serializedSize, List.length_append, sectionImage_length, envImage_length,
    tailImage_length, size]
  omega

theorem Attached.source {heap : Heap} {request : Request} {text : Bytes} {ref : Nat}
    (attached : Attached heap request text) (apart : request.body.data ≠ some ref) :
    Source ref request.body text heap := by
  rcases attached.body with none | ⟨srcRef, storage, shown, same⟩
  · exact Or.inl none
  · refine Or.inr ⟨srcRef, storage, ?_, shown, same⟩
    rintro rfl
    exact apart shown.data

theorem serialize_parse {heap : Heap} {buffer : DataBuffer} {ref : Nat} {storage : DataBufferImpl}
    {request : Request} {text : Bytes} (attached : Attached heap request text)
    (shown : buffer.Shows heap ref storage) (apart : request.body.data ≠ some ref)
    (fits : buffer.beginIndex + request.serializedSize < Word.base) :
    ∃ written after next, request.serialize heap buffer = .ok (written, after) ∧
      written.Shows after ref next ∧ written.text next = request.image text ∧
      ∀ reader : Request, reader.cleared.parse after written = .ok (request.replayed text written reader) := by
  rw [← attached.image_length] at fits
  obtain ⟨next, done, nextInv, length, here⟩ := serialize_spec request text shown
    (attached.source apart) fits
  have grown : ({ buffer with endIndex := buffer.beginIndex + (request.image text).length } :
      DataBuffer).Shows (heap.set ref next) ref next := by
    refine ⟨shown.data, ?_, nextInv, by simp, by simp [length]⟩
    rw [List.getElem?_set_self shown.inHeap]
  exact ⟨_, _, next, done, grown, here, parse_image grown here attached⟩

/-- A request in any state that `attach` leaves comes back whole. -/
theorem serialized_request_restores (heap : Heap) (request : Request) (text : Bytes)
    (attached : Attached heap request text) (buffer : DataBuffer) (ref : Nat)
    (storage : DataBufferImpl) (shown : buffer.Shows heap ref storage)
    (apart : request.body.data ≠ some ref)
    (fits : buffer.beginIndex + request.serializedSize < Word.base) :
    ∃ written after, request.serialize heap buffer = .ok (written, after) ∧
      (∃ parsed, fresh.parse after written = .ok parsed ∧ Restores heap request after parsed) ∧
      ∀ other : Request, ∃ restored, other.restore after written = .ok restored ∧
        Restores heap request after restored := by
  obtain ⟨written, after, next, done, grown, here, read⟩ := serialize_parse attached shown apart fits
  refine ⟨written, after, done, ⟨_, read fresh, replayed_restores grown here attached fresh⟩, ?_⟩
  intro other
  let reader : Request := { other with outHeaders := .empty }
  exact ⟨_, read reader, replayed_restores grown here attached reader⟩

def uploadHeap : Heap := [.string ⟨ascii "abcdef"⟩, .string ⟨[]⟩]

def uploadRequest : Request :=
  { fresh with
    body := ⟨some 0, 0, 6⟩
    headers := OrderedMap.empty.insert (ascii "Host") (ascii "localhost")
    vars := OrderedMap.empty.insert (ascii "REQUEST_METHOD") (ascii "POST")
    files := OrderedMap.empty.insert (ascii "field")
      ⟨ascii "name.txt", ascii "text/plain", ⟨some 0, 2, 4⟩, by decide⟩
    args := [(ascii "a", ascii "x\ny"), (ascii "b", ascii "1")] }

theorem uploadRequest_attached : Attached uploadHeap uploadRequest (ascii "abcdef") := by
  constructor
  · right
    have inv : (DataBufferImpl.string ⟨ascii "abcdef"⟩).Inv := by
      unfold DataBufferImpl.Inv
      decide
    exact ⟨0, .string ⟨ascii "abcdef"⟩, ⟨rfl, rfl, inv, by decide, by decide⟩, by decide⟩
  · intro entry member
    obtain rfl := List.mem_singleton.mp member
    exact ⟨rfl, by decide, by decide, by decide, Or.inr (by decide)⟩

theorem uploadBuffer_shows :
    (⟨some 1, 0, 0⟩ : DataBuffer).Shows uploadHeap 1 (.string ⟨[]⟩) := by
  have inv : (DataBufferImpl.string ⟨[]⟩).Inv := by
    unfold DataBufferImpl.Inv
    decide
  exact ⟨rfl, rfl, inv, le_refl _, le_refl _⟩

theorem serialized_request_restores_upload :
    ∃ written after, uploadRequest.serialize uploadHeap ⟨some 1, 0, 0⟩ = .ok (written, after) ∧
      (∃ parsed, fresh.parse after written = .ok parsed ∧
        Restores uploadHeap uploadRequest after parsed) ∧
      ∀ other : Request, ∃ restored, other.restore after written = .ok restored ∧
        Restores uploadHeap uploadRequest after restored :=
  serialized_request_restores uploadHeap uploadRequest (ascii "abcdef") uploadRequest_attached
    ⟨some 1, 0, 0⟩ 1 (.string ⟨[]⟩) uploadBuffer_shows (by decide) (by decide +kernel)

/-- The bytes that make `parseArgs` encode a value. -/
def Broken (value : Bytes) : Prop := 13 ∈ value ∨ 10 ∈ value ∨ 0 ∈ value

instance (value : Bytes) : Decidable (Broken value) :=
  inferInstanceAs (Decidable (13 ∈ value ∨ 10 ∈ value ∨ 0 ∈ value))

/-- An argument as it is read back: under its name, with its value as it was if
that has no CR, LF or NUL, and with its value encoded otherwise. -/
structure ReplayedArg (arg other : NamedValue) : Prop where
  name : other.1 = arg.1
  same : other.2 = arg.2 ↔ ¬ Broken arg.2
  encoded : Broken arg.2 → other.2 = StringUtils.urlencode arg.2

theorem parsedValue_eq (value : Bytes) :
    parsedValue value = if Broken value then StringUtils.urlencode value else value := by
  have found : (value.contains 13 || value.contains 10 || value.contains 0) = true ↔
      Broken value := by simp [Broken, or_assoc]
  rw [parsedValue, if_congr found rfl rfl]

theorem urlencode_broken (value : Bytes) (broken : Broken value) :
    StringUtils.urlencode value ≠ value := by
  intro same
  have grows : value.length < (StringUtils.urlencode value).length := by
    rcases broken with member | member | member
    · exact StringUtils.urlencode_grows value 13 member (by decide)
    · exact StringUtils.urlencode_grows value 10 member (by decide)
    · exact StringUtils.urlencode_grows value 0 member (by decide)
  rw [same] at grows
  exact lt_irrefl _ grows

theorem parsedValue_replayed (arg : NamedValue) : ReplayedArg arg (arg.1, parsedValue arg.2) := by
  constructor
  · rfl
  · rw [parsedValue_eq]
    by_cases broken : Broken arg.2
    · simp [broken, urlencode_broken arg.2 broken]
    · simp [broken]
  · intro broken
    rw [parsedValue_eq, if_pos broken]

theorem replayed_args (request : Request) (text : Bytes) (buffer : DataBuffer) (reader : Request) :
    List.Forall₂ ReplayedArg request.args (request.replayed text buffer reader).args := by
  change List.Forall₂ _ _ (request.args.map _)
  rw [List.forall₂_map_right_iff, List.forall₂_same]
  intro arg _
  exact parsedValue_replayed arg

/-- The arguments come back in their order. -/
theorem serialized_args_replayed (heap : Heap) (request : Request) (text : Bytes)
    (attached : Attached heap request text) (buffer : DataBuffer) (ref : Nat)
    (storage : DataBufferImpl) (shown : buffer.Shows heap ref storage)
    (apart : request.body.data ≠ some ref)
    (fits : buffer.beginIndex + request.serializedSize < Word.base) :
    ∃ written after, request.serialize heap buffer = .ok (written, after) ∧
      (∃ parsed, fresh.parse after written = .ok parsed ∧
        List.Forall₂ ReplayedArg request.args parsed.args) ∧
      ∀ other : Request, ∃ restored, other.restore after written = .ok restored ∧
        List.Forall₂ ReplayedArg request.args restored.args := by
  obtain ⟨written, after, next, done, _, _, read⟩ := serialize_parse attached shown apart fits
  refine ⟨written, after, done, ⟨_, read fresh, replayed_args request text written fresh⟩, ?_⟩
  intro other
  let reader : Request := { other with outHeaders := .empty }
  exact ⟨_, read reader, replayed_args request text written reader⟩

theorem serialized_args_replayed_upload :
    ∃ written after, uploadRequest.serialize uploadHeap ⟨some 1, 0, 0⟩ = .ok (written, after) ∧
      (∃ parsed, fresh.parse after written = .ok parsed ∧
        List.Forall₂ ReplayedArg uploadRequest.args parsed.args) ∧
      ∀ other : Request, ∃ restored, other.restore after written = .ok restored ∧
        List.Forall₂ ReplayedArg uploadRequest.args restored.args :=
  serialized_args_replayed uploadHeap uploadRequest (ascii "abcdef") uploadRequest_attached
    ⟨some 1, 0, 0⟩ 1 (.string ⟨[]⟩) uploadBuffer_shows (by decide) (by decide +kernel)

/-- A value of two lines comes back encoded. -/
theorem serialized_args_two_lines :
    ∃ written after parsed, uploadRequest.serialize uploadHeap ⟨some 1, 0, 0⟩ = .ok (written, after) ∧
      fresh.parse after written = .ok parsed ∧
      uploadRequest.args = [(ascii "a", ascii "x\ny"), (ascii "b", ascii "1")] ∧
      parsed.args = [(ascii "a", ascii "x%0Ay"), (ascii "b", ascii "1")] ∧
      parsed.args ≠ uploadRequest.args := by
  obtain ⟨written, after, next, done, _, _, read⟩ := serialize_parse uploadRequest_attached
    uploadBuffer_shows (by decide) (by decide +kernel)
  have args : uploadRequest.args.map (fun arg => (arg.1, parsedValue arg.2)) =
      [(ascii "a", ascii "x%0Ay"), (ascii "b", ascii "1")] := by decide
  refine ⟨written, after, _, done, read fresh, rfl, args, ?_⟩
  intro same
  exact absurd (args.symm.trans same) (by decide)

end FastcgiContainer.Request
