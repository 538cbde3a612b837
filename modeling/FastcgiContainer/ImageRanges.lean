import FastcgiContainer.StoredImage

/-! The ranges that `Request::parse` reads out of an image that nobody checked: the
body lies in the buffer, and the files in the body, exactly if no sum of two
numbers of the image wraps around or runs past the body. -/

namespace FastcgiContainer

structure DataBuffer.Inside (inner outer : DataBuffer) : Prop where
  data : inner.data = outer.data
  first : outer.beginIndex ≤ inner.beginIndex
  order : inner.beginIndex ≤ inner.endIndex
  last : inner.endIndex ≤ outer.endIndex

namespace Request

open Word (Bytes)

/-- The body and the files that were read lie where they should. Files that the
request had before are not read. -/
def RangesInside (buffer : DataBuffer) (request next : Request) : Prop :=
  next.body.Inside buffer ∧
    ∀ entry ∈ next.files.entries, request.files.find? entry.1 = none → entry.2.data.Inside next.body

/-- The numbers of an image are plausible: the length of the body does not wrap,
and the content of each file that is kept ends with the body at the latest. -/
def NumbersFit (request : Request) (text : Bytes) : Prop :=
  bodyStart text + bodyLength text < Word.base ∧
    ∀ record ∈ fileRecords text, record.First (fileRecords text) →
      request.files.find? record.name = none → record.offset + record.length ≤ bodyLength text

theorem recordsFrom_bounds (text : Bytes) (posEnd fuel pos : Nat) :
    ∀ record ∈ recordsFrom text posEnd fuel pos,
      record.offset < Word.base ∧ record.length < Word.base := by
  induction fuel generalizing pos with
  | zero => simp [recordsFrom]
  | succ fuel ih =>
      unfold recordsFrom
      split
      · simp only [List.forall_mem_cons, recordAt, intAt_lt, and_self, true_and]
        exact ih _
      · simp

/-- Either sum wraps to something smaller than its first summand, so that a range
in order inside the body is one whose numbers fit. -/
theorem FileRecord.range_inside_iff {body : DataBuffer} {record : FileRecord}
    (offset : record.offset < Word.base) (length : record.length < Word.base)
    (order : body.beginIndex ≤ body.endIndex) (fits : body.endIndex < Word.base) :
    (record.range body).Inside body ↔
      record.offset + record.length ≤ body.endIndex - body.beginIndex := by
  have base : Word.base = 2 ^ 64 := rfl
  rw [base] at offset length fits
  constructor
  · intro inside
    have first := inside.first
    have between := inside.order
    have last := inside.last
    simp only [range, Word.add, base] at first between last
    omega
  · intro small
    have sum : Word.add record.offset record.length = record.offset + record.length :=
      Word.add_eq _ _ (by omega)
    have first : Word.add record.offset body.beginIndex = record.offset + body.beginIndex :=
      Word.add_eq _ _ (by omega)
    have last : Word.add (record.offset + record.length) body.beginIndex =
        record.offset + record.length + body.beginIndex := Word.add_eq _ _ (by omega)
    constructor
    · rfl
    · simp only [range, first]
      omega
    · simp only [range, sum, first, last]
      omega
    · simp only [range, sum, last]
      omega

section Read

variable {heap : Heap} {buffer : DataBuffer} {ref : Nat} {storage : DataBufferImpl}
  (shown : buffer.Shows heap ref storage)

include shown

theorem parse_ok {request next : Request} (done : request.parse heap buffer = .ok next) :
    next.body = ⟨buffer.data, bodyStart (buffer.text storage) + buffer.beginIndex,
        lengthEnd (buffer.text storage) (bodyLengthAt (buffer.text storage)) + buffer.beginIndex⟩ ∧
      lengthEnd (buffer.text storage) (bodyLengthAt (buffer.text storage)) ≤ buffer.size ∧
      ∀ query, (next.files.find? query).map File.data = ((request.files.find? query).map File.data).or
        (((fileRecords (buffer.text storage)).find? (fun record => record.name == query)).map
          (FileRecord.range next.body)) := by
  unfold parse at done
  obtain ⟨⟨pos, afterHeaders⟩, headers, done⟩ := bind_eq_ok _ _ _ done
  obtain ⟨⟨pos, afterCookies⟩, cookies, done⟩ := bind_eq_ok _ _ _ done
  obtain ⟨⟨pos, afterVars⟩, vars, done⟩ := bind_eq_ok _ _ _ done
  obtain ⟨⟨pos, afterBody⟩, body, done⟩ := bind_eq_ok _ _ _ done
  obtain ⟨⟨pos, afterFiles⟩, files, done⟩ := bind_eq_ok _ _ _ done
  obtain ⟨⟨pos, afterArgs⟩, args, done⟩ := bind_eq_ok _ _ _ done
  obtain rfl := Except.ok.inj done
  obtain ⟨headersStop, _, headersFiles⟩ := parseHeaders_ok shown headers
  obtain ⟨cookiesStop, _, cookiesFiles⟩ := parseCookies_ok shown cookies
  obtain ⟨varsStop, _, varsFiles⟩ := parseVars_ok shown vars
  obtain ⟨_, argsBody, argsFiles⟩ := parseArgs_ok shown args
  rw [headersStop] at cookiesStop
  rw [cookiesStop] at varsStop
  rw [varsStop] at body
  obtain ⟨stop, fits, bodyShape, bodyFiles⟩ := parseBody_ok shown body
  rw [stop] at files fits bodyShape
  have content := fun query => parseFiles_ok shown files query
  have same : afterFiles.body = afterBody.body := (content []).1
  refine ⟨?_, fits, ?_⟩
  · rw [argsBody, same, bodyShape]
    rfl
  · intro query
    have found := (content query).2
    rw [bodyFiles, varsFiles, cookiesFiles, headersFiles] at found
    rw [argsFiles, argsBody, same]
    exact found

theorem body_inside_iff {request next : Request} (done : request.parse heap buffer = .ok next) :
    next.body.Inside buffer ↔
      bodyStart (buffer.text storage) + bodyLength (buffer.text storage) < Word.base := by
  obtain ⟨body, fits, _⟩ := parse_ok shown done
  have size := shown.size_eq
  have order := shown.order
  have base : Word.base = 2 ^ 64 := rfl
  have number : bodyLength (buffer.text storage) < Word.base := intAt_lt _ _
  have last : lengthEnd (buffer.text storage) (bodyLengthAt (buffer.text storage)) =
      Word.add (bodyStart (buffer.text storage)) (bodyLength (buffer.text storage)) := rfl
  rw [last] at body fits
  constructor
  · intro inside
    have between := inside.order
    rw [body] at between
    simp only [Word.add, base] at between number ⊢
    omega
  · intro small
    rw [Word.add_eq _ _ small] at body fits
    rw [body]
    constructor
    · rfl
    · exact Nat.le_add_left _ _
    · simp only
      omega
    · simp only
      omega

theorem files_inside_iff {request next : Request} (done : request.parse heap buffer = .ok next)
    (small : bodyStart (buffer.text storage) + bodyLength (buffer.text storage) < Word.base) :
    (∀ entry ∈ next.files.entries, request.files.find? entry.1 = none →
        entry.2.data.Inside next.body) ↔
      ∀ record ∈ fileRecords (buffer.text storage), record.First (fileRecords (buffer.text storage)) →
        request.files.find? record.name = none →
          record.offset + record.length ≤ bodyLength (buffer.text storage) := by
  have inside := (body_inside_iff shown done).mpr small
  obtain ⟨body, _, content⟩ := parse_ok shown done
  have last : lengthEnd (buffer.text storage) (bodyLengthAt (buffer.text storage)) =
      bodyStart (buffer.text storage) + bodyLength (buffer.text storage) := Word.add_eq _ _ small
  have room : next.body.endIndex - next.body.beginIndex = bodyLength (buffer.text storage) := by
    rw [body, last]
    simp only
    omega
  have fits : next.body.endIndex < Word.base :=
    lt_of_le_of_lt (le_trans inside.last shown.inside) shown.inv.fits
  have range : ∀ record ∈ fileRecords (buffer.text storage),
      ((record.range next.body).Inside next.body ↔
        record.offset + record.length ≤ bodyLength (buffer.text storage)) := by
    intro record member
    obtain ⟨offset, length⟩ := recordsFrom_bounds _ _ _ _ record member
    rw [FileRecord.range_inside_iff offset length inside.order fits, room]
  constructor
  · intro files record member first unknown
    have found := content record.name
    rw [unknown, first] at found
    simp only [Option.map_none, Option.none_or, Option.map_some, Option.map_eq_some_iff] at found
    obtain ⟨file, here, same⟩ := found
    have entry := (OrderedMap.find?_eq_some stringLess_exact _ _ _).mp here
    have lies := files _ entry unknown
    rw [same] at lies
    exact (range record member).mp lies
  · intro numbers entry member unknown
    have found := (content entry.1).symm
    rw [(OrderedMap.find?_eq_some stringLess_exact _ entry.1 entry.2).mpr member, unknown] at found
    simp only [Option.map_none, Option.none_or, Option.map_some, Option.map_eq_some_iff] at found
    obtain ⟨record, first, same⟩ := found
    have named : record.name = entry.1 := by
      have found := List.find?_some first
      rwa [beq_iff_eq] at found
    rw [← named] at first unknown
    rw [← same]
    have listed := List.mem_of_find?_eq_some first
    exact (range record listed).mpr (numbers record listed first unknown)

end Read

/-- Parsing succeeds on images whose numbers do not fit, and only those give ranges
that lie outside. -/
theorem parse_ranges_inside_iff (request : Request) (heap : Heap) (buffer : DataBuffer) (ref : Nat)
    (storage : DataBufferImpl) (shown : buffer.Shows heap ref storage) (next : Request)
    (done : request.parse heap buffer = .ok next) :
    RangesInside buffer request next ↔ NumbersFit request (buffer.text storage) := by
  have body := body_inside_iff shown done
  constructor
  · rintro ⟨inside, files⟩
    have small := body.mp inside
    exact ⟨small, (files_inside_iff shown done small).mp files⟩
  · rintro ⟨small, numbers⟩
    exact ⟨body.mpr small, (files_inside_iff shown done small).mpr numbers⟩

def bareImage (length : Nat) : Bytes :=
  List.replicate 24 0 ++ Word.toBytes 8 length

def plainImage : Bytes := bareImage 3 ++ [1, 2, 3] ++ List.replicate 16 0

/-- A body whose end wraps around to before its beginning. -/
def wrappedImage : Bytes := bareImage (2 ^ 64 - 8)

/-- A body without bytes, and a file that claims eight of it. -/
def strayImage : Bytes :=
  bareImage 0 ++ sectionImage (sectionImage (ascii "a") ++ sectionImage (ascii "b") ++
    sectionImage [] ++ Word.toBytes 8 0 ++ Word.toBytes 8 8) ++ Word.toBytes 8 0

def imageHeap (image : Bytes) : Heap := [.string ⟨image⟩]

def imageBuffer (image : Bytes) : DataBuffer := ⟨some 0, 0, image.length⟩

def parsedRanges (image : Bytes) : Option (DataBuffer × List DataBuffer) :=
  (fresh.parse (imageHeap image) (imageBuffer image)).toOption.map
    (fun next => (next.body, next.files.entries.map (fun entry => entry.2.data)))

theorem parsedRanges_some {image : Bytes} {body : DataBuffer} {files : List DataBuffer}
    (same : parsedRanges image = some (body, files)) :
    ∃ next, fresh.parse (imageHeap image) (imageBuffer image) = .ok next ∧ next.body = body ∧
      next.files.entries.map (fun entry => entry.2.data) = files := by
  obtain ⟨next, done, shape⟩ := Option.map_eq_some_iff.mp same
  obtain ⟨body, files⟩ := Prod.mk.inj shape
  refine ⟨next, ?_, body, files⟩
  cases parsed : fresh.parse (imageHeap image) (imageBuffer image) with
  | error exn =>
      rw [parsed] at done
      cases done
  | ok other =>
      rw [parsed] at done
      rw [Option.some.inj done]

theorem imageBuffer_shows (image : Bytes) (fits : image.length < Word.base) :
    (imageBuffer image).Shows (imageHeap image) 0 (.string ⟨image⟩) :=
  ⟨rfl, rfl, fits, Nat.zero_le _, le_refl _⟩

theorem parse_ranges_inside_iff_plain : ∃ next,
    fresh.parse (imageHeap plainImage) (imageBuffer plainImage) = .ok next ∧
      RangesInside (imageBuffer plainImage) fresh next := by
  obtain ⟨next, done, _⟩ :=
    parsedRanges_some (by decide +kernel : parsedRanges plainImage = some (⟨some 0, 32, 35⟩, []))
  refine ⟨next, done, (parse_ranges_inside_iff fresh _ _ 0 (.string ⟨plainImage⟩)
    (imageBuffer_shows plainImage (by decide)) next done).mpr ?_⟩
  exact ⟨by decide +kernel, by decide +kernel⟩

/-- A body that ends before it begins, and a file beyond the body. -/
theorem parse_ranges_outside :
    (∃ next, fresh.parse (imageHeap wrappedImage) (imageBuffer wrappedImage) = .ok next ∧
      next.body.endIndex < next.body.beginIndex) ∧
    ∃ next, fresh.parse (imageHeap strayImage) (imageBuffer strayImage) = .ok next ∧
      ∃ entry ∈ next.files.entries, next.body.endIndex < entry.2.data.endIndex := by
  constructor
  · obtain ⟨next, done, body, _⟩ := parsedRanges_some
      (by decide +kernel : parsedRanges wrappedImage = some (⟨some 0, 32, 24⟩, []))
    refine ⟨next, done, ?_⟩
    rw [body]
    decide
  · obtain ⟨next, done, body, files⟩ := parsedRanges_some
      (by decide +kernel : parsedRanges strayImage = some (⟨some 0, 32, 32⟩, [⟨some 0, 32, 40⟩]))
    have listed : (⟨some 0, 32, 40⟩ : DataBuffer) ∈
        next.files.entries.map (fun entry => entry.2.data) := by
      rw [files]
      exact List.mem_singleton_self _
    obtain ⟨entry, member, range⟩ := List.mem_map.mp listed
    refine ⟨next, done, entry, member, ?_⟩
    rw [body, range]
    decide

end Request

end FastcgiContainer
