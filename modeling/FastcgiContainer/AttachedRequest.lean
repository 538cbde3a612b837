import FastcgiContainer.Attach
import FastcgiContainer.MultipartStorage

/-! Every request that `attach` leaves can be stored: its files are pieces of its
body, or empty. -/

namespace FastcgiContainer

open Word (Bytes)

namespace DataBuffer

structure PieceOf (heap : Heap) (ref : Nat) (storage : DataBufferImpl) (body piece : DataBuffer) :
    Prop where
  shown : piece.Shows heap ref storage
  place : (body.beginIndex ≤ piece.beginIndex ∧ piece.endIndex ≤ body.endIndex) ∨
    (piece.beginIndex = 0 ∧ piece.endIndex = 0)

section PieceOf

variable {heap : Heap} {ref : Nat} {storage : DataBufferImpl} {body piece : DataBuffer}

theorem PieceOf.refl (shown : body.Shows heap ref storage) : PieceOf heap ref storage body body :=
  ⟨shown, Or.inl ⟨le_refl _, le_refl _⟩⟩

theorem PieceOf.split (part : PieceOf heap ref storage body piece) {delim : Bytes}
    (nonempty : delim ≠ []) {found : Bool} {head tail : DataBuffer}
    (done : piece.split heap delim = .ok (found, head, tail)) :
    PieceOf heap ref storage body head ∧ PieceOf heap ref storage body tail := by
  have length := part.shown.text_length
  rw [part.shown.size_eq] at length
  have inside := part.shown.inside
  have order := part.shown.order
  have blank : PieceOf heap ref storage body { piece with beginIndex := 0, endIndex := 0 } :=
    ⟨part.shown.narrow 0 0 (le_refl 0) (Nat.zero_le _), Or.inr ⟨rfl, rfl⟩⟩
  rw [split_spec part.shown delim nonempty] at done
  split at done
  · cases done
    exact ⟨part, blank⟩
  · next absent =>
      have short := Search.search_le delim (piece.text storage)
      have room := Search.search_bound delim (piece.text storage) nonempty (by omega)
      have place := part.place
      cases done
      constructor
      · exact ⟨part.shown.narrow _ _ (by omega) (by omega), Or.inl (by simp only; omega)⟩
      · exact ⟨part.shown.narrow _ _ (by omega) (by omega), Or.inl (by simp only; omega)⟩

theorem PieceOf.trimn (part : PieceOf heap ref storage body piece) (b e : Nat)
    (front : b ≤ (piece.text storage).length) (back : e ≤ (piece.text storage).length) :
    PieceOf heap ref storage body (piece.trimn b e) := by
  have length := part.shown.text_length
  rw [part.shown.size_eq] at length
  have inside := part.shown.inside
  have order := part.shown.order
  have bound := part.shown.inv.fits
  have place := part.place
  refine ⟨(trimn_spec part.shown b e (by omega) (by omega)).1, ?_⟩
  simp only [DataBuffer.trimn, Word.add_eq piece.beginIndex b (by omega),
    Word.sub_eq piece.endIndex e (by omega) (by omega)]
  split
  · exact place
  · split
    · simp only
      omega
    · simp only
      omega

end PieceOf

end DataBuffer

namespace Request

open DataBuffer (PieceOf)

section Files

variable {heap : Heap} {ref : Nat} {storage : DataBufferImpl} {body : DataBuffer}

theorem stripBack_piece {head part : DataBuffer} (piece : PieceOf heap ref storage body head)
    (done : Parser.stripBack heap head = .ok part) : PieceOf heap ref storage body part := by
  simp only [Parser.stripBack, DataBuffer.endsWith_spec piece.shown, ok_bind] at done
  split at done
  · next windows =>
      cases done
      exact piece.trimn 0 2 (Nat.zero_le _) (Multipart.endsWith_length windows)
  · split at done
    · next unix =>
        cases done
        exact piece.trimn 0 1 (Nat.zero_le _) (Multipart.endsWith_length unix)
    · cases done

theorem stripFront_piece {head part : DataBuffer} (piece : PieceOf heap ref storage body head)
    (done : Parser.stripFront heap head = .ok part) : PieceOf heap ref storage body part := by
  simp only [Parser.stripFront, DataBuffer.startsWith_spec piece.shown, ok_bind] at done
  split at done
  · next windows =>
      cases done
      exact piece.trimn 2 0 (Multipart.startsWith_length windows) (Nat.zero_le _)
  · split at done
    · next unix =>
        cases done
        exact piece.trimn 1 0 (Multipart.startsWith_length unix) (Nat.zero_le _)
    · cases done

theorem cutPart_piece {found : Bool} {head part : DataBuffer}
    (piece : PieceOf heap ref storage body head)
    (done : Parser.cutPart heap found head = .ok part) : PieceOf heap ref storage body part := by
  unfold Parser.cutPart at done
  split at done
  · obtain ⟨front, back, done⟩ := bind_eq_ok _ _ _ done
    exact stripFront_piece (stripBack_piece piece back) done
  · cases done
    exact piece

theorem splitEither_piece {buffer first second : DataBuffer} {delim other : Bytes}
    (piece : PieceOf heap ref storage body buffer) (nonempty : delim ≠ []) (filled : other ≠ [])
    (done : Parser.splitEither buffer heap delim other = .ok (first, second)) :
    PieceOf heap ref storage body second := by
  unfold Parser.splitEither at done
  obtain ⟨⟨found, head, tail⟩, cut, done⟩ := bind_eq_ok _ _ _ done
  simp only at done
  split at done
  · cases done
    exact (piece.split nonempty cut).2
  · obtain ⟨⟨found, head, tail⟩, cut, done⟩ := bind_eq_ok _ _ _ done
    cases done
    exact (piece.split filled cut).2

def FilesIn (heap : Heap) (ref : Nat) (storage : DataBufferImpl) (body : DataBuffer)
    (request : Request) : Prop :=
  ∀ entry ∈ request.files.entries, PieceOf heap ref storage body entry.2.data

theorem ofBuffers_data {filename type content : DataBuffer} {file : File}
    (done : File.ofBuffers heap filename type content = .ok file) : file.data = content := by
  have created : ∀ remote kind, File.create remote kind content = .ok file → file.data = content := by
    intro remote kind made
    unfold File.create at made
    split at made
    · cases made
      rfl
    · cases made
  by_cases unnamed : filename.empty = true
  · by_cases untyped : type.empty = true
    · simp [File.ofBuffers, unnamed, untyped] at done
    · simp only [File.ofBuffers, if_pos unnamed, if_neg untyped] at done
      obtain ⟨_, _, done⟩ := bind_eq_ok _ _ _ done
      cases done
  · by_cases untyped : type.empty = true
    · simp only [File.ofBuffers, if_neg unnamed, if_pos untyped, ok_bind] at done
      obtain ⟨remote, _, done⟩ := bind_eq_ok _ _ _ done
      exact created remote _ done
    · simp only [File.ofBuffers, if_neg unnamed, if_neg untyped] at done
      obtain ⟨kind, _, done⟩ := bind_eq_ok _ _ _ done
      obtain ⟨remote, _, done⟩ := bind_eq_ok _ _ _ done
      exact created remote kind done

theorem parsePart_filesIn {request next : Request} {part : DataBuffer}
    (piece : PieceOf heap ref storage body part) (files : FilesIn heap ref storage body request)
    (done : Parser.parsePart request heap part = .ok next) : FilesIn heap ref storage body next := by
  unfold Parser.parsePart at done
  obtain ⟨⟨headers, content⟩, cut, done⟩ := bind_eq_ok _ _ _ done
  have contentPiece := splitEither_piece piece (by decide) (by decide) cut
  obtain ⟨found, _, done⟩ := bind_eq_ok _ _ _ done
  split at done
  · cases done
    exact files
  · obtain ⟨name, _, done⟩ := bind_eq_ok _ _ _ done
    split at done
    · obtain ⟨arg, _, done⟩ := bind_eq_ok _ _ _ done
      cases done
      exact files
    · obtain ⟨file, made, done⟩ := bind_eq_ok _ _ _ done
      cases done
      intro entry member
      rcases OrderedMap.mem_placeEntry _ _ _ _ member with rfl | old
      · rw [ofBuffers_data made]
        exact contentPiece
      · exact files entry old

theorem parseMultipartLoop_filesIn {boundary : Bytes} (marked : boundary ≠ []) (fuel : Nat)
    {request next : Request} {data : DataBuffer} (piece : PieceOf heap ref storage body data)
    (files : FilesIn heap ref storage body request)
    (done : Parser.parseMultipartLoop heap boundary fuel request data = .ok next) :
    FilesIn heap ref storage body next := by
  induction fuel generalizing request data with
  | zero =>
      simp only [Parser.parseMultipartLoop] at done
      split at done
      · cases done
        exact files
      · cases done
  | succ fuel ih =>
      simp only [Parser.parseMultipartLoop] at done
      split at done
      · cases done
        exact files
      · obtain ⟨⟨found, head, tail⟩, cut, done⟩ := bind_eq_ok _ _ _ done
        obtain ⟨part, made, done⟩ := bind_eq_ok _ _ _ done
        obtain ⟨middle, added, done⟩ := bind_eq_ok _ _ _ done
        obtain ⟨last, _, done⟩ := bind_eq_ok _ _ _ done
        obtain ⟨headPiece, tailPiece⟩ := piece.split marked cut
        have middleFiles : FilesIn heap ref storage body middle := by
          unfold Parser.addPart at added
          split at added
          · cases added
            exact files
          · exact parsePart_filesIn (cutPart_piece headPiece made) files added
        split at done
        · cases done
          exact middleFiles
        · exact ih tailPiece middleFiles done

theorem parseContent_filesIn {request next : Request} (shown : request.body.Shows heap ref storage)
    (files : request.files = .empty) (done : request.parseContent heap = .ok next) :
    FilesIn heap ref storage request.body next := by
  have none : FilesIn heap ref storage request.body request := by
    intro entry member
    rw [files] at member
    cases member
  simp only [parseContent] at done
  split at done
  · obtain ⟨boundary, _, done⟩ := bind_eq_ok _ _ _ done
    split at done
    · cases done
      exact none
    · next marked =>
        exact parseMultipartLoop_filesIn (by simpa using marked) _ (PieceOf.refl shown) none done
  · split at done
    · obtain ⟨args, _, done⟩ := bind_eq_ok _ _ _ done
      cases done
      exact none
    · cases done
      exact none

end Files

theorem cookiesLoop_untouched (fuel : Nat) (tmp : Bytes) (request : Request) :
    (Parser.cookiesLoop fuel tmp request).files = request.files ∧
      (Parser.cookiesLoop fuel tmp request).body = request.body := by
  induction fuel generalizing tmp request with
  | zero => exact ⟨rfl, rfl⟩
  | succ fuel ih =>
      have added : ∀ range, (Parser.addCookie request range).files = request.files ∧
          (Parser.addCookie request range).body = request.body := by
        intro range
        simp only [Parser.addCookie]
        split
        · exact ⟨rfl, rfl⟩
        · exact ⟨rfl, rfl⟩
      simp only [Parser.cookiesLoop]
      split
      · exact ⟨rfl, rfl⟩
      · constructor
        · exact (ih _ _).1.trans (added _).1
        · exact (ih _ _).2.trans (added _).2

theorem parseVariable_untouched (request : Request) (entry : Bytes) :
    (Parser.parseVariable request entry).files = request.files ∧
      (Parser.parseVariable request entry).body = request.body := by
  simp only [Parser.parseVariable]
  split_ifs
  · exact cookiesLoop_untouched _ _ _
  · exact ⟨rfl, rfl⟩
  · exact ⟨rfl, rfl⟩
  · exact ⟨rfl, rfl⟩
  · exact ⟨rfl, rfl⟩

theorem parse_untouched (request : Request) (env : List Bytes) :
    (Parser.parse request env).files = request.files ∧
      (Parser.parse request env).body = request.body := by
  unfold Parser.parse
  induction env generalizing request with
  | nil => exact ⟨rfl, rfl⟩
  | cons entry rest ih =>
      have first := parseVariable_untouched request entry
      have later := ih (Parser.parseVariable request entry)
      exact ⟨later.1.trans first.1, later.2.trans first.2⟩

theorem openBody_shows {request opened : Request} {cache : Option RequestCache} {heap after : Heap}
    {size : Nat} {first : DataBuffer}
    (done : request.openBody cache heap size = .ok (first, opened, after)) :
    ∃ storage, opened.body.Shows after heap.length storage ∧ opened.files = request.files ∧
      opened.body.beginIndex ≤ request.envSize + 8 ∧ opened.envSize = request.envSize := by
  cases chosen : cache.filter (fun cache => size ≥ cache.minPostSize) with
  | some taken =>
      obtain ⟨rfl, large⟩ := Option.filter_eq_some_iff.mp chosen
      obtain ⟨next, opens, nextInv, nextLength, _⟩ := openBody_cached request heap taken size
        (by simpa using large) _ rfl
      obtain ⟨rfl, same⟩ := Prod.mk.inj (Except.ok.inj (done.symm.trans opens))
      obtain ⟨rfl, rfl⟩ := Prod.mk.inj same
      refine ⟨next, DataBuffer.last_shows heap nextInv (Nat.min_le_right _ _) (Nat.le_of_eq nextLength.symm), rfl,
        Nat.min_le_left _ _, rfl⟩
  | none =>
      simp only [openBody, chosen] at done
      obtain ⟨⟨body, bodyHeap⟩, resizing, done⟩ := bind_eq_ok _ _ _ done
      cases done
      have inv : (DataBufferImpl.string ⟨[]⟩).Inv := by
        unfold DataBufferImpl.Inv
        decide
      have made := DataBuffer.create_shows heap (.string ⟨[]⟩) inv
      obtain ⟨next, rfl, rfl, _, grown⟩ := DataBuffer.resize_shows made resizing
      exact ⟨next, grown, rfl, Nat.zero_le _, rfl⟩

theorem attach_attached {request result : Request} {cache : Option RequestCache}
    {stream : RequestIOStream} {heap after : Heap} {env : List Bytes} {postBuffer : DataBuffer}
    (noFiles : request.files = .empty) (noBody : request.body = .nil)
    (small : (Parser.parse request env).envSize + 8 < Word.base)
    (done : request.attach cache stream heap env = .ok (result, postBuffer, after)) :
    ∃ text, Attached after result text := by
  obtain ⟨files, body⟩ := parse_untouched request env
  rcases attach_cases done with ⟨rfl, _, _⟩ | ⟨size, opened, queried, first, firstHeap, middleHeap,
    _, opening, reading, asked, askedFiles, parsing, closing⟩
  · refine ⟨[], Or.inl ⟨body.trans noBody, rfl⟩, ?_⟩
    intro entry member
    change entry ∈ (Parser.parse request env).files.entries at member
    rw [files, noFiles] at member
    cases member
  · obtain ⟨storage, openedShown, openedFiles, start, width⟩ := openBody_shows opening
    obtain ⟨rsz, middle, reads, middleInv, middleLength, _⟩ := readBody_spec opened stream openedShown
    obtain ⟨_, rfl⟩ := Prod.mk.inj (Except.ok.inj (reading.symm.trans reads))
    have middleShown := openedShown.replaced middle middleInv (by
      have last := openedShown.inside
      omega)
    have kept := asked.trans (parseContent_kept parsing)
    have resultWidth := (kept_image kept).2
    have placed : ∀ entry ∈ result.files.entries, FileIn result entry.2 := by
      intro entry member
      have queriedShown := middleShown
      rw [← asked.body] at queriedShown
      have piece := parseContent_filesIn queriedShown
        (askedFiles.trans (openedFiles.trans (files.trans noFiles))) parsing entry member
      have place := piece.place
      have order := piece.shown.order
      rw [asked.body] at place
      constructor
      · rw [piece.shown.data, kept.body, middleShown.data]
      · exact order
      · rw [kept.body]
        omega
      · rw [kept.body, resultWidth, width]
        omega
      · rw [kept.body]
        omega
    by_cases cached : postBuffer.isNil = false
    · obtain ⟨filled, text, rfl, rfl, shown, filledBytes, bodyPlace⟩ := attach_filled small done cached
      have here := attach_text heap.length filledBytes
      refine ⟨text, Or.inr ⟨heap.length, filled, ?_, ?_⟩, placed⟩
      · rw [bodyPlace]
        exact bodyIn_shows shown here
      · rw [bodyPlace]
        exact bodyIn_text shown here
    · have same := (closeBody_isNil closing).2 (by simpa using cached)
      rw [← kept.body] at middleShown
      rw [same]
      exact ⟨_, Or.inr ⟨heap.length, middle, middleShown, rfl⟩, placed⟩

end Request

end FastcgiContainer
