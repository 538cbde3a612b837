import FastcgiContainer.Attach
import FastcgiContainer.Response

/-! What reads a request, from the web server or from a stored image, leaves its response alone. -/

namespace FastcgiContainer

open Word (Bytes)

namespace Request

structure ResponseState where
  headersSent : Bool
  status : Nat
  outHeaders : HeaderMap
  outCookies : OrderedMap Bytes Cookie stringLess

def response (request : Request) : ResponseState :=
  ⟨request.headersSent, request.status, request.outHeaders, request.outCookies⟩

theorem headersSent_of_response {request next : Request} (same : next.response = request.response) :
    next.headersSent = request.headersSent := congrArg ResponseState.headersSent same

end Request

namespace Parser

theorem cookiesLoop_response (fuel : Nat) (tmp : Bytes) (request : Request) :
    (cookiesLoop fuel tmp request).response = request.response := by
  induction fuel generalizing tmp request with
  | zero => rfl
  | succ fuel ih =>
      unfold cookiesLoop
      split
      · rfl
      · rw [ih]
        unfold addCookie
        dsimp only
        split <;> rfl

theorem parseVariable_response (request : Request) (entry : Bytes) :
    (parseVariable request entry).response = request.response := by
  unfold parseVariable
  dsimp only
  split
  · exact cookiesLoop_response _ _ request
  · split
    · rfl
    · split
      · rfl
      · split <;> rfl

theorem parse_response (request : Request) (env : List Bytes) : (parse request env).response = request.response := by
  induction env generalizing request with
  | nil => rfl
  | cons entry rest ih => exact (ih _).trans (parseVariable_response request entry)

theorem parsePart_response {request next : Request} {heap : Heap} {part : DataBuffer}
    (done : parsePart request heap part = .ok next) : next.response = request.response := by
  unfold parsePart at done
  obtain ⟨⟨headers, content⟩, _, done⟩ := bind_eq_ok _ _ _ done
  obtain ⟨found, _, done⟩ := bind_eq_ok _ _ _ done
  split at done
  · cases done
    rfl
  · obtain ⟨name, _, done⟩ := bind_eq_ok _ _ _ done
    split at done
    · obtain ⟨arg, _, done⟩ := bind_eq_ok _ _ _ done
      cases done
      rfl
    · obtain ⟨file, _, done⟩ := bind_eq_ok _ _ _ done
      cases done
      rfl

theorem addPart_response {request next : Request} {heap : Heap} {part : DataBuffer}
    (done : addPart request heap part = .ok next) : next.response = request.response := by
  unfold addPart at done
  split at done
  · cases done
    rfl
  · exact parsePart_response done

theorem parseMultipartLoop_response {heap : Heap} {boundary : Bytes} (fuel : Nat) {request next : Request}
    {data : DataBuffer} (done : parseMultipartLoop heap boundary fuel request data = .ok next) :
    next.response = request.response := by
  induction fuel generalizing request data with
  | zero =>
      simp only [parseMultipartLoop] at done
      split at done
      · cases done
        rfl
      · cases done
  | succ fuel ih =>
      simp only [parseMultipartLoop] at done
      split at done
      · cases done
        rfl
      · obtain ⟨⟨found, head, tail⟩, _, done⟩ := bind_eq_ok _ _ _ done
        obtain ⟨part, _, done⟩ := bind_eq_ok _ _ _ done
        obtain ⟨middle, added, done⟩ := bind_eq_ok _ _ _ done
        obtain ⟨last, _, done⟩ := bind_eq_ok _ _ _ done
        split at done
        · cases done
          exact addPart_response added
        · exact (ih done).trans (addPart_response added)

end Parser

namespace Request

theorem parseContent_response {request next : Request} {heap : Heap}
    (done : request.parseContent heap = .ok next) : next.response = request.response := by
  simp only [parseContent] at done
  split at done
  · obtain ⟨boundary, _, done⟩ := bind_eq_ok _ _ _ done
    split at done
    · cases done
      rfl
    · exact Parser.parseMultipartLoop_response _ done
  · split at done
    · obtain ⟨args, _, done⟩ := bind_eq_ok _ _ _ done
      cases done
      rfl
    · cases done
      rfl

theorem openBody_response {request opened : Request} {cache : Option RequestCache} {heap after : Heap} {size : Nat}
    {postBuffer : DataBuffer} (done : request.openBody cache heap size = .ok (postBuffer, opened, after)) :
    opened.response = request.response := by
  unfold openBody at done
  split at done
  · obtain ⟨_, _, done⟩ := bind_eq_ok _ _ _ done
    obtain ⟨_, _, done⟩ := bind_eq_ok _ _ _ done
    obtain ⟨body, _, done⟩ := bind_eq_ok _ _ _ done
    cases done
    rfl
  · obtain ⟨_, _, done⟩ := bind_eq_ok _ _ _ done
    cases done
    rfl

theorem attach_response {request result : Request} {cache : Option RequestCache} {stream : RequestIOStream}
    {heap after : Heap} {env : List Bytes} {postBuffer : DataBuffer}
    (done : request.attach cache stream heap env = .ok (result, postBuffer, after)) :
    result.response = request.response := by
  have parsed := Parser.parse_response request env
  simp only [attach] at done
  split at done
  · cases done
    exact parsed
  · obtain ⟨length, _, done⟩ := bind_eq_ok _ _ _ done
    obtain ⟨⟨first, opened, firstHeap⟩, opening, done⟩ := bind_eq_ok _ _ _ done
    obtain ⟨⟨rsz, middleHeap⟩, _, done⟩ := bind_eq_ok _ _ _ done
    have taken := openBody_response opening
    split at done
    · cases done
    · obtain ⟨last, parsing, done⟩ := bind_eq_ok _ _ _ done
      obtain ⟨⟨final, finalHeap⟩, _, done⟩ := bind_eq_ok _ _ _ done
      cases done
      rw [parseContent_response parsing, ← parsed, ← taken]
      split <;> rfl

theorem parse_response {request next : Request} {heap : Heap} {buffer : DataBuffer}
    (done : request.parse heap buffer = .ok next) : next.response = request.response := by
  obtain ⟨⟨_, first⟩, headers, done⟩ := bind_eq_ok _ _ _ done
  obtain ⟨_, _, headers⟩ := bind_eq_ok _ _ _ headers
  cases headers
  obtain ⟨⟨_, second⟩, cookies, done⟩ := bind_eq_ok _ _ _ done
  obtain ⟨_, _, cookies⟩ := bind_eq_ok _ _ _ cookies
  cases cookies
  obtain ⟨⟨_, third⟩, vars, done⟩ := bind_eq_ok _ _ _ done
  obtain ⟨_, _, vars⟩ := bind_eq_ok _ _ _ vars
  cases vars
  obtain ⟨⟨_, fourth⟩, body, done⟩ := bind_eq_ok _ _ _ done
  obtain ⟨_, _, body⟩ := bind_eq_ok _ _ _ body
  obtain ⟨_, _, body⟩ := bind_eq_ok _ _ _ body
  cases body
  obtain ⟨⟨_, fifth⟩, files, done⟩ := bind_eq_ok _ _ _ done
  obtain ⟨_, _, files⟩ := bind_eq_ok _ _ _ files
  obtain ⟨_, _, files⟩ := bind_eq_ok _ _ _ files
  cases files
  obtain ⟨⟨_, last⟩, args, done⟩ := bind_eq_ok _ _ _ done
  obtain ⟨_, _, args⟩ := bind_eq_ok _ _ _ args
  cases args
  cases done
  rfl

theorem restore_response {request next : Request} {heap : Heap} {buffer : DataBuffer}
    (done : request.restore heap buffer = .ok next) :
    next.response = { request.response with outHeaders := .empty } :=
  parse_response done

end Request

end FastcgiContainer
