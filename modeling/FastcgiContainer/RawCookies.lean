import FastcgiContainer.CookieRoundTrip

/-! Cookies that are sent as they are. The reader decodes every name and every value,
whether or not the writer has encoded them. -/

namespace FastcgiContainer

open Word (Bytes)
open StringUtils (NamedValue urldecode plainSymbol)

namespace StringUtils

/-- No plus sign, and no percent sign with two symbols after it. -/
def Verbatim (text : Bytes) : Prop :=
  (43 : UInt8) ∉ text ∧ (37 : UInt8) ∉ text.take (text.length - 2)

instance (text : Bytes) : Decidable (Verbatim text) := inferInstanceAs (Decidable (_ ∧ _))

theorem urldecode_length (text : Bytes) : (urldecode text).length ≤ text.length := by
  induction length : text.length using Nat.strong_induction_on generalizing text with
  | _ size ih =>
      match text with
      | [] => exact Nat.zero_le _
      | symbol :: rest =>
          rcases head_cases symbol rest with ⟨high, low, tail, rfl, rfl⟩ | plain
          · have shorter := ih tail.length (by simp only [List.length_cons] at length; omega) tail rfl
            rw [(head_escape high low tail).1]
            simp only [List.length_cons] at length ⊢
            omega
          · have shorter := ih rest.length (by simp only [List.length_cons] at length; omega) rest rfl
            rw [(head_plain symbol rest plain).1]
            simp only [List.length_cons] at length ⊢
            omega

theorem verbatim_cons (symbol : UInt8) (rest : Bytes) (plain : symbol ≠ 37 ∨ rest.length < 2) :
    Verbatim (symbol :: rest) ↔ symbol ≠ 43 ∧ Verbatim rest := by
  unfold Verbatim
  by_cases short : rest.length < 2
  · have first : (symbol :: rest).length - 2 = 0 := by
      rw [List.length_cons]
      omega
    have last : rest.length - 2 = 0 := by omega
    rw [first, last]
    simp only [List.mem_cons, List.take_zero, List.not_mem_nil, not_or, not_false_eq_true, and_true]
    rw [ne_comm]
  · have other : symbol ≠ 37 := plain.resolve_right short
    have front : (symbol :: rest).take ((symbol :: rest).length - 2) =
        symbol :: rest.take (rest.length - 2) := by
      have size : (symbol :: rest).length - 2 = rest.length - 2 + 1 := by
        rw [List.length_cons]
        omega
      rw [size, List.take_succ_cons]
    rw [front]
    simp only [List.mem_cons, not_or, Ne.symm other, not_false_eq_true, true_and]
    rw [ne_comm, and_assoc]

theorem not_verbatim_escape (high low : UInt8) (tail : Bytes) : ¬ Verbatim (37 :: high :: low :: tail) := by
  intro verbatim
  apply verbatim.2
  rw [show (37 :: high :: low :: tail).length - 2 = tail.length + 1 from rfl, List.take_succ_cons]
  exact List.mem_cons_self

theorem urldecode_eq_self_iff (text : Bytes) : urldecode text = text ↔ Verbatim text := by
  induction text with
  | nil => simp [urldecode, Verbatim]
  | cons symbol rest ih =>
      rcases head_cases symbol rest with ⟨high, low, tail, rfl, rfl⟩ | plain
      · have shorter := urldecode_length tail
        rw [(head_escape high low tail).1]
        constructor
        · intro same
          have lengths := congrArg List.length same
          simp only [List.length_cons] at lengths
          omega
        · intro verbatim
          exact absurd verbatim (not_verbatim_escape high low tail)
      · have kept : plainSymbol symbol = symbol ↔ symbol ≠ 43 := by
          unfold plainSymbol
          split
          next plus => simp [plus]
          next other => simp [other]
        rw [(head_plain symbol rest plain).1, List.cons.injEq, ih, kept, verbatim_cons symbol rest plain]

end StringUtils

namespace Cookie

/-- The separators among the symbols of RFC 6265, section 4.1.1. -/
def separators : Bytes := ascii "()<>@,;:\\\"/[]?=\x7b\x7d"

def tokenSymbol (symbol : UInt8) : Bool := 33 ≤ symbol && symbol ≤ 126 && !separators.contains symbol

def cookieOctet (symbol : UInt8) : Bool :=
  33 ≤ symbol && symbol ≤ 126 && !(ascii "\",;\\").contains symbol

/-- A name and a value of the grammar of RFC 6265; a value may stand in double quotes. -/
structure Grammatical (name value : Bytes) : Prop where
  filled : name ≠ []
  token : ∀ symbol ∈ name, tokenSymbol symbol = true
  octets : ∃ inner, (value = inner ∨ value = 34 :: inner ++ [34]) ∧ ∀ symbol ∈ inner, cookieOctet symbol = true

theorem tokenSymbol_clear : ∀ symbol : UInt8,
    tokenSymbol symbol = true → symbol ≠ 61 ∧ symbol ≠ 59 ∧ isspace symbol = false :=
  StringUtils.forall_byte (by decide +kernel)

theorem cookieOctet_clear : ∀ symbol : UInt8,
    cookieOctet symbol = true ∨ symbol = 34 → symbol ≠ 59 ∧ isspace symbol = false :=
  StringUtils.forall_byte (by decide +kernel)

theorem Grammatical.sent {name value : Bytes} (legal : Grammatical name value) : Sent name value := by
  refine ⟨legal.filled, fun member => (tokenSymbol_clear 61 (legal.token 61 member)).1 rfl, ?_⟩
  obtain ⟨inner, quotes, octets⟩ := legal.octets
  intro symbol member
  rcases List.mem_append.mp member with inName | inValue
  · exact (tokenSymbol_clear symbol (legal.token symbol inName)).2
  · apply cookieOctet_clear symbol
    rcases quotes with rfl | rfl
    · exact Or.inl (octets symbol inValue)
    · simp only [List.cons_append, List.mem_cons, List.mem_append, List.not_mem_nil, or_false] at inValue
      rcases inValue with rfl | inside | rfl
      · exact Or.inr rfl
      · exact Or.inl (octets symbol inside)
      · exact Or.inr rfl

end Cookie

namespace Parser

open Cookie (Sent rawPair)

theorem find?_assignAll_foreign (pairs : List NamedValue) (map : VarMap) (name : Bytes)
    (foreign : ∀ entry ∈ pairs, entry.1 ≠ name) :
    (assignAll map pairs).find? name = map.find? name := by
  induction pairs generalizing map with
  | nil => rfl
  | cons entry rest ih =>
      have later := ih (map.assign entry.1 entry.2)
        (fun other member => foreign other (List.mem_cons_of_mem entry member))
      rw [assignAll, List.foldl_cons, ← assignAll, later, find?_assign,
        if_neg (foreign entry List.mem_cons_self)]

theorem find?_assignAll_between (front back : List NamedValue) (entry : NamedValue) (map : VarMap)
    (name : Bytes) (foreign : ∀ other ∈ front ++ back, other.1 ≠ name) :
    (assignAll map (front ++ entry :: back)).find? name =
      if entry.1 = name then some entry.2 else map.find? name := by
  rw [assignAll, List.foldl_append, List.foldl_cons, ← assignAll, ← assignAll,
    find?_assignAll_foreign back _ name (fun other member => foreign other (List.mem_append_right front member)),
    find?_assign,
    find?_assignAll_foreign front _ name (fun other member => foreign other (List.mem_append_left back member))]

theorem parseVariable_cookies (request : Request) (entry : Bytes)
    (other : (Range.splitChar entry 61).2.1 ≠ ascii "HTTP_COOKIE") :
    (parseVariable request entry).cookies = request.cookies := by
  simp only [parseVariable, if_neg other]
  split_ifs <;> rfl

theorem parse_cookies (env : List Bytes) (request : Request)
    (others : ∀ entry ∈ env, (Range.splitChar entry 61).2.1 ≠ ascii "HTTP_COOKIE") :
    (parse request env).cookies = request.cookies := by
  induction env generalizing request with
  | nil => rfl
  | cons entry rest ih =>
      have later := ih (parseVariable request entry)
        (fun other member => others other (List.mem_cons_of_mem entry member))
      rw [parse, List.foldl_cons, ← parse, later,
        parseVariable_cookies request entry (others entry List.mem_cons_self)]

theorem parse_cookie_line (before after : List Bytes) (line : Bytes) (request : Request)
    (others : ∀ entry ∈ before ++ after, (Range.splitChar entry 61).2.1 ≠ ascii "HTTP_COOKIE") :
    ∃ started, started.cookies = request.cookies ∧
      (parse request (before ++ (ascii "HTTP_COOKIE=" ++ line) :: after)).cookies =
        (parseCookies started line).cookies := by
  refine ⟨parse request before,
    parse_cookies before request (fun entry member => others entry (List.mem_append_left after member)), ?_⟩
  have cut : Range.splitChar (ascii "HTTP_COOKIE=" ++ line) 61 = (true, ascii "HTTP_COOKIE", line) := by
    rw [Range.splitChar_eq_split]
    exact Range.split_symbol (ascii "HTTP_COOKIE") 61 line (by decide +kernel)
  have read : parse request (before ++ (ascii "HTTP_COOKIE=" ++ line) :: after) =
      parse (parseVariable (parse request before) (ascii "HTTP_COOKIE=" ++ line)) after := by
    rw [parse, List.foldl_append, List.foldl_cons]
    rfl
  rw [read, parse_cookies after _ (fun entry member => others entry (List.mem_append_right before member))]
  simp only [parseVariable, cut, if_true]
  rfl

end Parser

namespace Cookie

open FastcgiContainer.Parser (parse rawLine decoded)

theorem getCookie_rawLine (front back : List NamedValue) (name value : Bytes) (started : Request)
    (sent : ∀ entry ∈ front ++ (name, value) :: back, Sent entry.1 entry.2)
    (foreign : ∀ entry ∈ front ++ back, urldecode entry.1 ≠ name) (empty : started.cookies = .empty) :
    (Parser.parseCookies started (rawLine (front ++ (name, value) :: back))).getCookie name =
      if urldecode name = name then urldecode value else [] := by
  have apart : ∀ entry ∈ front.map decoded ++ back.map decoded, entry.1 ≠ name := by
    intro entry member
    rw [← List.map_append] at member
    obtain ⟨given, listed, rfl⟩ := List.mem_map.mp member
    exact foreign given listed
  rw [Parser.parseCookies_rawLine started _ sent, Request.getCookie, List.map_append, List.map_cons,
    Parser.find?_assignAll_between _ _ _ _ name apart, empty]
  by_cases same : urldecode name = name
  · rw [if_pos same, decoded, if_pos same]
    rfl
  · rw [if_neg same, decoded, if_neg same]
    rfl

/-- A cookie that was set without encoding comes back with its value exactly if the decoder
leaves its name and its value alone, or if there is no value to come back. -/
theorem raw_cookie_returns (server sent request : Request) (cookie stored : Cookie) (text : Bytes)
    (front back : List NamedValue) (before after : List Bytes)
    (legal : Grammatical cookie.name cookie.value) (raw : cookie.encode = false)
    (set : server.setCookie cookie = .ok sent)
    (kept : sent.outCookies.find? cookie.name = some stored) (written : stored.toString = .ok text)
    (neighbours : ∀ entry ∈ front ++ back, Sent entry.1 entry.2)
    (foreign : ∀ entry ∈ front ++ back, urldecode entry.1 ≠ cookie.name)
    (single : ∀ entry ∈ before ++ after, (Range.splitChar entry 61).2.1 ≠ ascii "HTTP_COOKIE")
    (empty : request.cookies = .empty) :
    (parse request (before ++ (ascii "HTTP_COOKIE=" ++ (ascii "; ").intercalate
      (front.map (fun entry => rawPair entry.1 entry.2) ++
        returned text :: back.map (fun entry => rawPair entry.1 entry.2))) :: after)).getCookie cookie.name =
        cookie.value ↔
      cookie.value = [] ∨ StringUtils.Verbatim cookie.name ∧ StringUtils.Verbatim cookie.value := by
  have same : stored = cookie := by
    unfold Request.setCookie at set
    split at set
    · cases set
    · cases set
      rw [find?_assign, if_pos rfl] at kept
      exact (Option.some.inj kept).symm
  subst same
  have shown : returned text = rawPair stored.name stored.value := by
    have pair := returned_pair stored text written (by rw [raw]; exact legal.sent)
    rw [raw] at pair
    exact pair
  have line : (ascii "; ").intercalate (front.map (fun entry => rawPair entry.1 entry.2) ++
      returned text :: back.map (fun entry => rawPair entry.1 entry.2)) =
      rawLine (front ++ (stored.name, stored.value) :: back) := by
    rw [shown, rawLine, List.map_append, List.map_cons]
  have clear : ∀ entry ∈ front ++ (stored.name, stored.value) :: back, Sent entry.1 entry.2 := by
    intro entry member
    rcases List.mem_append.mp member with early | rest
    · exact neighbours entry (List.mem_append_left back early)
    · rcases List.mem_cons.mp rest with rfl | late
      · exact legal.sent
      · exact neighbours entry (List.mem_append_right front late)
  obtain ⟨started, begun, read⟩ := Parser.parse_cookie_line before after
    (rawLine (front ++ (stored.name, stored.value) :: back)) request single
  rw [line, Request.getCookie, read, ← Request.getCookie,
    getCookie_rawLine front back stored.name stored.value started clear foreign (begun.trans empty)]
  by_cases name : urldecode stored.name = stored.name
  · rw [if_pos name, StringUtils.urldecode_eq_self_iff]
    rw [StringUtils.urldecode_eq_self_iff] at name
    constructor
    · intro value
      exact Or.inr ⟨name, value⟩
    · intro either
      rcases either with none | both
      · rw [none]
        decide
      · exact both.2
  · rw [if_neg name]
    rw [StringUtils.urldecode_eq_self_iff] at name
    simp only [name, false_and, or_false]
    exact eq_comm

theorem raw_cookie_returns_token :
    (parse Request.fresh [ascii "QUERY_STRING=", ascii "HTTP_COOKIE=a=%41; t=QUI=; b=+"]).getCookie (ascii "t") =
      ascii "QUI=" := by
  let cookie : Cookie := create (ascii "t") (ascii "QUI=")
  let sent : Request := { Request.fresh with outCookies := Request.fresh.outCookies.assign cookie.name cookie }
  have legal : Grammatical cookie.name cookie.value :=
    ⟨by decide +kernel, by decide +kernel, ascii "QUI=", Or.inl rfl, by decide +kernel⟩
  have neighbours : ∀ entry ∈ [(ascii "a", ascii "%41")] ++ [(ascii "b", ascii "+")],
      Sent entry.1 entry.2 ∧ urldecode entry.1 ≠ cookie.name := by
    intro entry member
    simp only [List.cons_append, List.nil_append, List.mem_cons, List.not_mem_nil, or_false] at member
    rcases member with rfl | rfl
    · exact ⟨⟨by decide +kernel, by decide +kernel, by decide +kernel⟩, by decide +kernel⟩
    · exact ⟨⟨by decide +kernel, by decide +kernel, by decide +kernel⟩, by decide +kernel⟩
  have returns := (raw_cookie_returns Request.fresh sent Request.fresh cookie cookie
    (ascii "t=QUI=; path=/") [(ascii "a", ascii "%41")] [(ascii "b", ascii "+")] [ascii "QUERY_STRING="] []
    legal rfl rfl (by rw [find?_assign, if_pos rfl]) (by decide +kernel)
    (fun entry member => (neighbours entry member).1) (fun entry member => (neighbours entry member).2)
    (by decide +kernel) rfl).mpr (Or.inr (by decide +kernel))
  have line : ascii "HTTP_COOKIE=a=%41; t=QUI=; b=+" =
      ascii "HTTP_COOKIE=" ++ (ascii "; ").intercalate ([rawPair (ascii "a") (ascii "%41")] ++
        returned (ascii "t=QUI=; path=/") :: [rawPair (ascii "b") (ascii "+")]) := by
    decide +kernel
  rw [line]
  exact returns

/-- A plus sign in a value comes back as a space. -/
theorem raw_cookie_changed :
    Grammatical (ascii "t") (ascii "a+b") ∧ (create (ascii "t") (ascii "a+b")).encode = false ∧
      Request.fresh.setCookie (create (ascii "t") (ascii "a+b")) =
        .ok { Request.fresh with
          outCookies := Request.fresh.outCookies.assign (ascii "t") (create (ascii "t") (ascii "a+b")) } ∧
      (create (ascii "t") (ascii "a+b")).toString = .ok (ascii "t=a+b; path=/") ∧
      returned (ascii "t=a+b; path=/") = ascii "t=a+b" ∧
      (parse Request.fresh [ascii "HTTP_COOKIE=t=a+b"]).getCookie (ascii "t") = ascii "a b" ∧
      ascii "a b" ≠ ascii "a+b" :=
  ⟨⟨by decide +kernel, by decide +kernel, ascii "a+b", Or.inl rfl, by decide +kernel⟩, rfl, rfl,
    by decide +kernel, by decide +kernel, by decide +kernel, by decide +kernel⟩

end Cookie

end FastcgiContainer
