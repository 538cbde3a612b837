import FastcgiContainer.UrlEncoding
import FastcgiContainer.Environment
import FastcgiContainer.Response

/-! Cookies that are sent to a client with their values encoded, and read back from what
the client returns. -/

namespace FastcgiContainer

open Word (Bytes)
open StringUtils (NamedValue urldecode urlencode)

namespace Range

theorem trim_eq_self (range : Bytes) (first : ∀ symbol ∈ range.head?, isspace symbol = false)
    (last : ∀ symbol ∈ range.getLast?, isspace symbol = false) : trim range = range := by
  have front : range.dropWhile isspace = range := by
    cases range with
    | nil => rfl
    | cons symbol rest => exact List.dropWhile_cons_of_neg (by simp [first symbol rfl])
  rw [trim, front, List.rdropWhile_eq_self_iff]
  intro filled
  simp [last _ (List.getLast?_eq_getLast_of_ne_nil filled)]

end Range

namespace Cookie

structure PlainName (name : Bytes) : Prop where
  filled : name ≠ []
  plain : ∀ symbol ∈ name, symbol ≠ 61 ∧ symbol ≠ 59 ∧ symbol ≠ 37 ∧ symbol ≠ 43 ∧ isspace symbol = false

structure Sent (name text : Bytes) : Prop where
  filled : name ≠ []
  unsplit : (61 : UInt8) ∉ name
  clear : ∀ symbol ∈ name ++ text, symbol ≠ 59 ∧ isspace symbol = false

def rawPair (name text : Bytes) : Bytes := name ++ 61 :: text

def pair (name value : Bytes) : Bytes := name ++ 61 :: urlencode value

theorem PlainName.sent {name : Bytes} (plain : PlainName name) (value : Bytes) :
    Sent name (urlencode value) := by
  refine ⟨plain.filled, fun member => (plain.plain 61 member).1 rfl, ?_⟩
  intro symbol member
  rcases List.mem_append.mp member with inName | inValue
  · exact ⟨(plain.plain symbol inName).2.1, (plain.plain symbol inName).2.2.2.2⟩
  · have safe := StringUtils.encoded_plain symbol (StringUtils.urlencode_encoded value symbol inValue)
    exact ⟨safe.2.2.1, safe.2.2.2⟩

theorem Sent.pair_clear {name text : Bytes} (sent : Sent name text) :
    ∀ symbol ∈ rawPair name text, symbol ≠ 59 ∧ isspace symbol = false := by
  intro symbol member
  unfold rawPair at member
  rw [List.mem_append, List.mem_cons] at member
  rcases member with inName | rfl | inText
  · exact sent.clear symbol (List.mem_append_left text inName)
  · decide
  · exact sent.clear symbol (List.mem_append_right name inText)

theorem rawPair_ne_nil (name text : Bytes) : rawPair name text ≠ [] := by simp [rawPair]

def Attributes (text : Bytes) : Prop := ∀ symbol ∈ text.head?, symbol = 59

theorem Attributes.append {front back : Bytes} (left : Attributes front) (right : Attributes back) :
    Attributes (front ++ back) := by
  cases front with
  | nil => exact right
  | cons symbol rest => exact left

theorem option_attributes (missing : Bool) (text : Bytes) (begins : Attributes text) :
    Attributes (if missing then [] else text) := by
  cases missing
  · exact begins
  · simp [Attributes]

theorem flag_attributes (present : Bool) (text : Bytes) (begins : Attributes text) :
    Attributes (if present then text else []) := by
  cases present
  · simp [Attributes]
  · exact begins

theorem attributes_domain (cookie : Cookie) :
    Attributes (if cookie.domain.isEmpty then [] else ascii "; domain=" ++ cookie.domain) :=
  option_attributes _ _ (by simp [Attributes, ascii])

theorem attributes_path (cookie : Cookie) :
    Attributes (if cookie.path.isEmpty then [] else ascii "; path=" ++ cookie.path) :=
  option_attributes _ _ (by simp [Attributes, ascii])

theorem attributes_secure (cookie : Cookie) :
    Attributes (if cookie.secure then ascii "; secure" else []) :=
  flag_attributes _ _ (by simp [Attributes, ascii])

theorem attributes_httpOnly (cookie : Cookie) :
    Attributes (if cookie.httpOnly then ascii "; HttpOnly" else []) :=
  flag_attributes _ _ (by simp [Attributes, ascii])

theorem attributes_expiresText (cookie : Cookie) (text : Bytes) (written : cookie.expiresText = .ok text) :
    Attributes text := by
  unfold expiresText at written
  split at written
  · cases written
    simp [Attributes]
  · obtain ⟨date, _, same⟩ := bind_eq_ok _ _ _ written
    cases same
    simp [Attributes, ascii]

theorem toString_pair (cookie : Cookie) (text : Bytes) (written : cookie.toString = .ok text) :
    ∃ attributes, Attributes attributes ∧
      text = rawPair cookie.name (if cookie.encode then urlencode cookie.value else cookie.value) ++
        attributes := by
  unfold toString at written
  obtain ⟨expires, dated, shape⟩ := bind_eq_ok _ _ _ written
  have same := Except.ok.inj shape
  have flags := cookie.attributes_secure.append cookie.attributes_httpOnly
  have date := (attributes_expiresText cookie expires dated).append flags
  refine ⟨_, cookie.attributes_domain.append (cookie.attributes_path.append date), ?_⟩
  rw [← same]
  simp [rawPair]

/-- What a client keeps of the text and sends back: all before the first semicolon. -/
def returned (text : Bytes) : Bytes := text.takeWhile (fun symbol => symbol != 59)

theorem returned_pair (cookie : Cookie) (text : Bytes) (written : cookie.toString = .ok text)
    (sent : Sent cookie.name (if cookie.encode then urlencode cookie.value else cookie.value)) :
    returned text =
      rawPair cookie.name (if cookie.encode then urlencode cookie.value else cookie.value) := by
  obtain ⟨attributes, begins, rfl⟩ := toString_pair cookie text written
  unfold returned
  rw [List.takeWhile_append_of_pos]
  · cases attributes with
    | nil => simp
    | cons symbol rest =>
        obtain rfl := begins symbol rfl
        simp
  · intro symbol member
    simpa using (sent.pair_clear symbol member).1

theorem returned_toString (cookie : Cookie) (text : Bytes) (encodes : cookie.encode = true)
    (plain : PlainName cookie.name) (written : cookie.toString = .ok text) :
    returned text = pair cookie.name cookie.value := by
  have sent := plain.sent cookie.value
  rw [returned_pair cookie text written (by rw [encodes]; exact sent), encodes]
  rfl

end Cookie

namespace Parser

open Cookie (PlainName Sent pair rawPair rawPair_ne_nil)

theorem urldecode_plain (name : Bytes) (plain : ∀ symbol ∈ name, symbol ≠ 37 ∧ symbol ≠ 43) :
    urldecode name = name := by
  induction name with
  | nil => rfl
  | cons symbol rest ih =>
      obtain ⟨percent, plus⟩ := plain symbol List.mem_cons_self
      rw [(StringUtils.head_plain symbol rest (Or.inl percent)).1, StringUtils.plainSymbol, if_neg plus,
        ih (fun other member => plain other (List.mem_cons_of_mem symbol member))]

theorem addCookie_rawPair (request : Request) (name text : Bytes) (sent : Sent name text) :
    addCookie request (rawPair name text) =
      { request with cookies := request.cookies.assign (urldecode name) (urldecode text) } := by
  have whole : Range.trim (rawPair name text) = rawPair name text := by
    apply Range.trim_eq_self
    · intro symbol first
      exact (sent.pair_clear symbol (List.mem_of_head? first)).2
    · intro symbol last
      exact (sent.pair_clear symbol (List.mem_of_getLast? last)).2
  have cut : Range.split (rawPair name text) [61] = (true, name, text) :=
    Range.split_symbol name 61 _ sent.unsplit
  have filled : name.isEmpty = false := by
    rw [List.isEmpty_eq_false_iff]
    exact sent.filled
  simp only [addCookie, whole, Range.splitChar_eq_split, cut, filled, Bool.false_eq_true, if_false]

def rawLine (pairs : List NamedValue) : Bytes :=
  (ascii "; ").intercalate (pairs.map (fun entry => rawPair entry.1 entry.2))

theorem rawLine_cons (entry : NamedValue) (rest : List NamedValue) (more : rest ≠ []) :
    rawLine (entry :: rest) = rawPair entry.1 entry.2 ++ (ascii "; " ++ rawLine rest) := by
  obtain ⟨next, others, rfl⟩ := List.exists_cons_of_ne_nil more
  simp [rawLine, List.intercalate]

theorem rawLine_single (entry : NamedValue) : rawLine [entry] = rawPair entry.1 entry.2 := by
  simp [rawLine]

theorem rawLine_head (pairs : List NamedValue) (sent : ∀ entry ∈ pairs, Sent entry.1 entry.2) :
    ∀ symbol ∈ (rawLine pairs).head?, isspace symbol = false := by
  intro symbol first
  cases pairs with
  | nil => cases first
  | cons entry rest =>
      apply fun member => ((sent entry List.mem_cons_self).pair_clear symbol member).2
      obtain ⟨start, others, begins⟩ := List.exists_cons_of_ne_nil (rawPair_ne_nil entry.1 entry.2)
      by_cases last : rest = []
      · rw [last, rawLine_single] at first
        exact List.mem_of_head? first
      · rw [rawLine_cons entry rest last, begins] at first
        rw [begins]
        exact List.mem_of_head? first

theorem rawLine_last (pairs : List NamedValue) (sent : ∀ entry ∈ pairs, Sent entry.1 entry.2) :
    ∀ symbol ∈ (rawLine pairs).getLast?, isspace symbol = false := by
  induction pairs with
  | nil =>
      intro symbol none
      cases none
  | cons entry rest ih =>
      intro symbol final
      by_cases last : rest = []
      · rw [last, rawLine_single] at final
        exact ((sent entry List.mem_cons_self).pair_clear symbol (List.mem_of_getLast? final)).2
      · have filled : rawLine rest ≠ [] := by
          obtain ⟨next, others, rfl⟩ := List.exists_cons_of_ne_nil last
          by_cases single : others = []
          · rw [single, rawLine_single]
            exact rawPair_ne_nil next.1 next.2
          · rw [rawLine_cons next others single]
            simp [rawPair]
        apply ih (fun other member => sent other (List.mem_cons_of_mem entry member)) symbol
        rw [rawLine_cons entry rest last, ← List.append_assoc,
          List.getLast?_append_of_ne_nil _ filled] at final
        exact final

theorem trim_rawLine (pairs : List NamedValue) (sent : ∀ entry ∈ pairs, Sent entry.1 entry.2) :
    Range.trim (rawLine pairs) = rawLine pairs :=
  Range.trim_eq_self _ (rawLine_head pairs sent) (rawLine_last pairs sent)

def assignAll (map : VarMap) (pairs : List NamedValue) : VarMap :=
  pairs.foldl (fun map entry => map.assign entry.1 entry.2) map

def decoded (entry : NamedValue) : NamedValue := (urldecode entry.1, urldecode entry.2)

theorem cookiesLoop_pair (fuel : Nat) (tmp tail : Bytes) (request : Request) (entry : NamedValue)
    (sent : Sent entry.1 entry.2) (filled : tmp ≠ [])
    (cut : ∃ found, Range.split tmp (ascii "; ") = (found, rawPair entry.1 entry.2, tail)) :
    cookiesLoop (fuel + 1) tmp request =
      cookiesLoop fuel (Range.trim tail)
        { request with cookies := request.cookies.assign (urldecode entry.1) (urldecode entry.2) } := by
  obtain ⟨found, cut⟩ := cut
  have present : tmp.isEmpty = false := by simpa using filled
  simp only [cookiesLoop, present, cut, addCookie_rawPair request entry.1 entry.2 sent,
    Bool.false_eq_true, if_false]

theorem cookiesLoop_rawLine (pairs : List NamedValue) (sent : ∀ entry ∈ pairs, Sent entry.1 entry.2)
    (fuel : Nat) (request : Request) (enough : (rawLine pairs).length ≤ fuel) :
    cookiesLoop fuel (rawLine pairs) request =
      { request with cookies := assignAll request.cookies (pairs.map decoded) } := by
  induction pairs generalizing fuel request with
  | nil =>
      cases fuel with
      | zero => rfl
      | succ fuel => rfl
  | cons entry rest ih =>
      have first : Sent entry.1 entry.2 := sent entry List.mem_cons_self
      have others : ∀ other ∈ rest, Sent other.1 other.2 :=
        fun other member => sent other (List.mem_cons_of_mem entry member)
      have whole : (59 : UInt8) ∉ rawPair entry.1 entry.2 :=
        fun member => (first.pair_clear 59 member).1 rfl
      have positive := List.length_pos_of_ne_nil (rawPair_ne_nil entry.1 entry.2)
      by_cases last : rest = []
      · subst last
        rw [rawLine_single] at enough ⊢
        obtain ⟨less, rfl⟩ := Nat.exists_eq_succ_of_ne_zero (Nat.pos_iff_ne_zero.mp (by omega : 0 < fuel))
        rw [cookiesLoop_pair less _ [] request entry first (rawPair_ne_nil _ _)
          ⟨false, Range.split_missing 59 [32] _ whole⟩]
        exact ih others less _ (Nat.zero_le _)
      · have cut : Range.split (rawPair entry.1 entry.2 ++ (ascii "; " ++ rawLine rest)) (ascii "; ") =
            (true, rawPair entry.1 entry.2, rawLine rest) := by
          apply Range.split_first _ _ _ (by decide)
          intro index inside
          exact Search.not_occurs_front 59 [32] _ _ whole index inside
        rw [rawLine_cons entry rest last] at enough ⊢
        rw [List.length_append, List.length_append] at enough
        obtain ⟨less, rfl⟩ := Nat.exists_eq_succ_of_ne_zero (Nat.pos_iff_ne_zero.mp (by omega : 0 < fuel))
        rw [cookiesLoop_pair less _ (rawLine rest) request entry first (by simp [rawPair]) ⟨true, cut⟩,
          trim_rawLine rest others, ih others less _ (by omega)]
        rfl

theorem parseCookies_rawLine (request : Request) (pairs : List NamedValue)
    (sent : ∀ entry ∈ pairs, Sent entry.1 entry.2) :
    parseCookies request (rawLine pairs) =
      { request with cookies := assignAll request.cookies (pairs.map decoded) } := by
  rw [parseCookies, trim_rawLine pairs sent]
  exact cookiesLoop_rawLine pairs sent _ request (le_refl _)

def encoded (entry : NamedValue) : NamedValue := (entry.1, urlencode entry.2)

theorem decoded_encoded (entry : NamedValue) (plain : PlainName entry.1) :
    decoded (encoded entry) = entry := by
  have kept : urldecode entry.1 = entry.1 := urldecode_plain entry.1 (fun symbol member =>
    ⟨(plain.plain symbol member).2.2.1, (plain.plain symbol member).2.2.2.1⟩)
  simp only [decoded, encoded, kept, StringUtils.urldecode_urlencode]

/-- Cookies as a client joins them when their values are encoded. -/
def cookieLine (pairs : List NamedValue) : Bytes :=
  (ascii "; ").intercalate (pairs.map (fun entry => pair entry.1 entry.2))

theorem parseCookies_cookieLine (request : Request) (pairs : List NamedValue)
    (plain : ∀ entry ∈ pairs, PlainName entry.1) :
    parseCookies request (cookieLine pairs) =
      { request with cookies := assignAll request.cookies pairs } := by
  have line : cookieLine pairs = rawLine (pairs.map encoded) := by
    rw [cookieLine, rawLine, List.map_map]
    rfl
  have sent : ∀ entry ∈ pairs.map encoded, Sent entry.1 entry.2 := by
    intro entry member
    obtain ⟨given, listed, rfl⟩ := List.mem_map.mp member
    exact (plain given listed).sent given.2
  have read : (pairs.map encoded).map decoded = pairs := by
    rw [List.map_map]
    calc pairs.map (decoded ∘ encoded)
        = pairs.map id :=
          List.map_congr_left (fun entry member => decoded_encoded entry (plain entry member))
      _ = pairs := List.map_id pairs
  rw [line, parseCookies_rawLine request _ sent, read]

theorem find?_assignAll (pairs : List NamedValue) (distinct : (pairs.map Prod.fst).Nodup) (map : VarMap)
    (name : Bytes) :
    (assignAll map pairs).find? name =
      ((pairs.find? (fun entry => entry.1 == name)).map Prod.snd).or (map.find? name) := by
  induction pairs generalizing map with
  | nil => rfl
  | cons entry rest ih =>
      obtain ⟨fresh, unique⟩ := List.nodup_cons.mp distinct
      have step : assignAll map (entry :: rest) = assignAll (map.assign entry.1 entry.2) rest := rfl
      rw [step, ih unique, find?_assign]
      by_cases same : entry.1 = name
      · have absent : rest.find? (fun other => other.1 == name) = none := by
          rw [List.find?_eq_none]
          intro other member equal
          apply fresh
          rw [same, ← beq_iff_eq.mp equal]
          exact List.mem_map_of_mem member
        rw [if_pos same, absent, List.find?_cons_of_pos (by simpa using same)]
        rfl
      · rw [if_neg same, List.find?_cons_of_neg (by simpa using same)]

end Parser

namespace Cookie

open FastcgiContainer.Parser (parseCookies cookieLine)

def returnedLine (texts : List Bytes) : Bytes := (ascii "; ").intercalate (texts.map returned)

theorem returnedLine_eq (cookies : List Cookie) (texts : List Bytes)
    (encodes : ∀ cookie ∈ cookies, cookie.encode = true) (plain : ∀ cookie ∈ cookies, PlainName cookie.name)
    (written : List.Forall₂ (fun cookie text => toString cookie = .ok text) cookies texts) :
    returnedLine texts = cookieLine (cookies.map (fun cookie => (cookie.name, cookie.value))) := by
  have pairs : texts.map returned = cookies.map (fun cookie => pair cookie.name cookie.value) := by
    induction written with
    | nil => rfl
    | @cons cookie text cookies texts here _ ih =>
        rw [List.map_cons, List.map_cons,
          returned_toString cookie text (encodes cookie (by simp)) (plain cookie (by simp)) here,
          ih (fun other member => encodes other (List.mem_cons_of_mem cookie member))
            (fun other member => plain other (List.mem_cons_of_mem cookie member))]
  rw [returnedLine, pairs, cookieLine, List.map_map]
  rfl

/-- A request without cookies gets those that the client returns, each with the value that
was sent, and no others. -/
theorem encoded_cookies_return (cookies : List Cookie) (texts : List Bytes) (request : Request)
    (distinct : (cookies.map Cookie.name).Nodup) (plain : ∀ cookie ∈ cookies, PlainName cookie.name)
    (encodes : ∀ cookie ∈ cookies, cookie.encode = true)
    (written : List.Forall₂ (fun cookie text => toString cookie = .ok text) cookies texts)
    (without : request.cookies = .empty) :
    ∃ map, parseCookies request (returnedLine texts) = { request with cookies := map } ∧
      ∀ name, map.find? name = (cookies.find? (fun cookie => cookie.name == name)).map Cookie.value := by
  have named : ∀ entry ∈ cookies.map (fun cookie => (cookie.name, cookie.value)), PlainName entry.1 := by
    intro entry member
    obtain ⟨cookie, listed, rfl⟩ := List.mem_map.mp member
    exact plain cookie listed
  refine ⟨Parser.assignAll request.cookies (cookies.map (fun cookie => (cookie.name, cookie.value))), ?_, ?_⟩
  · rw [returnedLine_eq cookies texts encodes plain written]
    exact Parser.parseCookies_cookieLine request _ named
  · intro name
    rw [Parser.find?_assignAll _ (by simpa [List.map_map, Function.comp_def] using distinct), without,
      List.find?_map, Option.map_map]
    exact Option.or_none

theorem encoded_cookies_return_two :
    ∃ map, parseCookies Request.fresh (ascii "a=%3B%20; b=") = { Request.fresh with cookies := map } ∧
      map.find? [97] = some [59, 32] ∧ map.find? [98] = some [] ∧ map.find? [99] = none := by
  let cookies : List Cookie :=
    [{ create [97] [59, 32] with encode := true }, { create [98] [] with encode := true }]
  let texts : List Bytes := [ascii "a=%3B%20; path=/", ascii "b=; path=/"]
  obtain ⟨map, done, contents⟩ := encoded_cookies_return cookies texts Request.fresh (by decide)
    (by
      intro cookie member
      simp only [cookies, List.mem_cons, List.not_mem_nil, or_false] at member
      rcases member with rfl | rfl
      · exact ⟨by decide +kernel, by decide +kernel⟩
      · exact ⟨by decide +kernel, by decide +kernel⟩)
    (by decide) (.cons (by decide +kernel) (.cons (by decide +kernel) .nil)) rfl
  refine ⟨map, ?_, contents [97], contents [98], contents [99]⟩
  have line : returnedLine texts = ascii "a=%3B%20; b=" := by decide +kernel
  rw [← line]
  exact done

end Cookie

end FastcgiContainer
