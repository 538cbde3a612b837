import FastcgiContainer.Lines
import FastcgiContainer.HeadResponse
import FastcgiContainer.CookieRoundTrip

/-! The lines of a header block: no setter of a request looks at what it is given, so that a
line break in a name, a value, a path or a field of a cookie ends a line of the block. -/

namespace FastcgiContainer

open Word (Bytes)

/-- A text without a line break, which is a CR followed by an LF. -/
abbrev OneLine (text : Bytes) : Prop := Lines.Plain 13 10 text

theorem decimal_return (value : Nat) : (13 : UInt8) ∉ decimal value := by
  intro member
  obtain ⟨digit, inside, code⟩ := List.mem_map.mp member
  have listed : digit ∈ Nat.toDigits 10 value := by simpa [toString, Nat.repr] using inside
  have shown := Nat.isDigit_of_mem_toDigits (by decide) (by decide) listed
  simp only [Char.isDigit, Bool.and_eq_true, decide_eq_true_eq] at shown
  have low : 48 ≤ digit.toNat := by simpa [UInt32.le_iff_toNat_le] using shown.1
  have high : digit.toNat ≤ 57 := by simpa [UInt32.le_iff_toNat_le] using shown.2
  have number := congrArg UInt8.toNat code
  rw [UInt8.toNat_ofNat'] at number
  have return13 : (13 : UInt8).toNat = 13 := rfl
  omega

namespace HttpDateUtils

theorem names_return (names : List Bytes) (plain : ∀ name ∈ names, (13 : UInt8) ∉ name) (index : Nat) :
    (13 : UInt8) ∉ names.getD index [] := by
  rw [List.getD_eq_getElem?_getD]
  cases found : names[index]? with
  | none => simp
  | some name => exact plain name (List.mem_of_getElem? found)

theorem strftime_return (ts : Tm) : (13 : UInt8) ∉ strftime ts := by
  have day := names_return dayNames (by decide +kernel) ts.weekday
  have month := names_return monthNames (by decide +kernel) (ts.month - 1)
  have digits : ∀ value, (13 : UInt8) ∉ twoDigits value := by
    intro value
    have plain := decimal_return value
    unfold twoDigits
    split
    · simpa using plain
    · exact plain
  have year : (13 : UInt8) ∉ yearDigits ts.year := by
    have plain := decimal_return ts.year.natAbs
    unfold yearDigits
    split
    · simpa using plain
    · exact plain
  have comma : (13 : UInt8) ∉ ascii ", " := by decide
  have space : (13 : UInt8) ∉ ascii " " := by decide
  have colon : (13 : UInt8) ∉ ascii ":" := by decide
  have zone : (13 : UInt8) ∉ ascii " GMT" := by decide
  simp only [strftime, List.mem_append, not_or]
  exact ⟨⟨⟨⟨⟨⟨⟨⟨⟨⟨⟨⟨⟨day, comma⟩, digits _⟩, space⟩, month⟩, space⟩, year⟩, space⟩, digits _⟩, colon⟩,
    digits _⟩, colon⟩, digits _⟩, zone⟩

theorem format_return {value : Int} {text : Bytes} (formatted : format value = .ok text) :
    (13 : UInt8) ∉ text := by
  unfold format at formatted
  split at formatted
  · next ts _ =>
      rw [← Except.ok.inj formatted]
      exact strftime_return ts
  · cases formatted

end HttpDateUtils

theorem oneLine_label {label : Bytes} (plain : OneLine label) (last : label.getLast? ≠ some 13)
    (text : Bytes) : OneLine (label ++ text) ↔ OneLine text := by
  rw [OneLine, Lines.plain_append 13 10 (Or.inl last)]
  exact and_iff_right plain

namespace Cookie

/-- No field of the cookie that its text shows as it is holds a line break. -/
structure OneLined (cookie : Cookie) : Prop where
  name : OneLine cookie.name
  value : cookie.encode = true ∨ OneLine cookie.value
  domain : OneLine cookie.domain
  path : OneLine cookie.path

theorem oneLine_attributes {front back : Bytes} (begins : Attributes back) :
    OneLine (front ++ back) ↔ OneLine front ∧ OneLine back := by
  apply Lines.plain_append
  apply Or.inr
  intro first
  have semicolon := begins 10 first
  cases semicolon

theorem oneLine_option {text label : Bytes} (plain : OneLine label) (last : label.getLast? ≠ some 13) :
    OneLine (if text.isEmpty then [] else label ++ text) ↔ OneLine text := by
  cases text with
  | nil => simp
  | cons first rest => exact oneLine_label plain last (first :: rest)

theorem oneLine_expires (cookie : Cookie) (text : Bytes) (written : cookie.expiresText = .ok text) :
    OneLine text := by
  unfold expiresText at written
  split at written
  · cases written
    exact List.isChain_nil
  · obtain ⟨date, formatted, shape⟩ := bind_eq_ok _ _ _ written
    have label : (13 : UInt8) ∉ ascii "; expires=" := by decide
    have digits := HttpDateUtils.format_return formatted
    rw [← Except.ok.inj shape]
    apply Lines.plain_of_absent
    rw [List.mem_append, not_or]
    exact ⟨label, digits⟩

theorem urlencode_oneLine (value : Bytes) : OneLine (StringUtils.urlencode value) := by
  apply Lines.plain_of_absent
  intro member
  have safe := StringUtils.encoded_plain 13 (StringUtils.urlencode_encoded value 13 member)
  exact absurd safe.2.2.2 (by decide)

theorem toString_oneLine (cookie : Cookie) (text : Bytes) (written : cookie.toString = .ok text) :
    OneLine text ↔ cookie.OneLined := by
  unfold toString at written
  obtain ⟨expires, dated, shape⟩ := bind_eq_ok _ _ _ written
  have same := Except.ok.inj shape
  have date := oneLine_expires cookie expires dated
  have secure : OneLine (if cookie.secure then ascii "; secure" else []) := by split <;> decide
  have httpOnly : OneLine (if cookie.httpOnly then ascii "; HttpOnly" else []) := by split <;> decide
  have domain : OneLine (if cookie.domain.isEmpty then [] else ascii "; domain=" ++ cookie.domain) ↔
      OneLine cookie.domain := oneLine_option (by decide) (by decide)
  have path : OneLine (if cookie.path.isEmpty then [] else ascii "; path=" ++ cookie.path) ↔
      OneLine cookie.path := oneLine_option (by decide) (by decide)
  have name : OneLine (cookie.name ++ [61]) ↔ OneLine cookie.name := by
    rw [OneLine, Lines.plain_append 13 10 (Or.inr (by decide))]
    exact and_iff_left (List.isChain_singleton 61)
  have value : OneLine (if cookie.encode then StringUtils.urlencode cookie.value else cookie.value) ↔
      (cookie.encode = true ∨ OneLine cookie.value) := by
    cases cookie.encode with
    | false => simp
    | true => simpa using urlencode_oneLine cookie.value
  have pair : OneLine (cookie.name ++ [61] ++
      (if cookie.encode then StringUtils.urlencode cookie.value else cookie.value)) ↔
      OneLine cookie.name ∧ (cookie.encode = true ∨ OneLine cookie.value) := by
    rw [OneLine, Lines.plain_append 13 10 (Or.inl (by simp))]
    exact and_congr name value
  rw [← same, oneLine_attributes cookie.attributes_httpOnly, oneLine_attributes cookie.attributes_secure,
    oneLine_attributes (attributes_expiresText cookie expires dated),
    oneLine_attributes cookie.attributes_path, oneLine_attributes cookie.attributes_domain, pair, domain,
    path]
  constructor
  · rintro ⟨⟨⟨⟨⟨⟨named, valued⟩, domained⟩, pathed⟩, _⟩, _⟩, _⟩
    exact ⟨named, valued, domained, pathed⟩
  · intro fields
    exact ⟨⟨⟨⟨⟨⟨fields.name, fields.value⟩, fields.domain⟩, fields.path⟩, date⟩, secure⟩, httpOnly⟩

end Cookie

theorem lowered_break : ∀ symbol : UInt8,
    ((tolower symbol).toInt8.toInt = 13 ↔ symbol = 13) ∧
      ((tolower symbol).toInt8.toInt = 10 ↔ symbol = 10) :=
  StringUtils.forall_byte (by decide +kernel)

theorem oneLine_lowered (text : Bytes) : OneLine text ↔
    (text.map (fun symbol => (tolower symbol).toInt8.toInt)).IsChain
      (fun left right => ¬ (left = 13 ∧ right = 10)) := by
  rw [List.isChain_map]
  unfold OneLine Lines.Plain
  have same : ∀ left right : UInt8, ¬ (left = 13 ∧ right = 10) ↔
      ¬ ((tolower left).toInt8.toInt = 13 ∧ (tolower right).toInt8.toInt = 10) := by
    intro left right
    rw [(lowered_break left).1, (lowered_break right).2]
  simp only [same]

theorem oneLine_equivalent {left right : Bytes}
    (same : OrderedMap.equivalent stringCILess left right = true) : OneLine left ↔ OneLine right := by
  rw [stringCILess_equivalent_iff] at same
  rw [oneLine_lowered, oneLine_lowered, same]

namespace Parser

theorem statusToString_return (status : Nat) : (13 : UInt8) ∉ statusToString status := by
  unfold statusToString
  split <;> decide

end Parser

namespace Exchange

theorem oneLine_statusLine (status : Nat) : OneLine (statusLine status) := by
  have digits := decimal_return status
  have words := Parser.statusToString_return status
  apply Lines.plain_of_absent
  simp only [statusLine, List.mem_append, List.mem_singleton, not_or]
  exact ⟨⟨digits, by decide⟩, words⟩

def headerText (header : Bytes × Bytes) : Bytes := header.1 ++ ascii ": " ++ header.2

def cookieText (text : Bytes) : Bytes := ascii "Set-Cookie: " ++ text

theorem oneLine_headerText (header : Bytes × Bytes) :
    OneLine (headerText header) ↔ OneLine header.1 ∧ OneLine header.2 := by
  have colon : OneLine (header.1 ++ ascii ": ") ↔ OneLine header.1 := by
    rw [OneLine, Lines.plain_append 13 10 (Or.inr (by decide))]
    exact and_iff_left (by decide)
  rw [headerText, OneLine, Lines.plain_append 13 10 (Or.inl (by simp [ascii]))]
  exact and_congr colon Iff.rfl

theorem block_joined (headers : List (Bytes × Bytes)) (texts : List Bytes) :
    headers.flatMap headerLine ++ texts.flatMap cookieLine ++ crlf =
      Lines.joined 13 10 (headers.map headerText ++ texts.map cookieText) ++ [13, 10] := by
  have header : headerLine = fun entry => headerText entry ++ [13, 10] := rfl
  have cookie : cookieLine = fun text => cookieText text ++ [13, 10] := rfl
  rw [Lines.joined, List.flatMap_append, List.flatMap_map, List.flatMap_map, header, cookie]
  rfl

/-- A header block is framed when it has one line for each header and each cookie. -/
def BlockFramed (state : Exchange) : Prop :=
  Lines.Framed 13 10 (state.request.outHeaders.entries.length + state.request.outCookies.entries.length)
    state.output

def BlockLines (state : Exchange) : Prop :=
  ∃ texts : List Bytes,
    state.request.outCookies.entries.map (fun entry => entry.2.toString) = texts.map Except.ok ∧
    Lines.lines 13 10 state.output =
      state.request.outHeaders.entries.map headerText ++ texts.map cookieText ++ [[], []]

structure OneLined (request : Request) : Prop where
  headers : ∀ header ∈ (withStatus request).outHeaders.entries, OneLine header.1 ∧ OneLine header.2
  cookies : ∀ entry ∈ request.outCookies.entries, entry.2.Formattable ∧ entry.2.OneLined

section Sent

variable (request : Request) (unsent : request.headersSent = false)

include unsent

theorem sendHeaders_texts (dated : ∀ entry ∈ request.outCookies.entries, entry.2.Formattable) :
    ∃ texts : List Bytes,
      request.outCookies.entries.map (fun entry => entry.2.toString) = texts.map Except.ok ∧
      (sendHeaders ⟨request, []⟩).1 = ⟨{ withStatus request with headersSent := true },
        Lines.joined 13 10 ((withStatus request).outHeaders.entries.map headerText ++
          texts.map cookieText) ++ [13, 10]⟩ := by
  obtain ⟨sent, names, texts, done⟩ := sendCookies_eq (request.outCookies.entries.map Prod.snd)
    ((withStatus request).outHeaders.entries.flatMap headerLine) (by
      intro cookie member
      obtain ⟨entry, listed, rfl⟩ := List.mem_map.mp member
      exact dated entry listed)
  refine ⟨sent.map Prod.snd, ?_, ?_⟩
  · have cookies : request.outCookies.entries.map (fun entry => entry.2.toString) =
        (sent.map Prod.fst).map Cookie.toString := by
      rw [names, List.map_map]
      rfl
    rw [cookies, List.map_map, List.map_map]
    exact List.map_congr_left texts
  · have same : (withStatus request).outCookies = request.outCookies := rfl
    have listed : sent.flatMap (fun entry => cookieLine entry.2) = (sent.map Prod.snd).flatMap cookieLine := by
      rw [List.flatMap_map]
    rw [← block_joined, ← listed]
    simp [sendHeaders, sendHeadersInternal, unsent, same, done]

omit unsent in
theorem texts_oneLine (texts : List Bytes)
    (written : request.outCookies.entries.map (fun entry => entry.2.toString) = texts.map Except.ok) :
    (∀ text ∈ (withStatus request).outHeaders.entries.map headerText ++ texts.map cookieText, OneLine text) ↔
      (∀ header ∈ (withStatus request).outHeaders.entries, OneLine header.1 ∧ OneLine header.2) ∧
        ∀ entry ∈ request.outCookies.entries, entry.2.OneLined := by
  have label : ∀ text, OneLine (cookieText text) ↔ OneLine text :=
    oneLine_label (by decide) (by decide)
  rw [List.forall_mem_append]
  apply and_congr
  · simp only [List.forall_mem_map, oneLine_headerText]
  · simp only [List.forall_mem_map, label]
    constructor
    · intro plain entry member
      have shown : entry.2.toString ∈ texts.map Except.ok := written ▸ List.mem_map_of_mem member
      obtain ⟨text, listed, same⟩ := List.mem_map.mp shown
      exact (entry.2.toString_oneLine text same.symm).mp (plain text listed)
    · intro plain text member
      have shown : Except.ok text ∈ request.outCookies.entries.map (fun entry => entry.2.toString) :=
        written ▸ List.mem_map_of_mem member
      obtain ⟨entry, listed, same⟩ := List.mem_map.mp shown
      exact (entry.2.toString_oneLine text same).mpr (plain entry listed)

theorem sendHeaders_framed_iff :
    (sendHeaders ⟨request, []⟩).1.BlockFramed ↔ OneLined request := by
  by_cases dated : ∀ entry ∈ request.outCookies.entries, entry.2.Formattable
  · obtain ⟨texts, written, sent⟩ := sendHeaders_texts request unsent dated
    have amount : request.outCookies.entries.length = texts.length := by
      simpa using congrArg List.length written
    have filled : ∀ text ∈ (withStatus request).outHeaders.entries.map headerText ++
        texts.map cookieText, text ≠ [] := by
      intro text member
      rcases List.mem_append.mp member with header | cookie
      · obtain ⟨entry, _, rfl⟩ := List.mem_map.mp header
        simp [headerText, ascii]
      · obtain ⟨cookie, _, rfl⟩ := List.mem_map.mp cookie
        simp [cookieText, ascii]
    have framed := Lines.framed_iff 13 10 (by decide) _ filled
    rw [texts_oneLine request texts written, List.length_append, List.length_map, List.length_map,
      ← amount] at framed
    have counted : (withStatus request).outCookies = request.outCookies := rfl
    rw [sent, BlockFramed]
    dsimp only
    rw [counted, framed]
    constructor
    · exact fun plain => ⟨plain.1, fun entry member => ⟨dated entry member, plain.2 entry member⟩⟩
    · exact fun plain => ⟨plain.headers, fun entry member => (plain.cookies entry member).2⟩
  · obtain ⟨exn, _, last⟩ := sendHeadersInternal_last ⟨request, []⟩ unsent dated
    have broken := Lines.not_framed 13 10 last (by decide)
    constructor
    · exact fun framed => absurd framed (broken _)
    · exact fun plain => absurd (fun entry member => (plain.cookies entry member).1) dated

theorem sendHeaders_lines (plain : OneLined request) : (sendHeaders ⟨request, []⟩).1.BlockLines := by
  obtain ⟨texts, written, sent⟩ := sendHeaders_texts request unsent
    (fun entry member => (plain.cookies entry member).1)
  have lined := (texts_oneLine request texts written).mpr
    ⟨plain.headers, fun entry member => (plain.cookies entry member).2⟩
  have ending : Lines.lines (13 : UInt8) 10 [13, 10] = [[], []] := by decide
  refine ⟨texts, ?_, ?_⟩
  · rw [sent]
    exact written
  · rw [sent]
    dsimp only
    rw [Lines.lines_joined 13 10 (by decide), Lines.flatMap_lines_plain 13 10 lined, ending]

end Sent

end Exchange

inductive HeaderCall where
  | setHeader (name value : Bytes)
  | setCookie (cookie : Cookie)
  | redirectToPath (path : Bytes)
  | setContentType (type : Bytes)

def HeaderCall.perform (request : Request) : HeaderCall → Except Exn Request
  | .setHeader name value => request.setHeader name value
  | .setCookie cookie => request.setCookie cookie
  | .redirectToPath path => request.redirectToPath path
  | .setContentType type => request.setContentType type

namespace Draft

def perform (draft : Draft) : HeaderCall → Draft
  | .setHeader name value => draft.setHeader name value
  | .setCookie cookie => draft.setCookie cookie
  | .redirectToPath path => { draft with status := 302 }.setHeader (ascii "Location") path
  | .setContentType type => draft.setHeader (ascii "Content-type") type

/-- No name of a header and no text that is still queued holds a line break; the text of the
status replaces what was set for it, and only the last value set for a name is queued. -/
structure OneLined (draft : Draft) : Prop where
  names : ∀ header ∈ draft.headers, OneLine header.1
  values : ∀ name value, draft.lastHeader name = some value →
    OrderedMap.equivalent stringCILess (ascii "Status") name = false → OneLine value
  cookies : ∀ cookie, draft.lastCookie cookie.name = some cookie → cookie.Formattable ∧ cookie.OneLined

theorem lastHeader_mem (draft : Draft) (name value : Bytes) (last : draft.lastHeader name = some value) :
    ∃ header ∈ draft.headers, OrderedMap.equivalent stringCILess header.1 name = true := by
  obtain ⟨header, found, _⟩ := Option.map_eq_some_iff.mp last
  have same := List.find?_some found
  exact ⟨header, List.mem_reverse.mp (List.mem_of_find?_eq_some found), same⟩

theorem lastHeader_isSome (draft : Draft) (header : Bytes × Bytes) (member : header ∈ draft.headers) :
    ∃ value, draft.lastHeader header.1 = some value := by
  have itself : OrderedMap.equivalent stringCILess header.1 header.1 = true :=
    (stringCILess_equivalent_iff header.1 header.1).mpr rfl
  rw [← Option.isSome_iff_exists, lastHeader, Option.isSome_map, List.find?_isSome]
  exact ⟨header, List.mem_reverse.mpr member, itself⟩

end Draft

namespace Exchange

theorem queued_oneLined_iff (draft : Draft) (request : Request) (queued : Queued draft request) :
    OneLined request ↔ draft.OneLined := by
  have shown := queued.withStatus
  have listed := (cookies_differ draft request queued).2
  constructor
  · intro plain
    refine ⟨?_, ?_, ?_⟩
    · intro header member
      obtain ⟨last, found⟩ := draft.lastHeader_isSome header member
      have some : ∃ value, (withStatus request).outHeaders.find? header.1 = some value := by
        rw [shown]
        split
        · exact ⟨_, rfl⟩
        · exact ⟨last, found⟩
      obtain ⟨value, present⟩ := some
      obtain ⟨entry, inside, same, _⟩ := OrderedMap.entry_of_find? _ _ _ present
      exact (oneLine_equivalent same).mp (plain.headers entry inside).1
    · intro name value last other
      have present := shown name
      rw [other, if_neg Bool.false_ne_true, last] at present
      obtain ⟨entry, inside, _, rfl⟩ := OrderedMap.entry_of_find? _ _ _ present
      exact (plain.headers entry inside).2
    · intro cookie last
      obtain ⟨entry, inside, rfl⟩ := List.mem_map.mp ((listed cookie).mpr last)
      exact plain.cookies entry inside
  · intro plain
    refine ⟨?_, ?_⟩
    · intro entry member
      have present := shown entry.1
      rw [OrderedMap.find?_entry _ entry member] at present
      by_cases status : OrderedMap.equivalent stringCILess (ascii "Status") entry.1 = true
      · rw [if_pos status] at present
        have value := Option.some.inj present
        have name : OneLine (ascii "Status") := by decide
        exact ⟨(oneLine_equivalent status).mp name, value ▸ oneLine_statusLine draft.status⟩
      · rw [if_neg status] at present
        obtain ⟨header, queuedHeader, same⟩ := draft.lastHeader_mem entry.1 entry.2 present.symm
        have name := plain.names header queuedHeader
        exact ⟨(oneLine_equivalent same).mp name,
          plain.values entry.1 entry.2 present.symm (by simpa using status)⟩
    · intro entry member
      exact plain.cookies entry.2 ((listed entry.2).mp (List.mem_map_of_mem member))

theorem perform_queued (draft : Draft) (request next : Request) (queued : Queued draft request)
    (unsent : request.headersSent = false) (call : HeaderCall)
    (accepted : call.perform request = .ok next) :
    next.headersSent = false ∧ Queued (draft.perform call) next := by
  cases call with
  | setHeader name value =>
      rw [HeaderCall.perform, request.setHeader_unsent unsent] at accepted
      cases accepted
      exact ⟨unsent, queued_setHeader draft request queued name value⟩
  | setCookie cookie =>
      rw [HeaderCall.perform, request.setCookie_unsent unsent] at accepted
      cases accepted
      exact ⟨unsent, queued_setCookie draft request queued cookie⟩
  | redirectToPath path =>
      rw [HeaderCall.perform, request.redirectToPath_unsent unsent] at accepted
      cases accepted
      have moved := queued_setStatus draft request queued 302
      exact ⟨unsent, queued_setHeader _ _ moved (ascii "Location") path⟩
  | setContentType type =>
      rw [HeaderCall.perform, Request.setContentType, request.setHeader_unsent unsent] at accepted
      cases accepted
      exact ⟨unsent, queued_setHeader draft request queued (ascii "Content-type") type⟩

theorem calls_queued (calls : List HeaderCall) (draft : Draft) (request next : Request)
    (queued : Queued draft request) (unsent : request.headersSent = false)
    (accepted : calls.foldlM HeaderCall.perform request = .ok next) :
    next.headersSent = false ∧ Queued (calls.foldl Draft.perform draft) next := by
  induction calls generalizing draft request with
  | nil =>
      cases accepted
      exact ⟨unsent, queued⟩
  | cons call rest ih =>
      rw [List.foldlM_cons] at accepted
      obtain ⟨middle, performed, later⟩ := bind_eq_ok _ _ _ accepted
      have stepped := perform_queued draft request middle queued unsent call performed
      exact ih (draft.perform call) middle stepped.2 stepped.1 later

/-- Whatever calls are accepted, the block has one line for each header and each cookie exactly
when nothing that they leave queued holds a line break; its lines are then those texts. -/
theorem header_lines_iff (request : Request) (unanswered : Unanswered request) (calls : List HeaderCall)
    (next : Request) (accepted : calls.foldlM HeaderCall.perform request = .ok next) :
    let sent := (sendHeaders ⟨next, []⟩).1
    let draft := calls.foldl Draft.perform ⟨request.status, [], []⟩
    (sent.BlockFramed ↔ draft.OneLined) ∧ (draft.OneLined → sent.BlockLines) := by
  intro sent draft
  have refines := unanswered.refines
  obtain ⟨unsent, queued⟩ := calls_queued calls _ request next refines.2.2 unanswered.unsent accepted
  have lined := queued_oneLined_iff draft next queued
  constructor
  · rw [← lined]
    exact sendHeaders_framed_iff next unsent
  · intro plain
    exact sendHeaders_lines next unsent (lined.mpr plain)

def plainCalls : List HeaderCall :=
  [.setHeader (ascii " x-one") (ascii "1"), .setContentType (ascii "text/plain"),
    .setCookie (Cookie.create (ascii "SID") (ascii "7")), .setHeader (ascii "X-ONE") (ascii "2")]

theorem header_lines_iff_plain :
    ∃ next, plainCalls.foldlM HeaderCall.perform Request.fresh = .ok next ∧
      (sendHeaders ⟨next, []⟩).1.output =
        ascii "Content-Type: text/plain\r\nStatus: 200 OK\r\nX-One: 2\r\nSet-Cookie: SID=7; path=/\r\n\r\n" ∧
      (plainCalls.foldl Draft.perform ⟨200, [], []⟩).OneLined := by
  refine ⟨_, rfl, by decide +kernel, ?_⟩
  apply (header_lines_iff Request.fresh ⟨rfl, rfl, rfl⟩ plainCalls _ rfl).1.mp
  exact ⟨[ascii "Content-Type: text/plain", ascii "Status: 200 OK", ascii "X-One: 2",
    ascii "Set-Cookie: SID=7; path=/"], by decide +kernel, by decide +kernel, by decide +kernel⟩

/-- A path with a line break adds a field to the block. -/
theorem redirect_adds_line :
    ∃ next, [HeaderCall.redirectToPath (ascii "/a\r\nSet-Cookie: SID=7")].foldlM HeaderCall.perform
        Request.fresh = .ok next ∧
      (sendHeaders ⟨next, []⟩).1.output =
        ascii "Location: /a\r\nSet-Cookie: SID=7\r\nStatus: 302 Moved Temporarily\r\n\r\n" ∧
      ¬ (sendHeaders ⟨next, []⟩).1.BlockFramed := by
  refine ⟨_, rfl, by decide +kernel, ?_⟩
  intro framed
  exact absurd framed.length_eq (by decide +kernel)

end Exchange

end FastcgiContainer
