import FastcgiContainer.Request

/-! The response side of a request: the status, headers and cookies that are
queued for the client, and the stream they are written to. Writes to the stream succeed: that the
connection breaks, and `FastcgiRequest::write` throws, is left out. -/

namespace FastcgiContainer

open Word (Bytes)

def crlf : Bytes := [13, 10]

def decimal (value : Nat) : Bytes := ascii (toString value)

namespace HttpDateUtils

/-- The fields of `struct tm` that a date in a header shows; `year` is the year of
the calendar, not its distance from 1900. -/
structure Tm where
  year : Int
  month : Nat
  day : Nat
  hour : Nat
  minute : Nat
  second : Nat
  weekday : Nat
  deriving DecidableEq, Repr

/-- The Gregorian calendar: years are counted from March, in eras of 400 years. -/
def civil (days : Int) : Int × Nat × Nat :=
  let shifted := days + 719468
  let era := shifted / 146097
  let dayOfEra := (shifted % 146097).toNat
  let yearOfEra := (dayOfEra - dayOfEra / 1460 + dayOfEra / 36524 - dayOfEra / 146096) / 365
  let dayOfYear := dayOfEra - (365 * yearOfEra + yearOfEra / 4 - yearOfEra / 100)
  let shiftedMonth := (5 * dayOfYear + 2) / 153
  let day := dayOfYear - (153 * shiftedMonth + 2) / 5 + 1
  let month := if shiftedMonth < 10 then shiftedMonth + 3 else shiftedMonth - 9
  (yearOfEra + era * 400 + (if month ≤ 2 then 1 else 0), month, day)

def year (value : Int) : Int := (civil (value / 86400)).1

/-- The member `tm_year` is an `int`. -/
def yearFits (value : Int) : Prop := -(2 : Int) ^ 31 ≤ year value - 1900 ∧ year value - 1900 < 2 ^ 31

instance (value : Int) : Decidable (yearFits value) := inferInstanceAs (Decidable (_ ∧ _))

def gmtime (value : Int) : Option Tm :=
  if yearFits value then
    let days := value / 86400
    let seconds := (value % 86400).toNat
    let (year, month, day) := civil days
    some ⟨year, month, day, seconds / 3600, seconds / 60 % 60, seconds % 60,
      ((days + 4) % 7).toNat⟩
  else none

def dayNames : List Bytes := ["Sun", "Mon", "Tue", "Wed", "Thu", "Fri", "Sat"].map ascii

def monthNames : List Bytes :=
  ["Jan", "Feb", "Mar", "Apr", "May", "Jun", "Jul", "Aug", "Sep", "Oct", "Nov", "Dec"].map ascii

def twoDigits (value : Nat) : Bytes := if value < 10 then 48 :: decimal value else decimal value

def yearDigits (value : Int) : Bytes :=
  if value < 0 then 45 :: decimal value.natAbs else decimal value.natAbs

/-- The format `%a, %d %b %Y %T GMT`. The years 2147483648 to 2147485547, which `tm_year` holds but an `int`
does not, are written as they are; glibc lets their number wrap. -/
def strftime (ts : Tm) : Bytes :=
  dayNames.getD ts.weekday [] ++ ascii ", " ++ twoDigits ts.day ++ ascii " " ++
    monthNames.getD (ts.month - 1) [] ++ ascii " " ++ yearDigits ts.year ++ ascii " " ++
    twoDigits ts.hour ++ ascii ":" ++ twoDigits ts.minute ++ ascii ":" ++ twoDigits ts.second ++
    ascii " GMT"

def format (value : Int) : Except Exn Bytes :=
  match gmtime value with
  | some ts => .ok (strftime ts)
  | none => .error (.runtimeError "failed to format date")

theorem format_eq (value : Int) (fits : yearFits value) : ∃ text, format value = .ok text := by
  simp [format, gmtime, fits]

example : format 784111777 = .ok (ascii "Sun, 06 Nov 1994 08:49:37 GMT") := by decide +kernel

end HttpDateUtils

namespace Cookie

/-- The expiry is left out of the cookie when it is zero. -/
def expiresText (cookie : Cookie) : Except Exn Bytes :=
  if cookie.expires = 0 then .ok []
  else do
    let date ← HttpDateUtils.format cookie.expires
    .ok (ascii "; expires=" ++ date)

def toString (cookie : Cookie) : Except Exn Bytes := do
  let expires ← cookie.expiresText
  .ok (cookie.name ++ [61] ++
    (if cookie.encode then StringUtils.urlencode cookie.value else cookie.value) ++
    (if cookie.domain.isEmpty then [] else ascii "; domain=" ++ cookie.domain) ++
    (if cookie.path.isEmpty then [] else ascii "; path=" ++ cookie.path) ++
    expires ++
    (if cookie.secure then ascii "; secure" else []) ++
    (if cookie.httpOnly then ascii "; HttpOnly" else []))

/-- The cookies whose expiry is left out or is a date that the C library can break down. -/
def Formattable (cookie : Cookie) : Prop :=
  cookie.expires = 0 ∨ HttpDateUtils.yearFits cookie.expires

instance (cookie : Cookie) : Decidable cookie.Formattable := inferInstanceAs (Decidable (_ ∨ _))

theorem toString_eq (cookie : Cookie) (dated : cookie.Formattable) :
    ∃ text, cookie.toString = .ok text := by
  have written : ∃ text, cookie.expiresText = .ok text := by
    unfold expiresText
    split
    · exact ⟨_, rfl⟩
    · next timed =>
        obtain ⟨date, formatted⟩ := HttpDateUtils.format_eq _ (dated.resolve_left timed)
        rw [formatted]
        exact ⟨_, rfl⟩
  obtain ⟨text, written⟩ := written
  unfold toString
  rw [written]
  exact ⟨_, rfl⟩

theorem toString_error (cookie : Cookie) (undated : ¬ cookie.Formattable) :
    cookie.toString = .error (.runtimeError "failed to format date") := by
  have timed := fun zero => undated (Or.inl zero)
  have early := fun fits => undated (Or.inr fits)
  simp only [toString, expiresText, HttpDateUtils.format, HttpDateUtils.gmtime, if_neg timed,
    if_neg early]
  rfl

end Cookie

namespace Parser

/-- The parameter of the source is a `short`; a larger status arrives as a negative
number, which no case names. -/
def statusToString (status : Nat) : Bytes :=
  ascii (match status with
    | 200 => "OK"
    | 201 => "Created"
    | 202 => "Accepted"
    | 203 => "Partial Information"
    | 204 => "No Response"
    | 301 => "Moved"
    | 302 => "Moved Temporarily"
    | 303 => "Method"
    | 304 => "Not Modified"
    | 400 => "Bad request"
    | 401 => "Unauthorized"
    | 402 => "PaymentRequired"
    | 403 => "Forbidden"
    | 404 => "Not found"
    | 405 => "Method not allowed"
    | 500 => "Internal Error"
    | 501 => "Not implemented"
    | 502 => "Bad Gateway"
    | 503 => "Service Unavailable"
    | _ => "Unknown status")

/-- The loop of `normalizeOutputHeaderName`; a turn consumes at least one symbol. -/
def normalizeOutputLoop : Nat → Bytes → Bytes → Bytes
  | 0, _, res => res
  | fuel + 1, range, res =>
      if range.isEmpty then res
      else
        let (_, head, tail) := Range.splitChar range 45
        let res := match head with
          | [] => res
          | first :: others => res ++ (toupper first :: others)
        let range := Range.trim tail
        normalizeOutputLoop fuel range (if range.isEmpty then res else res ++ [45])

def normalizeOutputHeaderName (name : Bytes) : Bytes :=
  let range := Range.trim name
  normalizeOutputLoop range.length range []

example : normalizeOutputHeaderName (ascii " content- type-") = ascii "Content-Type" := by decide +kernel

end Parser

structure Exchange where
  request : Request
  output : Bytes

namespace Exchange

abbrev Outcome := Exchange × Option Exn

def update (state : Exchange) (result : Except Exn Request) : Outcome :=
  match result with
  | .ok request => ({ state with request := request }, none)
  | .error exn => (state, some exn)

def emit (state : Exchange) (bytes : Bytes) : Exchange := { state with output := state.output ++ bytes }

def statusLine (status : Nat) : Bytes := decimal status ++ [32] ++ Parser.statusToString status

def headerLine (header : Bytes × Bytes) : Bytes := header.1 ++ ascii ": " ++ header.2 ++ crlf

def cookieLine (text : Bytes) : Bytes := ascii "Set-Cookie: " ++ text ++ crlf

/-- The name of the field is on the stream before the cookie is formatted. -/
def sendCookies : List Cookie → Bytes → Bytes × Option Exn
  | [], output => (output, none)
  | cookie :: rest, output =>
      match cookie.toString with
      | .error exn => (output ++ ascii "Set-Cookie: ", some exn)
      | .ok text => sendCookies rest (output ++ cookieLine text)

def withStatus (request : Request) : Request :=
  { request with
    outHeaders := request.outHeaders.assign (ascii "Status") (statusLine request.status) }

def sendHeadersInternal (state : Exchange) : Outcome :=
  if state.request.headersSent then (state, none)
  else
    let request := withStatus state.request
    let output := state.output ++ request.outHeaders.entries.flatMap headerLine
    match sendCookies (request.outCookies.entries.map Prod.snd) output with
    | (output, some exn) => (⟨request, output⟩, some exn)
    | (output, none) => (⟨{ request with headersSent := true }, output ++ crlf⟩, none)

end Exchange

namespace Request

def setHeader (request : Request) (name value : Bytes) : Except Exn Request :=
  if request.headersSent then
    .error (.runtimeError ("Error in Request::setHeader: headers already sent: header - '" ++
      quoted name ++ ": " ++ quoted value ++ "'"))
  else .ok { request with
    outHeaders := request.outHeaders.assign (Parser.normalizeOutputHeaderName name) value }

def deleteCookie (request : Request) (name : Bytes) : Except Exn Request :=
  request.setCookie { Cookie.create name [] with expires := 0 }

def redirectToPath (request : Request) (path : Bytes) : Except Exn Request := do
  let moved ← request.setStatus 302
  moved.setHeader (ascii "Location") path

def setContentType (request : Request) (type : Bytes) : Except Exn Request :=
  request.setHeader (ascii "Content-type") type

section Unsent

variable (request : Request) (unsent : request.headersSent = false)

include unsent

theorem setStatus_unsent (status : Nat) :
    request.setStatus status = .ok { request with status := status } :=
  if_neg (by simp [unsent])

theorem setCookie_unsent (cookie : Cookie) : request.setCookie cookie =
    .ok { request with outCookies := request.outCookies.assign cookie.name cookie } :=
  if_neg (by simp [unsent])

theorem setHeader_unsent (name value : Bytes) : request.setHeader name value =
    .ok { request with
      outHeaders := request.outHeaders.assign (Parser.normalizeOutputHeaderName name) value } :=
  if_neg (by simp [unsent])

theorem redirectToPath_unsent (path : Bytes) : request.redirectToPath path =
    .ok { request with
      status := 302
      outHeaders := request.outHeaders.assign
        (Parser.normalizeOutputHeaderName (ascii "Location")) path } := by
  rw [redirectToPath, setStatus_unsent request unsent]
  exact setHeader_unsent { request with status := 302 } unsent _ _

end Unsent

end Request

namespace Exchange

def errorBody (status : Nat) : Bytes :=
  ascii "<html><body><h1>" ++ decimal status ++ [32] ++ Parser.statusToString status ++
    ascii "</h1></body></html>"

/-- The page of an error drops the headers and cookies that were set before. -/
def errorPage (request : Request) (status : Nat) : Request :=
  { request with
    outCookies := .empty
    status := status
    outHeaders := OrderedMap.empty.insert (ascii "Content-type") (ascii "text/html") }

def sendError (state : Exchange) (status : Nat) : Outcome :=
  if state.request.headersSent then
    (state, some (.runtimeError ("Error in Request::setError headers already sent: status - '" ++
      toString status ++ "'")))
  else
    match sendHeadersInternal ⟨errorPage state.request status, state.output⟩ with
    | (sent, some exn) => (sent, some exn)
    | (sent, none) => (sent.emit (errorBody status), none)

def sendHeaders (state : Exchange) : Outcome := state.sendHeadersInternal

/-- The answer to a HEAD request has no body. -/
def bodyOf (method data : Bytes) : Bytes := if method = ascii "HEAD" then [] else data

def write (state : Exchange) (data : Bytes) : Outcome :=
  match state.sendHeaders with
  | (sent, some exn) => (sent, some exn)
  | (sent, none) => (sent.emit (bodyOf sent.request.getRequestMethod data), none)

end Exchange

end FastcgiContainer
