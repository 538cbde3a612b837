import FastcgiContainer.Request

/-! The environment of a request: `Parser::parse` over the variables that the web
server passes, and what `Request` reads from the headers. -/

namespace FastcgiContainer

open Word (Bytes)

/-- `0 == strncasecmp(lead, text, size)` for the size of the first string. -/
def strncasecmp (lead text : Bytes) : Bool :=
  decide ((text.take lead.length).map tolower = lead.map tolower)

def strcasecmp (left right : Bytes) : Bool := decide (left.map tolower = right.map tolower)

def isdigit (symbol : UInt8) : Bool := 48 ≤ symbol && symbol ≤ 57

def digitsValue (digits : Bytes) : Nat :=
  digits.foldl (fun value digit => 10 * value + (digit.toNat - 48)) 0

/-- `std::stoi`: white space, a sign and digits at the front of the string. -/
def stoi (text : Bytes) : Except Exn Int :=
  let unpadded := text.dropWhile isspace
  let negative := unpadded.head? == some 45
  let signed := negative || unpadded.head? == some 43
  let digits := (if signed then unpadded.tail else unpadded).takeWhile isdigit
  let value : Int := if negative then -(digitsValue digits : Int) else digitsValue digits
  if digits.isEmpty then .error (.invalidArgument "stoi")
  else if value < -2 ^ 31 ∨ 2 ^ 31 ≤ value then .error (.outOfRange "stoi")
  else .ok value

namespace Parser

def normalizeLoop : Nat → Bytes → Bytes → Bytes
  | 0, _, res => res
  | fuel + 1, tmp, res =>
      if tmp.isEmpty then res
      else
        let (splitted, head, tail) := Range.splitChar tmp 95
        normalizeLoop fuel tail (res ++ head ++ if splitted then [45] else [])

def normalizeInputHeaderName (range : Bytes) : Bytes := normalizeLoop range.length range []

def addHeader (request : Request) (key value : Bytes) : Request :=
  { request with headers := request.headers.assign (normalizeInputHeaderName key) value }

def addCookie (request : Request) (range : Bytes) : Request :=
  let (_, head, tail) := Range.splitChar (Range.trim range) 61
  if head.isEmpty then request
  else { request with
    cookies := request.cookies.assign (StringUtils.urldecode head) (StringUtils.urldecode tail) }

def cookiesLoop : Nat → Bytes → Request → Request
  | 0, _, request => request
  | fuel + 1, tmp, request =>
      if tmp.isEmpty then request
      else
        let (_, head, tail) := Range.split tmp (ascii "; ")
        cookiesLoop fuel (Range.trim tail) (addCookie request head)

def parseCookies (request : Request) (range : Bytes) : Request :=
  cookiesLoop (Range.trim range).length (Range.trim range) request

def headerRange : Bytes := ascii "HTTP_"

def parseVariable (request : Request) (entry : Bytes) : Request :=
  let (_, key, value) := Range.splitChar entry 61
  if key = ascii "HTTP_COOKIE" then
    addHeader (parseCookies request value) (Range.trimn key headerRange.length 0) (Range.trim value)
  else if key = ascii "CONTENT_TYPE" then addHeader request key (Range.trim value)
  else if key = ascii "CONTENT_LENGTH" then addHeader request key (Range.trim value)
  else if Range.startsWith key headerRange then
    addHeader request (Range.trimn key headerRange.length 0) (Range.trim value)
  else { request with vars := request.vars.assign key value }

def parse (request : Request) (env : List Bytes) : Request := env.foldl parseVariable request

def getBoundary (range : Bytes) : Except Exn Bytes :=
  let (_, _, rest) := Range.splitChar range 59
  let tail := Range.trim rest
  if strncasecmp (ascii "boundary") tail then
    let (_, _, value) := Range.splitChar tail 61
    let boundary := Range.trim value
    if !boundary.isEmpty && Range.startsWith boundary [34] then
      if boundary.length < 2 || !Range.endsWith boundary [34] then
        .error (.runtimeError "incomplete boundary quotation")
      else .ok (ascii "--" ++ Range.trimn boundary 1 1)
    else .ok (ascii "--" ++ boundary)
  else .ok []

end Parser

namespace Request

/-- A header that holds no number counts as zero; one that holds too large a
number is reported. -/
def getContentLength (request : Request) : Except Exn Int :=
  let header := request.getHeader (ascii "content-length")
  if header.isEmpty then .ok 0
  else
    match stoi header with
    | .error (.invalidArgument _) => .ok 0
    | result => result

def getContentType (request : Request) : Bytes := request.getHeader (ascii "content-type")

def disablePostParams (request : Request) : Bool :=
  let disableParams := request.getEnvVariable (ascii "DISABLE_POST_PARAMS")
  if disableParams.isEmpty then false
  else strcasecmp (ascii "yes") disableParams || strcasecmp (ascii "true") disableParams ||
    strcasecmp (ascii "1") disableParams

end Request

namespace Parser

def dash (symbol : UInt8) : UInt8 := if symbol = 95 then 45 else symbol

theorem map_dash (text : Bytes) (absent : (95 : UInt8) ∉ text) : text.map dash = text := by
  induction text with
  | nil => rfl
  | cons symbol rest ih =>
      rw [List.mem_cons, not_or] at absent
      rw [List.map_cons, ih absent.2, dash, if_neg (Ne.symm absent.1)]

theorem normalizeLoop_spec (fuel : Nat) (tmp res : Bytes) (enough : tmp.length ≤ fuel) :
    normalizeLoop fuel tmp res = res ++ tmp.map dash := by
  induction fuel generalizing tmp res with
  | zero =>
      obtain rfl := List.eq_nil_of_length_eq_zero (Nat.le_zero.mp enough)
      simp [normalizeLoop]
  | succ fuel ih =>
      by_cases none : tmp = []
      · simp [normalizeLoop, none]
      · have filled : tmp.isEmpty = false := by simpa using none
        simp only [normalizeLoop, filled, Range.splitChar_eq_split, Bool.false_eq_true, if_false]
        by_cases present : (95 : UInt8) ∈ tmp
        · obtain ⟨front, back, rfl, fresh⟩ := List.eq_append_cons_of_mem present
          have shorter : back.length ≤ fuel := by
            rw [List.length_append, List.length_cons] at enough
            omega
          rw [Range.split_symbol front 95 back fresh, ih _ _ shorter]
          simp [map_dash front fresh, dash]
        · rw [Range.split_missing 95 [] tmp present, ih _ _ (Nat.zero_le _)]
          simp [map_dash tmp present]

theorem normalizeInputHeaderName_eq (range : Bytes) :
    normalizeInputHeaderName range = range.map dash := by
  rw [normalizeInputHeaderName, normalizeLoop_spec _ _ _ (le_refl _), List.nil_append]

end Parser

end FastcgiContainer
