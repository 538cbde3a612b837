import FastcgiContainer.StringUtils

/-! The data of a request: what was parsed from the client, what is to be sent
back, and the session and subject it is bound to. -/

namespace FastcgiContainer

open Word (Bytes)
open StringUtils (NamedValue)

/-- A subject is the list of its principals' names. -/
structure Subject where
  principals : List Bytes
  readOnly : Bool
  deriving DecidableEq, Repr

namespace Subject

def anonymous : Bytes := ascii "Anonymous"

def anonymousSubject : Subject := ⟨[anonymous], true⟩

/-- Principals are compared by the hash codes of their names. -/
def hasPrincipal (hash : Bytes → Nat) (subject : Subject) (name : Bytes) : Bool :=
  subject.principals.any (fun principal => hash name == hash principal)

def isAnonymous (subject : Subject) : Bool :=
  subject.principals.any (fun principal => principal == anonymous)

end Subject

structure Cookie where
  secure : Bool
  httpOnly : Bool
  encode : Bool
  expires : Int
  name : Bytes
  value : Bytes
  path : Bytes
  domain : Bytes
  deriving DecidableEq, Repr

def Cookie.create (name value : Bytes) : Cookie :=
  ⟨false, false, false, 0, name, value, ascii "/", []⟩

/-- An uploaded file; both constructors refuse an empty name. -/
structure File where
  name : Bytes
  type : Bytes
  data : DataBuffer
  named : name ≠ []
  deriving DecidableEq

namespace File

def create (filename type : Bytes) (content : DataBuffer) : Except Exn File :=
  if named : filename ≠ [] then .ok ⟨filename, type, content, named⟩
  else .error (.runtimeError "uploaded file without name")

theorem create_data {filename type : Bytes} {content : DataBuffer} {file : File}
    (created : create filename type content = .ok file) : file.data = content := by
  unfold create at created
  split at created
  · cases created
    rfl
  · cases created

def ofBuffers (heap : Heap) (filename type content : DataBuffer) : Except Exn File := do
  let kind ← if type.empty then .ok [] else type.toBytes heap
  if filename.empty then .error (.runtimeError "uploaded file without name")
  else do
    let remote ← filename.toBytes heap
    create remote kind content

end File

abbrev VarMap := OrderedMap Bytes Bytes stringLess
abbrev HeaderMap := OrderedMap Bytes Bytes stringCILess

/-- The current session is a reference into the sessions of its manager. -/
structure Request where
  headersSent : Bool
  status : Nat
  processed : Bool
  vars : VarMap
  cookies : VarMap
  body : DataBuffer
  headers : HeaderMap
  outHeaders : HeaderMap
  outCookies : OrderedMap Bytes Cookie stringLess
  files : OrderedMap Bytes File stringLess
  args : List NamedValue
  session : Option Nat
  subject : Option Subject

namespace Request

def fresh : Request :=
  ⟨false, 200, false, .empty, .empty, .nil, .empty, .empty, .empty, .empty, [], none, none⟩

instance : Inhabited Request := ⟨fresh⟩

def reset (request : Request) : Request :=
  { fresh with body := request.body, processed := request.processed }

def getEnvVariable (request : Request) (name : Bytes) : Bytes := (request.vars.find? name).getD []

def getScriptName (request : Request) : Bytes := request.getEnvVariable (ascii "SCRIPT_NAME")

def getPathInfo (request : Request) : Bytes := request.getEnvVariable (ascii "PATH_INFO")

def getQueryString (request : Request) : Bytes := request.getEnvVariable (ascii "QUERY_STRING")

def getRequestMethod (request : Request) : Bytes := request.getEnvVariable (ascii "REQUEST_METHOD")

def isSecure (request : Request) : Bool := request.getEnvVariable (ascii "HTTPS") == ascii "on"

def getHeader (request : Request) (name : Bytes) : Bytes := (request.headers.find? name).getD []

def hasCookie (request : Request) (name : Bytes) : Bool := (request.cookies.find? name).isSome

def getCookie (request : Request) (name : Bytes) : Bytes := (request.cookies.find? name).getD []

def hasArg (request : Request) (name : Bytes) : Bool :=
  request.args.any (fun arg => arg.1 == name)

def getArg (request : Request) (name : Bytes) : Bytes :=
  ((request.args.find? (fun arg => arg.1 == name)).map Prod.snd).getD []

def getURI (request : Request) : Bytes :=
  let res := request.getScriptName ++ request.getPathInfo
  let query := request.getQueryString
  if query.isEmpty then res else res ++ [63] ++ query

def countRemoteFiles (request : Request) : Nat := request.files.entries.length

def cookieRefused (cookie : Cookie) : Exn :=
  .runtimeError ("Error in Request::setCookie: headers already sent: cookie - '" ++
    quoted cookie.name ++ "=" ++ quoted cookie.value ++ "'")

def setCookie (request : Request) (cookie : Cookie) : Except Exn Request :=
  if request.headersSent then .error (cookieRefused cookie)
  else .ok { request with outCookies := request.outCookies.assign cookie.name cookie }

def setStatus (request : Request) (status : Nat) : Except Exn Request :=
  if request.headersSent then
    .error (.runtimeError ("Error in Request::setStatus headers already sent: status - '" ++
      toString status ++ "'"))
  else .ok { request with status := status }

/-- A non-anonymous subject is assigned once; an anonymous one clears it. -/
def setSubject (request : Request) (subject : Subject) : Except Exn Request :=
  if subject.isAnonymous then .ok { request with subject := none }
  else if request.subject.isSome then .error (.runtimeError "Subject already assigned")
  else .ok { request with subject := some subject }

def getSubject (request : Request) : Subject := request.subject.getD Subject.anonymousSubject

def markAsProcessed (request : Request) : Request := { request with processed := true }

end Request

end FastcgiContainer
