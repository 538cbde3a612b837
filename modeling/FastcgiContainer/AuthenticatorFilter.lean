import FastcgiContainer.Authenticator
import FastcgiContainer.Response
import FastcgiContainer.SessionRuns

/-! `Authenticator::doFilter` and the authenticators that ask the client, or its HTTP
server, for a user name. A filter ends by calling the next one, or by an exception. -/

namespace FastcgiContainer

open Word (Bytes)

namespace StringUtils

/-- The loop of `split` on a text without its terminator: empty pieces are skipped,
but for the one behind the last delimiter. -/
def splitLoop (c : UInt8) : Nat → Bytes → List Bytes
  | 0, _ => [[]]
  | _ + 1, [] => [[]]
  | fuel + 1, symbol :: rest =>
      if symbol = c then splitLoop c fuel rest
      else
        let piece := (symbol :: rest).takeWhile (fun other => other != c)
        match (symbol :: rest).dropWhile (fun other => other != c) with
        | [] => [piece]
        | _ :: tail => piece :: splitLoop c fuel tail

/-- The text is read as a C string, up to its first zero. -/
def split (str : Bytes) (c : UInt8) : List Bytes :=
  if str.isEmpty then []
  else
    let text := str.takeWhile (fun symbol => symbol != 0)
    splitLoop c text.length text

example : split (ascii " a  b c") 32 = [ascii "a", ascii "b", ascii "c"] := by decide +kernel

example : split (ascii "user:") 58 = [ascii "user", []] := by decide +kernel

end StringUtils

namespace HashUtils

def base64Value (symbol : UInt8) : Option UInt32 :=
  if 65 ≤ symbol ∧ symbol ≤ 90 then some (symbol.toUInt32 - 65)
  else if 97 ≤ symbol ∧ symbol ≤ 122 then some (symbol.toUInt32 - 71)
  else if 48 ≤ symbol ∧ symbol ≤ 57 then some (symbol.toUInt32 + 4)
  else if symbol = 43 then some 62
  else if symbol = 47 then some 63
  else none

/-- The accumulator keeps the bits that were collected and not given out. -/
def base64Loop : Bytes → Nat → UInt32 → Bytes → Except Exn Bytes
  | [], _, _, retval => .ok retval
  | symbol :: rest, bits, accumulator, retval =>
      if isspace symbol || symbol == 61 then base64Loop rest bits accumulator retval
      else
        match base64Value symbol with
        | none => .error
            (.invalidArgument "This contains characters not legal in a base64 encoded string.")
        | some value =>
            let accumulator := (accumulator <<< 6) ||| value
            if bits + 6 ≥ 8 then
              base64Loop rest (bits - 2) accumulator
                (retval ++ [(accumulator >>> UInt32.ofNat (bits - 2)).toUInt8])
            else base64Loop rest (bits + 6) accumulator retval

def base64Decode (ascdata : Bytes) : Except Exn Bytes := base64Loop ascdata 0 0 []

example : base64Decode (ascii "dXNlcjpwdw==") = .ok (ascii "user:pw") := by decide +kernel

end HashUtils

namespace Request

def hasHeader (request : Request) (name : Bytes) : Bool := (request.headers.find? name).isSome

def getRemoteUser (request : Request) : Bytes := request.getEnvVariable (ascii "REMOTE_USER")

def getRemotePassword (request : Request) : Bytes := request.getEnvVariable (ascii "REMOTE_PASSWD")

end Request

inductive Failure where
  | exn (exn : Exn)
  | unauthorized
  | forbidden
  | dispatch (buffer : DataBuffer)

/-- What a filter works on: a request, the page that is being made for it, the
sessions, if there is a manager for them, and the buffers. -/
structure Situation where
  sessions : Option SessionManager
  heap : Heap
  request : Request
  responseStream : Bytes

abbrev Step (α : Type) := Situation × Except Failure α

structure Filtered where
  situation : Situation
  result : Except Failure Unit
  invoked : Option Situation

namespace Situation

def update (situation : Situation) (result : Except Exn Request) : Step Unit :=
  match result with
  | .ok request => ({ situation with request := request }, .ok ())
  | .error exn => (situation, .error (.exn exn))

def resetSubject (situation : Situation) : Step Unit :=
  situation.update (situation.request.setSubject Subject.anonymousSubject)

section Generator

-- `others` are the sessions that other requests hold
variable (uuid : Nat → Bytes) (crawlerAgents : Bytes → Bool) (others : List Nat)

def getSession (situation : Situation) : Situation × Option Nat :=
  match situation.sessions with
  | none => (situation, none)
  | some manager =>
      let (manager, request) := situation.request.getSession uuid crawlerAgents manager
      ({ situation with sessions := some manager, request := request }, request.session)

def isAuthenticated (situation : Situation) : Step Bool :=
  match situation.sessions with
  | none => (situation, .ok (!situation.request.getSubject.isAnonymous))
  | some manager =>
      let (manager, request, result) :=
        Authenticator.isAuthenticated uuid crawlerAgents situation.request manager
      ({ situation with sessions := some manager, request := request }, result.mapError .exn)

def setSubject (authenticator : Authenticator) (situation : Situation) (subject : Subject) :
    Step Unit :=
  match situation.sessions with
  | none => situation.update (situation.request.setSubject subject)
  | some manager =>
      let (manager, request, result) :=
        authenticator.setSubject uuid crawlerAgents situation.request others manager subject
      ({ situation with sessions := some manager, request := request }, result.mapError .exn)

def adopt (authenticator : Authenticator) (situation : Situation)
    (answer : Except Exn (Option Subject)) : Step Bool :=
  match answer with
  | .error exn => (situation, .error (.exn exn))
  | .ok none => (situation, .ok false)
  | .ok (some subject) =>
      match situation.setSubject uuid crawlerAgents others authenticator subject with
      | (situation, .error failure) => (situation, .error failure)
      | (situation, .ok ()) => (situation, .ok (!subject.isAnonymous))

def doLogin (authenticator : Authenticator) (situation : Situation) (username credentials : Bytes) :
    Step Bool :=
  match authenticator.realm with
  | none => (situation, .ok false)
  | some realm =>
      situation.adopt uuid crawlerAgents others authenticator (realm.authenticate username credentials)

end Generator

end Situation

namespace Authenticator

section Generator

variable (uuid : Nat → Bytes) (crawlerAgents : Bytes → Bool) (others : List Nat)

/-- The condition `isAuthenticated(request) || authenticate(request)`. -/
def admits (authenticate : Situation → Step Bool) (situation : Situation) : Step Bool :=
  match situation.isAuthenticated uuid crawlerAgents with
  | (situation, .error failure) => (situation, .error failure)
  | (situation, .ok true) => (situation, .ok true)
  | (situation, .ok false) => authenticate situation

/-- The subject is dropped again when the next filter returns. -/
def proceed (next : Situation → Step Unit) (situation : Situation) : Filtered :=
  match next situation with
  | (after, .error failure) => ⟨after, .error failure, some situation⟩
  | (after, .ok ()) => ⟨after.resetSubject.1, after.resetSubject.2, some situation⟩

/-- The virtual functions `isAuthenticationRequired` and `authenticate` are parameters. -/
def doFilter (authenticator : Authenticator) (required : Situation → Step Bool)
    (authenticate : Situation → Step Bool) (next : Situation → Step Unit) (situation : Situation) :
    Filtered :=
  match required situation with
  | (situation, .error failure) => ⟨situation, .error failure, none⟩
  | (situation, .ok false) => ⟨(next situation).1, (next situation).2, some situation⟩
  | (situation, .ok true) =>
      match admits uuid crawlerAgents authenticate situation with
      | (situation, .error failure) => ⟨situation, .error failure, none⟩
      | (situation, .ok true) =>
          if authenticator.isAuthorized situation.request then proceed next situation
          else
            match situation.resetSubject with
            | (situation, .error failure) => ⟨situation, .error failure, none⟩
            | (situation, .ok ()) => ⟨situation, .error .unauthorized, none⟩
      | (situation, .ok false) =>
          if situation.request.processed then ⟨situation, .ok (), none⟩
          else ⟨situation, .error .forbidden, none⟩

/-- `isAuthenticationRequired` as the base class has it. -/
def requires (authenticator : Authenticator) (situation : Situation) : Step Bool :=
  (situation, .ok (authenticator.isAuthenticationRequired situation.request))

end Generator

end Authenticator

namespace BasicAuthenticator

section Generator

variable (uuid : Nat → Bytes) (crawlerAgents : Bytes → Bool) (others : List Nat)

def credentials (request : Request) : Except Exn (Option (Bytes × Bytes)) :=
  if request.hasHeader (ascii "Authorization") then
    match StringUtils.split (request.getHeader (ascii "Authorization")) 32 with
    | [_, encoded] =>
        match HashUtils.base64Decode encoded with
        | .error exn => .error exn
        | .ok decoded =>
            match StringUtils.split decoded 58 with
            | [username, password] => .ok (some (username, password))
            | _ => .ok none
    | _ => .ok none
  else .ok none

def challenge (authenticator : Authenticator) (request : Request) : Except Exn Request :=
  match authenticator.realm with
  | none => .error (.undefined "realm is nullptr")
  | some realm => do
      let asked ← request.setHeader (ascii "WWW-Authenticate")
        (ascii "Basic realm=\"" ++ realm.name ++ ascii "\"")
      let refused ← asked.setStatus 401
      .ok refused.markAsProcessed

def authenticate (authenticator : Authenticator) (situation : Situation) : Step Bool :=
  match credentials situation.request with
  | .error exn => (situation, .error (.exn exn))
  | .ok (some (username, password)) =>
      situation.doLogin uuid crawlerAgents others authenticator username password
  | .ok none =>
      match situation.update (challenge authenticator situation.request) with
      | (situation, .error failure) => (situation, .error failure)
      | (situation, .ok ()) => (situation, .ok false)

end Generator

end BasicAuthenticator

namespace DelegatedAuthenticator

section Generator

variable (uuid : Nat → Bytes) (crawlerAgents : Bytes → Bool) (others : List Nat)

def authenticate (authenticator : Authenticator) (situation : Situation) : Step Bool :=
  let username := situation.request.getRemoteUser
  match authenticator.realm with
  | none => (situation, .ok false)
  | some realm =>
      if username.isEmpty then (situation, .ok false)
      else
        let password := situation.request.getRemotePassword
        if password.isEmpty then
          situation.adopt uuid crawlerAgents others authenticator (realm.getSubject username)
        else situation.doLogin uuid crawlerAgents others authenticator username password

end Generator

end DelegatedAuthenticator

end FastcgiContainer
