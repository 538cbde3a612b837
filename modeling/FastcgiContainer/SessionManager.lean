import FastcgiContainer.Request

/-! Sessions and their manager. Session objects are shared between the manager's
map and the requests that hold them; they live in a list, and a reference is an
index into it. Times are counted in nanoseconds of the steady clock. -/

namespace FastcgiContainer

open Word (Bytes)

inductive Attribute where
  | text (value : Bytes)
  | buffer (value : DataBuffer)
  deriving DecidableEq, Repr

structure Session where
  id : Bytes
  attributes : OrderedMap Bytes Attribute stringLess
  subject : Option Subject
  lastAccessed : Int
  maxInactive : Int
  deriving DecidableEq

namespace Session

def minute : Int := 60 * 1000000000

def create (id : Bytes) (now : Int) : Session := ⟨id, .empty, none, now, 30⟩

def invalidate (session : Session) (now : Int) : Session :=
  { session with
    attributes := .empty, subject := none, lastAccessed := now - session.maxInactive * minute }

def isExpired (session : Session) (now : Int) : Bool :=
  now > session.lastAccessed + session.maxInactive * minute

def getSubject (session : Session) : Subject := session.subject.getD Subject.anonymousSubject

def hasAttribute (session : Session) (name : Bytes) : Bool := (session.attributes.find? name).isSome

end Session

structure SessionManager where
  objects : List Session
  sessions : OrderedMap Bytes Nat stringLess
  /-- How many ids were drawn from the generator. -/
  drawn : Nat
  now : Int
  maxInactiveInterval : Int

namespace SessionManager

def sessionCookieName : Bytes := ascii "JSESSIONID"

def crawlerAgentSessionId : Bytes := ascii "crawler-fixed-sesson-id"

def crawlerSessionTimeoutMin : Int := 5

def start (now maxInactiveInterval : Int) : SessionManager := ⟨[], .empty, 0, now, maxInactiveInterval⟩

/-- The session that is registered under an id. -/
def resolve (manager : SessionManager) (id : Bytes) : Option Nat := manager.sessions.find? id

def modify (manager : SessionManager) (ref : Nat) (change : Session → Session) : SessionManager :=
  { manager with objects := manager.objects.modify ref change }

def named (manager : SessionManager) (request : Request) : Option Nat :=
  if request.hasCookie sessionCookieName then manager.resolve (request.getCookie sessionCookieName)
  else none

/-- An object that was never registered, or no longer is, is destroyed with its
last reference, and its deleter erases whatever is registered under its id. -/
def release (manager : SessionManager) (held : List Nat) (ref : Nat) : SessionManager :=
  if held.contains ref || manager.sessions.entries.any (fun entry => entry.2 == ref) then manager
  else
    match manager.objects[ref]? with
    | none => manager
    | some session => { manager with sessions := manager.sessions.erase session.id }

section Generator

-- the generator of unique ids, and the expression that user agents are matched against
variable (uuid : Nat → Bytes) (crawlerAgents : Bytes → Bool)

def isBot (request : Request) : Bool :=
  let userAgent := request.getHeader (ascii "USER-AGENT")
  !userAgent.isEmpty && crawlerAgents userAgent

def getNewId (manager : SessionManager) (request : Request) : SessionManager × Bytes :=
  if !isBot crawlerAgents request then
    ({ manager with drawn := manager.drawn + 1 }, uuid manager.drawn)
  else (manager, crawlerAgentSessionId)

def newSession (manager : SessionManager) (id : Bytes) : SessionManager × Nat :=
  ({ manager with objects := manager.objects ++ [Session.create id manager.now] },
    manager.objects.length)

/-- The loop of `createInternal`. An id that is taken costs its owner the entry:
the object that was made for it is dropped, and its deleter erases the id. So the
map shrinks from turn to turn. -/
def insertNew (request : Request) : Nat → SessionManager → Bytes → SessionManager × Nat
  | fuel, manager, id =>
      let (made, ref) := manager.newSession id
      if (made.resolve id).isNone then
        ({ made with sessions := made.sessions.insert id ref }, ref)
      else
        match fuel with
        | 0 => (made, ref)
        | fuel + 1 =>
            let (next, other) := getNewId uuid crawlerAgents made request
            insertNew request fuel { next with sessions := next.sessions.erase id } other

def createInternal (manager : SessionManager) (request : Request) : SessionManager × Nat :=
  let (manager, id) := getNewId uuid crawlerAgents manager request
  if crawlerAgentSessionId ≠ id then
    let (manager, ref) := insertNew uuid crawlerAgents request manager.sessions.entries.length manager id
    (manager.modify ref (fun session =>
      { session with maxInactive := manager.maxInactiveInterval }), ref)
  else
    match manager.resolve id with
    | some ref => (manager.modify ref (fun session => { session with lastAccessed := manager.now }), ref)
    | none =>
        let (made, ref) := manager.newSession id
        ({ made with sessions := made.sessions.insert id ref }.modify ref (fun session =>
          { session with maxInactive := crawlerSessionTimeoutMin, lastAccessed := manager.now }), ref)

def sessionCookie (request : Request) (id : Bytes) : Cookie :=
  { Cookie.create sessionCookieName id with httpOnly := true, secure := request.isSecure }

/-- A new session is registered before its cookie is set; the cookie may fail. -/
def createWithCookie (manager : SessionManager) (request : Request) :
    SessionManager × Except Exn (Nat × Request) :=
  let (manager, ref) := createInternal uuid crawlerAgents manager request
  let id := ((manager.objects[ref]?).map Session.id).getD []
  (manager, do
    let request ← request.setCookie (sessionCookie request id)
    .ok (ref, request))

def create (manager : SessionManager) (request : Request) :
    SessionManager × Except Exn (Nat × Request) :=
  match manager.named request with
  | some ref =>
      createWithCookie uuid crawlerAgents
        (manager.modify ref (fun session => session.invalidate manager.now)) request
  | none => createWithCookie uuid crawlerAgents manager request

def get (manager : SessionManager) (request : Request) :
    SessionManager × Except Exn (Nat × Request) :=
  match manager.named request with
  | some ref =>
      (manager.modify ref (fun session => { session with lastAccessed := manager.now }),
        .ok (ref, request))
  | none => createWithCookie uuid crawlerAgents manager request

/-- Where the new id is taken, the session leaves the map. If nobody holds it, its
deleter erases the new id, which may be the very entry that is about to be erased. -/
def moveEntry (manager : SessionManager) (held : List Nat) (cookie id : Bytes) (ref : Nat) :
    Except Exn SessionManager :=
  if (manager.resolve id).isNone then
    .ok { manager with sessions := (manager.sessions.insert id ref).erase cookie }
  else if held.contains ref then .ok { manager with sessions := manager.sessions.erase cookie }
  else if id = cookie then .error (.undefined "erase of an erased iterator")
  else .ok { manager with sessions := (manager.sessions.erase id).erase cookie }

/-- The session is found by the cookie of the request, not by the session it holds. -/
def changeId (manager : SessionManager) (held : List Nat) (request : Request) :
    SessionManager × Except Exn Request :=
  match manager.named request with
  | none => (manager, .ok request)
  | some ref =>
      let (drawn, id) := getNewId uuid crawlerAgents manager request
      let renamed := drawn.modify ref (fun session => { session with id })
      match renamed.moveEntry held (request.getCookie sessionCookieName) id ref with
      | .error exn => (renamed, .error exn)
      | .ok moved => (moved, request.setCookie (sessionCookie request id))

end Generator

def checkSessionTimeout (manager : SessionManager) : SessionManager :=
  { manager with sessions := manager.sessions.filter (fun entry =>
      match manager.objects[entry.2]? with
      | some session => !session.isExpired manager.now
      | none => true) }

end SessionManager

namespace Request

open SessionManager (create get changeId)

section Generator

variable (uuid : Nat → Bytes) (crawlerAgents : Bytes → Bool)

/-- Gives up the session that the request holds for another one, or for none. -/
def takeSession (request : Request) (others : List Nat) (manager : SessionManager)
    (next : Option Nat) : SessionManager × Request :=
  match request.session with
  | none => (manager, { request with session := next })
  | some old => (manager.release (others ++ next.toList) old, { request with session := next })

/-- `others` are the references that other requests hold. -/
def createSession (request : Request) (others : List Nat) (manager : SessionManager) :
    SessionManager × Request :=
  match create uuid crawlerAgents manager request with
  | (manager, .ok (ref, request)) => request.takeSession others manager (some ref)
  | (manager, .error _) => request.takeSession others manager none

def getSession (request : Request) (manager : SessionManager) : SessionManager × Request :=
  match request.session with
  | some _ => (manager, request)
  | none =>
      match get uuid crawlerAgents manager request with
      | (manager, .ok (ref, request)) => (manager, { request with session := some ref })
      | (manager, .error _) => (manager, request)

def changeSessionId (request : Request) (others : List Nat) (manager : SessionManager) :
    SessionManager × Except Exn Request :=
  changeId uuid crawlerAgents manager (others ++ request.session.toList) request

end Generator

end Request

end FastcgiContainer
