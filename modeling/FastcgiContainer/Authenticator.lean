import FastcgiContainer.SessionManager

/-! `Authenticator`: who a request is from. The subject of a request is cached in
its session; constraints say which roles the URLs of a request ask for. -/

namespace FastcgiContainer

open Word (Bytes)

structure SecurityConstraint where
  regex : Bytes → Bool
  urlPrefix : Bytes
  role : Bytes

namespace SecurityConstraint

def checkUrl (constraint : SecurityConstraint) (url : Bytes) : Bool :=
  if !constraint.urlPrefix.isEmpty && StringUtils.beginsWith url constraint.urlPrefix then
    constraint.regex (url.drop constraint.urlPrefix.length)
  else constraint.regex url

def check (constraint : SecurityConstraint) (request : Request) : Bool :=
  constraint.checkUrl request.getScriptName

end SecurityConstraint

/-- Where the users are known; a realm is a component of its own and may fail. -/
structure Realm where
  name : Bytes
  authenticate : Bytes → Bytes → Except Exn (Option Subject)
  getSubject : Bytes → Except Exn (Option Subject)

structure Authenticator where
  changeSessionIdOnAuthentication : Bool
  realm : Option Realm
  constraints : List SecurityConstraint
  /-- The hash of a principal's name. -/
  hash : Bytes → Nat

namespace Authenticator

def isAuthenticationRequired (authenticator : Authenticator) (request : Request) : Bool :=
  authenticator.constraints.any (fun constraint => constraint.check request)

def isAuthorized (authenticator : Authenticator) (request : Request) : Bool :=
  !authenticator.constraints.any (fun constraint =>
    constraint.check request && !request.getSubject.hasPrincipal authenticator.hash constraint.role)

section Generator

variable (uuid : Nat → Bytes) (crawlerAgents : Bytes → Bool)

def isAuthenticated (request : Request) (manager : SessionManager) :
    SessionManager × Request × Except Exn Bool :=
  if request.getSubject.isAnonymous then
    let (manager, request) := request.getSession uuid crawlerAgents manager
    match request.session.bind (fun ref => manager.objects[ref]?) with
    | none => (manager, request, .ok (!request.getSubject.isAnonymous))
    | some session =>
        if session.getSubject.isAnonymous then
          (manager, request, .ok (!request.getSubject.isAnonymous))
        else
          match request.setSubject session.getSubject with
          | .error exn => (manager, request, .error exn)
          | .ok request => (manager, request, .ok true)
  else (manager, request, .ok true)

/-- The subject is cached in the session, whose id then changes. -/
def storeSubject (authenticator : Authenticator) (request : Request) (others : List Nat)
    (manager : SessionManager) (subject : Subject) : SessionManager × Except Exn Request :=
  match request.session with
  | none => (manager, .ok request)
  | some ref =>
      let manager := manager.modify ref (fun session => { session with subject := some subject })
      if !subject.isAnonymous && authenticator.changeSessionIdOnAuthentication then
        request.changeSessionId uuid crawlerAgents others manager
      else (manager, .ok request)

def setSubject (authenticator : Authenticator) (request : Request) (others : List Nat)
    (manager : SessionManager) (subject : Subject) : SessionManager × Request × Except Exn Unit :=
  let (manager, request) := request.getSession uuid crawlerAgents manager
  match authenticator.storeSubject uuid crawlerAgents request others manager subject with
  | (manager, .error exn) => (manager, request, .error exn)
  | (manager, .ok request) =>
      match request.setSubject subject with
      | .error exn => (manager, request, .error exn)
      | .ok request => (manager, request, .ok ())

end Generator

end Authenticator

end FastcgiContainer
