import FastcgiContainer.Mediation
import FastcgiContainer.RequestSerializer

/-! `FormAuthenticator`: users log in on a page of the application. A request that
needs a login is kept in its session until the page was answered. -/

namespace FastcgiContainer

open Word (Bytes)

namespace Session

def getText (session : Session) (name : Bytes) : Except Exn Bytes :=
  match session.attributes.find? name with
  | some (.text value) => .ok value
  | some (.buffer _) => .error (.runtimeError "bad any cast")
  | none => .error (.runtimeError "Attribute not found")

def getBuffer (session : Session) (name : Bytes) : Except Exn DataBuffer :=
  match session.attributes.find? name with
  | some (.buffer value) => .ok value
  | some (.text _) => .error (.runtimeError "bad any cast")
  | none => .error (.runtimeError "Attribute not found")

def setAttribute (session : Session) (name : Bytes) (value : Attribute) : Session :=
  { session with attributes := session.attributes.assign name value }

def removeAttribute (session : Session) (name : Bytes) : Session :=
  { session with attributes := session.attributes.erase name }

end Session

/-- `openFile` opens a file of the cache directory, which is made if it is missing;
`replaceAction` puts a URL in place of the action of the login form. -/
structure FormAuthenticator where
  base : Authenticator
  urlPrefix : Bytes
  formAction : Bytes
  cacheDir : Bytes
  window : Nat
  pageSize : Nat
  wide : Int → Bool
  storeRequest : Bool
  openFile : Bytes → Except Exn Bytes
  replaceAction : Bytes → Bytes → Bytes

namespace Situation

section Generator

variable (uuid : Nat → Bytes) (crawlerAgents : Bytes → Bool)

def currentSession (situation : Situation) : Situation × Option (Nat × Session) :=
  let (situation, held) := situation.getSession uuid crawlerAgents
  (situation, held.bind (fun ref => situation.sessions.bind (fun manager =>
    (manager.objects[ref]?).map (fun session => (ref, session)))))

end Generator

def changeSession (situation : Situation) (ref : Nat) (change : Session → Session) : Situation :=
  { situation with sessions := situation.sessions.map (fun manager => manager.modify ref change) }

def redirect (situation : Situation) (path : Bytes) : Step Bool :=
  match situation.update (situation.request.redirectToPath path) with
  | (situation, .error failure) => (situation, .error failure)
  | (situation, .ok ()) =>
      ({ situation with request := situation.request.markAsProcessed }, .ok false)

def redirectMarked (situation : Situation) (path : Bytes) : Step Bool :=
  let marked := { situation with request := situation.request.markAsProcessed }
  match marked.update (marked.request.redirectToPath path) with
  | (situation, .error failure) => (situation, .error failure)
  | (situation, .ok ()) => (situation, .ok false)

end Situation

namespace FormAuthenticator

def formUsername : Bytes := ascii "j_username"

def formPassword : Bytes := ascii "j_password"

def storedRequest : Bytes := ascii "auth-stored-request"

def storedRequestUri : Bytes := ascii "auth-stored-request-uri"

def submitsForm (request : Request) : Bool := request.hasArg formUsername && request.hasArg formPassword

def createFileBuffer (form : FormAuthenticator) (heap : Heap) (key : Bytes) :
    Except Exn (Heap × DataBuffer) := do
  let path := form.cacheDir ++ key
  let content ← form.openFile path
  let file ← FileBuffer.create content path form.window form.pageSize form.wide
  .ok (DataBuffer.create heap (.file file))

section Generator

variable (uuid : Nat → Bytes) (crawlerAgents : Bytes → Bool) (others : List Nat)
variable (form : FormAuthenticator)

/-- Every URL that ends like the login form is let through; data that was submitted
from the form always needs a login, and drops the subject there was. -/
def isAuthenticationRequired (situation : Situation) : Step Bool :=
  if !form.formAction.isEmpty &&
      StringUtils.endsWith situation.request.getScriptName form.formAction then (situation, .ok false)
  else if submitsForm situation.request then
    match situation.setSubject uuid crawlerAgents others form.base Subject.anonymousSubject with
    | (situation, .error failure) => (situation, .error failure)
    | (situation, .ok ()) => (situation, .ok true)
  else (situation, .ok (form.base.isAuthenticationRequired situation.request))

def resume (situation : Situation) : Step Bool :=
  match situation.currentSession uuid crawlerAgents with
  | (situation, none) => (situation, .ok false)
  | (situation, some (ref, session)) =>
      if session.hasAttribute storedRequest then
        match session.getBuffer storedRequest with
        | .error exn => (situation, .error (.exn exn))
        | .ok buffer =>
            (situation.changeSession ref (fun session => session.removeAttribute storedRequest),
              .error (.dispatch buffer))
      else if session.hasAttribute storedRequestUri then
        match session.getText storedRequestUri with
        | .error exn => (situation, .error (.exn exn))
        | .ok url =>
            (situation.changeSession ref (fun session =>
              session.removeAttribute storedRequestUri)).redirect url
      else (situation, .ok false)

/-- After a failed login the form is shown again if a request was stored. -/
def retry (situation : Situation) : Step Bool :=
  match situation.currentSession uuid crawlerAgents with
  | (situation, none) => (situation, .ok false)
  | (situation, some (_, session)) =>
      if session.hasAttribute storedRequest || session.hasAttribute storedRequestUri then
        situation.redirectMarked (form.urlPrefix ++ form.formAction)
      else (situation, .ok false)

def storeUri (situation : Situation) (ref : Nat) : Situation :=
  situation.changeSession ref (fun session =>
    session.setAttribute storedRequestUri (.text situation.request.getURI))

/-- Stores the request in a file that is named after the session. -/
def store (situation : Situation) (ref : Nat) (session : Session) : Step Unit :=
  match form.createFileBuffer situation.heap session.id with
  | .error exn => (situation, .error (.exn exn))
  | .ok (heap, buffer) =>
      if buffer.isNil then ({ situation with heap := heap }, .ok ())
      else
        match situation.request.serialize heap buffer with
        | .error exn => ({ situation with heap := heap }, .error (.exn exn))
        | .ok (buffer, heap) =>
            (storeUri ({ situation with heap := heap }.changeSession ref (fun session =>
              session.setAttribute storedRequest (.buffer buffer))) ref, .ok ())

/-- Stores the request, or only its URL, and shows the login form. -/
def suspend (situation : Situation) : Step Bool :=
  match situation.currentSession uuid crawlerAgents with
  | (situation, none) => (situation, .ok false)
  | (situation, some (ref, session)) =>
      if !form.storeRequest && situation.request.getRequestMethod != ascii "POST" &&
          situation.request.countRemoteFiles == 0 then
        (storeUri situation ref).redirectMarked (form.urlPrefix ++ form.formAction)
      else
        match form.store situation ref session with
        | (situation, .error failure) => (situation, .error failure)
        | (situation, .ok ()) => situation.redirectMarked (form.urlPrefix ++ form.formAction)

def authenticate (situation : Situation) : Step Bool :=
  if submitsForm situation.request then
    match situation.doLogin uuid crawlerAgents others form.base
        (situation.request.getArg formUsername) (situation.request.getArg formPassword) with
    | (situation, .error failure) => (situation, .error failure)
    | (situation, .ok true) => resume uuid crawlerAgents situation
    | (situation, .ok false) => form.retry uuid crawlerAgents situation
  else form.suspend uuid crawlerAgents situation

def rewriteForm (situation : Situation) : Step Unit :=
  match situation.currentSession uuid crawlerAgents with
  | (situation, none) => (situation, .ok ())
  | (situation, some (_, session)) =>
      if session.hasAttribute storedRequest && session.hasAttribute storedRequestUri then
        match session.getText storedRequestUri with
        | .error exn => ({ situation with responseStream := [] }, .error (.exn exn))
        | .ok url =>
            ({ situation with responseStream := form.replaceAction situation.responseStream url },
              .ok ())
      else (situation, .ok ())

def doFilter (next : Situation → Step Unit) (situation : Situation) : Filtered :=
  let filtered := form.base.doFilter uuid crawlerAgents
    (form.isAuthenticationRequired uuid crawlerAgents others)
    (form.authenticate uuid crawlerAgents others) next situation
  match filtered.result with
  | .error _ => filtered
  | .ok () =>
      if StringUtils.endsWith filtered.situation.request.getScriptName form.formAction then
        let (situation, result) := form.rewriteForm uuid crawlerAgents filtered.situation
        ⟨situation, result, filtered.invoked⟩
      else filtered

def Kept (situation next : Situation) : Prop := situation.request.SameInput next.request

theorem currentSession_kept (situation : Situation) :
    Kept situation (situation.currentSession uuid crawlerAgents).1 := by
  have same : (situation.currentSession uuid crawlerAgents).1 =
      (situation.getSession uuid crawlerAgents).1 := rfl
  rw [same, Situation.getSession]
  split
  · exact Request.SameInput.refl _
  · next manager found => exact Request.getSession_input uuid crawlerAgents situation.request manager

theorem redirectToPath_input {request next : Request} {path : Bytes}
    (done : request.redirectToPath path = .ok next) : request.SameInput next := by
  obtain ⟨moved, first, second⟩ := bind_eq_ok _ _ _ done
  exact (Request.setStatus_input first).trans (Request.setHeader_input second)

theorem redirect_kept (situation : Situation) (path : Bytes) :
    Kept situation (situation.redirect path).1 := by
  have answered := (Situation.Honest.update situation (situation.request.redirectToPath path)
    (fun next done => redirectToPath_input done)).input
  unfold Situation.redirect
  split
  · next done =>
      rw [done] at answered
      exact answered
  · next done =>
      rw [done] at answered
      exact ⟨answered.vars, answered.args⟩

theorem redirectMarked_kept (situation : Situation) (path : Bytes) :
    Kept situation (situation.redirectMarked path).1 := by
  have answered := (Situation.Honest.update
    { situation with request := situation.request.markAsProcessed }
    (situation.request.markAsProcessed.redirectToPath path)
    (fun next done => redirectToPath_input done)).input
  unfold Situation.redirectMarked
  simp only
  split
  · next done =>
      rw [done] at answered
      exact ⟨answered.vars, answered.args⟩
  · next done =>
      rw [done] at answered
      exact ⟨answered.vars, answered.args⟩

theorem isAuthenticationRequired_kept (situation : Situation) :
    Kept situation (form.isAuthenticationRequired uuid crawlerAgents others situation).1 := by
  have dropped := (Situation.setSubject_honest uuid crawlerAgents others form.base situation
    Subject.anonymousSubject).input
  unfold isAuthenticationRequired
  split
  · exact Request.SameInput.refl _
  · split
    · split
      · next done =>
          rw [done] at dropped
          exact dropped
      · next done =>
          rw [done] at dropped
          exact dropped
    · exact Request.SameInput.refl _

theorem resume_kept (situation : Situation) : Kept situation (resume uuid crawlerAgents situation).1 := by
  have found := currentSession_kept uuid crawlerAgents situation
  unfold resume
  split
  · next done =>
      rw [done] at found
      exact found
  · next done =>
      rw [done] at found
      split
      · split
        · exact found
        · exact found
      · split
        · split
          · exact found
          · exact found.trans (redirect_kept (Situation.changeSession _ _ _) _)
        · exact found

theorem retry_kept (situation : Situation) :
    Kept situation (form.retry uuid crawlerAgents situation).1 := by
  have found := currentSession_kept uuid crawlerAgents situation
  unfold retry
  split
  · next done =>
      rw [done] at found
      exact found
  · next done =>
      rw [done] at found
      split
      · exact found.trans (redirectMarked_kept _ _)
      · exact found

theorem store_kept (situation : Situation) (ref : Nat) (session : Session) :
    Kept situation (form.store situation ref session).1 := by
  unfold store
  split
  · exact Request.SameInput.refl _
  · split
    · exact Request.SameInput.refl _
    · split <;> exact Request.SameInput.refl _

theorem suspend_kept (situation : Situation) :
    Kept situation (form.suspend uuid crawlerAgents situation).1 := by
  have found := currentSession_kept uuid crawlerAgents situation
  unfold suspend
  split
  · next done =>
      rw [done] at found
      exact found
  · next reached ref session done =>
      rw [done] at found
      have stored := store_kept form reached ref session
      split
      · exact found.trans (redirectMarked_kept (storeUri reached ref) _)
      · split
        · next done =>
            rw [done] at stored
            exact found.trans stored
        · next done =>
            rw [done] at stored
            exact (found.trans stored).trans (redirectMarked_kept _ _)

theorem authenticate_kept (situation : Situation) :
    Kept situation (form.authenticate uuid crawlerAgents others situation).1 := by
  have login := (Scheme.doLogin_honest uuid crawlerAgents others form.base situation
    (situation.request.getArg formUsername) (situation.request.getArg formPassword)).input
  unfold authenticate
  split
  · split
    · next done =>
        rw [done] at login
        exact login
    · next done =>
        rw [done] at login
        exact login.trans (resume_kept uuid crawlerAgents _)
    · next done =>
        rw [done] at login
        exact login.trans (retry_kept uuid crawlerAgents form _)
  · exact suspend_kept uuid crawlerAgents form situation

theorem admits_kept (situation : Situation) : Kept situation (Authenticator.admits uuid crawlerAgents
    (form.authenticate uuid crawlerAgents others) situation).1 := by
  have first := (Situation.isAuthenticated_honest uuid crawlerAgents situation).input
  unfold Authenticator.admits
  split
  · next done =>
      rw [done] at first
      exact first
  · next done =>
      rw [done] at first
      exact first
  · next done =>
      rw [done] at first
      exact first.trans (authenticate_kept uuid crawlerAgents others form _)

def isLoginPage (url : Bytes) : Prop := url = form.formAction ∨ url = form.urlPrefix ++ form.formAction

/-- The subject of the request holds the role of every constraint that a URL matches. -/
def Privileged (request : Request) (url : Bytes) : Prop :=
  ∀ constraint ∈ form.base.constraints, constraint.checkUrl url = true →
    request.getSubject.hasPrincipal form.base.hash constraint.role = true

/-- A protected request for another page than the login form is passed on in its roles only. -/
def Mediates (next : Situation → Step Unit) (situation : Situation) : Prop :=
  ∀ invoked, (form.doFilter uuid crawlerAgents others next situation).invoked = some invoked →
    (∃ constraint ∈ form.base.constraints, constraint.check situation.request = true) →
    form.Privileged invoked.request situation.request.getScriptName ∨
      form.isLoginPage situation.request.getScriptName

theorem doFilter_invoked (next : Situation → Step Unit) (situation : Situation) :
    (form.doFilter uuid crawlerAgents others next situation).invoked =
      (form.base.doFilter uuid crawlerAgents (form.isAuthenticationRequired uuid crawlerAgents others)
        (form.authenticate uuid crawlerAgents others) next situation).invoked := by
  unfold doFilter
  simp only
  split
  · rfl
  · split <;> rfl

theorem checked_privileged (next : Situation → Step Unit) (situation invoked : Situation)
    (checked : (form.isAuthenticationRequired uuid crawlerAgents others situation).2 = .ok true)
    (called : (form.doFilter uuid crawlerAgents others next situation).invoked = some invoked) :
    form.Privileged invoked.request situation.request.getScriptName := by
  have asked := isAuthenticationRequired_kept uuid crawlerAgents others form situation
  rw [doFilter_invoked, Authenticator.doFilter] at called
  generalize form.isAuthenticationRequired uuid crawlerAgents others situation = step
    at asked checked called
  obtain ⟨reached, outcome⟩ := step
  simp only at checked
  subst checked
  simp only at called
  have admitted := admits_kept uuid crawlerAgents others form reached
  split at called
  · simp at called
  · next after done =>
      rw [done] at admitted
      split at called
      · next authorized =>
          have same : after = invoked := by
            unfold Authenticator.proceed at called
            split at called
            · exact Option.some.inj called
            · exact Option.some.inj called
          subst same
          exact form.base.isAuthorized_roles (asked.trans admitted) authorized
      · split at called <;> simp at called
  · split at called <;> simp at called

/-- The requests whose URL ends like that of the login form, and which are not in the
roles that are asked for. -/
def Exposed (request : Request) : Prop :=
  form.formAction ≠ [] ∧ StringUtils.endsWith request.getScriptName form.formAction = true ∧
    ¬ form.isLoginPage request.getScriptName ∧ ¬ form.Privileged request request.getScriptName

theorem login_page_mediation (next : Situation → Step Unit) (situation : Situation) :
    form.Mediates uuid crawlerAgents others next situation ↔ ¬ form.Exposed situation.request := by
  constructor
  · rintro mediates ⟨named, ends, other, lacks⟩
    have exempt : form.isAuthenticationRequired uuid crawlerAgents others situation =
        (situation, .ok false) := by
      unfold isAuthenticationRequired
      rw [if_pos (by simpa [ends] using named)]
    have called : (form.doFilter uuid crawlerAgents others next situation).invoked = some situation := by
      rw [doFilter_invoked, Authenticator.doFilter, exempt]
    have guarded : ∃ constraint ∈ form.base.constraints,
        constraint.check situation.request = true := by
      by_contra free
      apply lacks
      intro constraint member matched
      exact absurd ⟨constraint, member, matched⟩ free
    rcases mediates situation called guarded with roles | page
    · exact lacks roles
    · exact other page
  · intro hidden invoked called guarded
    by_cases suffix : (!form.formAction.isEmpty &&
        StringUtils.endsWith situation.request.getScriptName form.formAction) = true
    · have same : invoked = situation := by
        rw [doFilter_invoked, Authenticator.doFilter, isAuthenticationRequired, if_pos suffix] at called
        exact (Option.some.inj called).symm
      subst same
      by_contra neither
      rw [not_or] at neither
      simp only [Bool.and_eq_true, Bool.not_eq_true', List.isEmpty_eq_false_iff] at suffix
      exact hidden ⟨suffix.1, suffix.2, neither.2, neither.1⟩
    · apply Or.inl
      cases checked : (form.isAuthenticationRequired uuid crawlerAgents others situation).2 with
      | error failure =>
          rw [doFilter_invoked, Authenticator.doFilter] at called
          split at called
          · simp at called
          · next done => simp [done] at checked
          · next done => simp [done] at checked
      | ok required =>
          have demanded : required = true := by
            have matched : form.base.isAuthenticationRequired situation.request = true :=
              List.any_eq_true.mpr guarded
            unfold isAuthenticationRequired at checked
            rw [if_neg suffix] at checked
            split at checked
            · split at checked
              · cases checked
              · cases checked
                rfl
            · rw [matched] at checked
              exact (Except.ok.inj checked).symm
          subst demanded
          exact checked_privileged uuid crawlerAgents others form next situation invoked checked called

end Generator

/-- Everything below `/admin` is for managers; the login form is at `/login`. -/
def sampleForm : FormAuthenticator where
  base :=
    { Scheme.sampleGuard with
      constraints := [⟨fun url => StringUtils.beginsWith url (ascii "/admin"), [], ascii "manager"⟩] }
  urlPrefix := []
  formAction := ascii "/login"
  cacheDir := ascii "/tmp/"
  window := 4096
  pageSize := 4096
  wide _ := false
  storeRequest := false
  openFile _ := .ok []
  replaceAction page _ := page

def sampleAdminLogin : Situation where
  sessions := none
  heap := []
  request := { Request.fresh with
    vars := OrderedMap.empty.assign (ascii "SCRIPT_NAME") (ascii "/admin/login") }
  responseStream := []

theorem admin_login_is_exposed :
    ¬ sampleForm.Mediates (fun _ => []) (fun _ => false) [] (fun situation => (situation, .ok ()))
      sampleAdminLogin := by
  intro mediates
  have called : (sampleForm.doFilter (fun _ => []) (fun _ => false) []
      (fun situation => (situation, .ok ())) sampleAdminLogin).invoked = some sampleAdminLogin := rfl
  have verdict := mediates sampleAdminLogin called ⟨_, List.mem_singleton.mpr rfl, by decide +kernel⟩
  rcases verdict with privileged | page
  · have role := privileged _ (List.mem_singleton.mpr rfl) (by decide +kernel)
    exact absurd role (by decide +kernel)
  · rcases page with same | same
    · exact absurd same (by decide +kernel)
    · exact absurd same (by decide +kernel)

end FormAuthenticator

end FastcgiContainer
