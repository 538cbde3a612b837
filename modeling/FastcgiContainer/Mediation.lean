import FastcgiContainer.AuthenticatorFilter

/-! Which requests reach the next filter behind an authenticator. -/

namespace FastcgiContainer

open Word (Bytes)

namespace Request

/-- What was parsed from the client's input, and what no filter changes. -/
structure SameInput (request next : Request) : Prop where
  vars : next.vars = request.vars
  args : next.args = request.args

theorem SameInput.refl (request : Request) : SameInput request request := ⟨rfl, rfl⟩

theorem SameInput.trans {first second third : Request} (left : SameInput first second)
    (right : SameInput second third) : SameInput first third :=
  ⟨right.vars.trans left.vars, right.args.trans left.args⟩

theorem SameInput.scriptName {request next : Request} (same : SameInput request next) :
    next.getScriptName = request.getScriptName := by
  simp only [getScriptName, getEnvVariable, same.vars]

theorem setCookie_input {request next : Request} {cookie : Cookie}
    (done : request.setCookie cookie = .ok next) : SameInput request next := by
  unfold setCookie at done
  split at done
  · cases done
  · cases done
    exact ⟨rfl, rfl⟩

theorem setHeader_input {request next : Request} {name value : Bytes}
    (done : request.setHeader name value = .ok next) : SameInput request next := by
  unfold setHeader at done
  split at done
  · cases done
  · cases done
    exact ⟨rfl, rfl⟩

theorem setStatus_input {request next : Request} {status : Nat}
    (done : request.setStatus status = .ok next) : SameInput request next := by
  unfold setStatus at done
  split at done
  · cases done
  · cases done
    exact ⟨rfl, rfl⟩

theorem setSubject_input {request next : Request} {subject : Subject}
    (done : request.setSubject subject = .ok next) : SameInput request next := by
  unfold setSubject at done
  split at done
  · cases done
    exact ⟨rfl, rfl⟩
  · split at done
    · cases done
    · cases done
      exact ⟨rfl, rfl⟩

section Generator

variable (uuid : Nat → Bytes) (crawlerAgents : Bytes → Bool)

theorem getSession_input (request : Request) (manager : SessionManager) :
    SameInput request (request.getSession uuid crawlerAgents manager).2 := by
  unfold getSession
  split
  · exact SameInput.refl request
  · split
    · next after ref next done =>
        unfold SessionManager.get at done
        split at done
        · cases done
          exact ⟨rfl, rfl⟩
        · obtain ⟨_, made⟩ := Prod.mk.inj done
          obtain ⟨answered, set, named⟩ := bind_eq_ok _ _ _ made
          cases named
          have kept := setCookie_input set
          exact ⟨kept.vars, kept.args⟩
    · exact SameInput.refl request

theorem changeSessionId_input {request next : Request} {others : List Nat}
    {manager after : SessionManager}
    (done : request.changeSessionId uuid crawlerAgents others manager = (after, .ok next)) :
    SameInput request next := by
  unfold changeSessionId SessionManager.changeId at done
  split at done
  · cases done
    exact SameInput.refl request
  · simp only at done
    split at done
    · cases done
    · obtain ⟨_, set⟩ := Prod.mk.inj done
      exact setCookie_input set

theorem authenticated_input (request : Request) (manager : SessionManager) :
    SameInput request (Authenticator.isAuthenticated uuid crawlerAgents request manager).2.1 := by
  have found := getSession_input uuid crawlerAgents request manager
  unfold Authenticator.isAuthenticated
  split
  · simp only
    split
    · exact found
    · split
      · exact found
      · split
        · exact found
        · next assigned => exact found.trans (setSubject_input assigned)
  · exact SameInput.refl request

variable (authenticator : Authenticator)

theorem storeSubject_input {request next : Request} {others : List Nat}
    {manager after : SessionManager} {subject : Subject}
    (done : authenticator.storeSubject uuid crawlerAgents request others manager subject =
      (after, .ok next)) : SameInput request next := by
  unfold Authenticator.storeSubject at done
  split at done
  · cases done
    exact SameInput.refl request
  · simp only at done
    split at done
    · exact changeSessionId_input uuid crawlerAgents done
    · cases done
      exact SameInput.refl request

theorem assigned_input (request : Request) (others : List Nat) (manager : SessionManager)
    (subject : Subject) : SameInput request
      (authenticator.setSubject uuid crawlerAgents request others manager subject).2.1 := by
  have found := getSession_input uuid crawlerAgents request manager
  unfold Authenticator.setSubject
  simp only
  split
  · exact found
  · next stored =>
      have kept := found.trans (storeSubject_input uuid crawlerAgents authenticator stored)
      split
      · exact kept
      · next assigned => exact kept.trans (setSubject_input assigned)

end Generator

end Request

namespace Situation

@[simp] theorem resetSubject_eq (situation : Situation) : situation.resetSubject =
    ({ situation with request := { situation.request with subject := none } }, .ok ()) := rfl

theorem mapError_ok {α : Type} {result : Except Exn α} {value : α}
    (done : result.mapError Failure.exn = .ok value) : result = .ok value := by
  cases result with
  | error exn => cases done
  | ok other =>
      cases done
      rfl

theorem mapError_error {α : Type} {result : Except Exn α} {failure : Failure}
    (failed : result.mapError Failure.exn = .error failure) : ∃ exn, failure = .exn exn := by
  cases result with
  | error exn =>
      cases failed
      exact ⟨exn, rfl⟩
  | ok other => cases failed

/-- The steps of a filter keep the client's input, and fail by exceptions only. -/
structure Honest {α : Type} (situation : Situation) (step : Step α) : Prop where
  input : situation.request.SameInput step.1.request
  failure : ∀ failure, step.2 = .error failure → ∃ exn, failure = .exn exn

theorem Honest.update (situation : Situation) (result : Except Exn Request)
    (kept : ∀ next, result = .ok next → situation.request.SameInput next) :
    Honest situation (situation.update result) := by
  cases result with
  | error exn => exact ⟨Request.SameInput.refl _, fun failure failed => ⟨exn, by cases failed; rfl⟩⟩
  | ok next => exact ⟨kept next rfl, fun failure failed => by cases failed⟩

theorem Honest.done {α : Type} (situation : Situation) (value : α) :
    Honest situation (situation, .ok value) :=
  ⟨Request.SameInput.refl _, fun failure failed => by cases failed⟩

section Generator

variable (uuid : Nat → Bytes) (crawlerAgents : Bytes → Bool) (others : List Nat)
variable (authenticator : Authenticator)

def Cached (situation : Situation) (subject : Subject) : Prop :=
  ∃ manager ref session, situation.sessions = some manager ∧
    (situation.request.getSession uuid crawlerAgents manager).2.session = some ref ∧
    (situation.request.getSession uuid crawlerAgents manager).1.objects[ref]? = some session ∧
    session.getSubject = subject

theorem isAuthenticated_honest (situation : Situation) :
    Honest situation (situation.isAuthenticated uuid crawlerAgents) := by
  unfold isAuthenticated
  split
  · exact Honest.done situation _
  · next manager found =>
      exact ⟨Request.authenticated_input uuid crawlerAgents _ _, fun _ failed => mapError_error failed⟩

theorem isAuthenticated_headers (situation : Situation) :
    (situation.isAuthenticated uuid crawlerAgents).1.request.headers = situation.request.headers := by
  unfold isAuthenticated
  split
  · rfl
  · next manager found =>
      rcases Request.isAuthenticated_cases uuid crawlerAgents situation.request manager with
        ⟨_, kept⟩ | ⟨_, _, client, _⟩
      · simp only [kept]
      · exact client.headers

theorem isAuthenticated_admits (situation : Situation)
    (admitted : (situation.isAuthenticated uuid crawlerAgents).2 = .ok true) :
    let subject := (situation.isAuthenticated uuid crawlerAgents).1.request.getSubject
    subject.isAnonymous = false ∧
      (situation.request.subject = some subject ∨ situation.Cached uuid crawlerAgents subject) := by
  have attached : situation.request.getSubject.isAnonymous = false →
      situation.request.subject = some situation.request.getSubject := by
    intro known
    cases owner : situation.request.subject with
    | none =>
        rw [Request.getSubject, owner] at known
        exact absurd known (by decide +kernel)
    | some subject => rw [Request.getSubject, owner, Option.getD_some]
  unfold isAuthenticated at admitted ⊢
  split at admitted
  · next missing =>
      simp only [Except.ok.injEq, Bool.not_eq_true'] at admitted
      exact ⟨admitted, Or.inl (attached admitted)⟩
  · next manager found =>
      simp only
      by_cases anonymous : situation.request.getSubject.isAnonymous = true
      · obtain ⟨ref, session, held, live, known, _, assigned⟩ :=
          Request.isAuthenticated_source uuid crawlerAgents anonymous (mapError_ok admitted)
        rw [Request.getSubject, assigned]
        exact ⟨known, Or.inr ⟨manager, ref, session, found, held, live, rfl⟩⟩
      · have known : situation.request.getSubject.isAnonymous = false := by simpa using anonymous
        rcases Request.isAuthenticated_cases uuid crawlerAgents situation.request manager with
          ⟨_, kept⟩ | ⟨unknown, _⟩
        · rw [kept]
          exact ⟨known, Or.inl (attached known)⟩
        · exact absurd unknown anonymous

theorem setSubject_honest (situation : Situation) (subject : Subject) :
    Honest situation (situation.setSubject uuid crawlerAgents others authenticator subject) := by
  unfold setSubject
  split
  · exact Honest.update situation _ (fun next done => Request.setSubject_input done)
  · next manager found =>
      exact ⟨Request.assigned_input uuid crawlerAgents authenticator _ _ _ _,
        fun _ failed => mapError_error failed⟩

theorem assigned_subject {request next : Request} {subject : Subject}
    (known : subject.isAnonymous = false) (done : request.setSubject subject = .ok next) :
    next.subject = some subject := by
  unfold Request.setSubject at done
  rw [if_neg (by simp [known])] at done
  split at done
  · cases done
  · cases done
    rfl

theorem setSubject_assigns (situation : Situation) (subject : Subject)
    (known : subject.isAnonymous = false)
    (done : (situation.setSubject uuid crawlerAgents others authenticator subject).2 = .ok ()) :
    (situation.setSubject uuid crawlerAgents others authenticator subject).1.request.subject =
      some subject := by
  unfold setSubject at done ⊢
  split at done
  · cases assigned : situation.request.setSubject subject with
    | error exn =>
        rw [assigned] at done
        cases done
    | ok next => exact assigned_subject known assigned
  · next manager found =>
      have stored := mapError_ok done
      simp only
      unfold Authenticator.setSubject at stored ⊢
      simp only at stored ⊢
      split at stored
      · cases stored
      · split at stored
        · cases stored
        · next assigned => exact assigned_subject known assigned

theorem adopt_honest (situation : Situation) (answer : Except Exn (Option Subject)) :
    Honest situation (situation.adopt uuid crawlerAgents others authenticator answer) := by
  cases answer with
  | error exn => exact ⟨Request.SameInput.refl _, fun failure failed => ⟨exn, by cases failed; rfl⟩⟩
  | ok answer =>
      cases answer with
      | none => exact Honest.done situation _
      | some subject =>
          have honest := setSubject_honest uuid crawlerAgents others authenticator situation subject
          simp only [adopt]
          split
          · next done =>
              rw [done] at honest
              exact ⟨honest.input, fun failure failed => honest.failure failure (by simpa using failed)⟩
          · next done =>
              rw [done] at honest
              exact ⟨honest.input, fun failure failed => by cases failed⟩

theorem adopt_admits (situation : Situation) (answer : Except Exn (Option Subject))
    (admitted : (situation.adopt uuid crawlerAgents others authenticator answer).2 = .ok true) :
    ∃ subject, answer = .ok (some subject) ∧ subject.isAnonymous = false ∧
      (situation.adopt uuid crawlerAgents others authenticator answer).1.request.subject =
        some subject := by
  cases answer with
  | error exn => cases admitted
  | ok answer =>
      cases answer with
      | none => cases admitted
      | some subject =>
          have assigns := setSubject_assigns uuid crawlerAgents others authenticator situation subject
          simp only [adopt] at admitted ⊢
          split at admitted
          · cases admitted
          · next done =>
              rw [done] at assigns
              have known : subject.isAnonymous = false := by simpa using admitted
              exact ⟨subject, rfl, known, assigns known rfl⟩

end Generator

end Situation

/-- The authenticators that need no page of their own. -/
inductive Scheme where
  | basic
  | delegated

namespace Scheme

/-- The realm was asked for the user of a request, and has returned the subject. -/
def Returned : Scheme → Realm → Request → Subject → Prop
  | basic, realm, request, subject => ∃ username password,
      BasicAuthenticator.credentials request = .ok (some (username, password)) ∧
        realm.authenticate username password = .ok (some subject)
  | delegated, realm, request, subject => request.getRemoteUser ≠ [] ∧
      if request.getRemotePassword = [] then realm.getSubject request.getRemoteUser = .ok (some subject)
      else realm.authenticate request.getRemoteUser request.getRemotePassword = .ok (some subject)

theorem Returned.transfer {scheme : Scheme} {realm : Realm} {request next : Request}
    {subject : Subject} (returned : scheme.Returned realm next subject)
    (input : request.SameInput next) (headers : next.headers = request.headers) :
    scheme.Returned realm request subject := by
  cases scheme with
  | basic =>
      have same : BasicAuthenticator.credentials next = BasicAuthenticator.credentials request := by
        unfold BasicAuthenticator.credentials Request.hasHeader Request.getHeader
        rw [headers]
      simp only [Returned] at returned ⊢
      rw [same] at returned
      exact returned
  | delegated =>
      have user : next.getRemoteUser = request.getRemoteUser := by
        rw [Request.getRemoteUser, Request.getEnvVariable, input.vars]
        rfl
      have password : next.getRemotePassword = request.getRemotePassword := by
        rw [Request.getRemotePassword, Request.getEnvVariable, input.vars]
        rfl
      simp only [Returned] at returned ⊢
      rw [user, password] at returned
      exact returned

section Generator

variable (uuid : Nat → Bytes) (crawlerAgents : Bytes → Bool) (others : List Nat)
variable (authenticator : Authenticator)

def authenticate : Scheme → Situation → Step Bool
  | basic => BasicAuthenticator.authenticate uuid crawlerAgents others authenticator
  | delegated => DelegatedAuthenticator.authenticate uuid crawlerAgents others authenticator

def doFilter (scheme : Scheme) : (Situation → Step Unit) → Situation → Filtered :=
  authenticator.doFilter uuid crawlerAgents authenticator.requires
    (scheme.authenticate uuid crawlerAgents others authenticator)

theorem challenge_input {request next : Request}
    (done : BasicAuthenticator.challenge authenticator request = .ok next) :
    request.SameInput next := by
  unfold BasicAuthenticator.challenge at done
  split at done
  · cases done
  · obtain ⟨asked, first, rest⟩ := bind_eq_ok _ _ _ done
    obtain ⟨refused, second, last⟩ := bind_eq_ok _ _ _ rest
    cases last
    have kept := (Request.setHeader_input first).trans (Request.setStatus_input second)
    exact ⟨kept.vars, kept.args⟩

theorem doLogin_honest (situation : Situation) (username password : Bytes) : situation.Honest
    (situation.doLogin uuid crawlerAgents others authenticator username password) := by
  unfold Situation.doLogin
  split
  · exact Situation.Honest.done situation _
  · exact Situation.adopt_honest uuid crawlerAgents others authenticator situation _

theorem authenticate_honest (scheme : Scheme) (situation : Situation) : situation.Honest
    (scheme.authenticate uuid crawlerAgents others authenticator situation) := by
  cases scheme with
  | basic =>
      have asked := Situation.Honest.update situation
        (BasicAuthenticator.challenge authenticator situation.request)
        (fun next done => challenge_input authenticator done)
      simp only [authenticate, BasicAuthenticator.authenticate]
      split
      · next exn _ => exact ⟨Request.SameInput.refl _, fun failure failed => ⟨exn, by cases failed; rfl⟩⟩
      · exact doLogin_honest uuid crawlerAgents others authenticator situation _ _
      · split
        · next done =>
            rw [done] at asked
            exact ⟨asked.input, fun failure failed => asked.failure failure (by simpa using failed)⟩
        · next done =>
            rw [done] at asked
            exact ⟨asked.input, fun failure failed => by cases failed⟩
  | delegated =>
      simp only [authenticate, DelegatedAuthenticator.authenticate]
      split
      · exact Situation.Honest.done situation _
      · split
        · exact Situation.Honest.done situation _
        · split
          · exact Situation.adopt_honest uuid crawlerAgents others authenticator situation _
          · exact doLogin_honest uuid crawlerAgents others authenticator situation _ _

theorem doLogin_admits (situation : Situation) (username password : Bytes)
    (admitted : (situation.doLogin uuid crawlerAgents others authenticator username password).2 =
      .ok true) :
    ∃ realm subject, authenticator.realm = some realm ∧
      realm.authenticate username password = .ok (some subject) ∧ subject.isAnonymous = false ∧
      (situation.doLogin uuid crawlerAgents others authenticator username
        password).1.request.subject = some subject := by
  unfold Situation.doLogin at admitted ⊢
  split at admitted
  · cases admitted
  · next realm known =>
      obtain ⟨subject, answer, named, assigned⟩ :=
        Situation.adopt_admits uuid crawlerAgents others authenticator situation _ admitted
      exact ⟨realm, subject, known, answer, named, assigned⟩

theorem authenticate_admits (scheme : Scheme) (situation : Situation)
    (admitted : (scheme.authenticate uuid crawlerAgents others authenticator situation).2 = .ok true) :
    ∃ realm subject, authenticator.realm = some realm ∧
      scheme.Returned realm situation.request subject ∧ subject.isAnonymous = false ∧
      (scheme.authenticate uuid crawlerAgents others authenticator situation).1.request.subject =
        some subject := by
  cases scheme with
  | basic =>
      simp only [authenticate, BasicAuthenticator.authenticate] at admitted ⊢
      split at admitted
      · cases admitted
      · next username password parsed =>
          obtain ⟨realm, subject, known, answer, named, assigned⟩ :=
            doLogin_admits uuid crawlerAgents others authenticator situation _ _ admitted
          exact ⟨realm, subject, known, ⟨username, password, parsed, answer⟩, named, assigned⟩
      · split at admitted <;> cases admitted
  | delegated =>
      simp only [authenticate, DelegatedAuthenticator.authenticate] at admitted ⊢
      split at admitted
      · cases admitted
      · next realm known =>
          split at admitted
          · cases admitted
          · next named =>
              have user : situation.request.getRemoteUser ≠ [] := by simpa using named
              simp only [known, if_neg named]
              split at admitted
              · next silent =>
                  have empty : situation.request.getRemotePassword = [] := by simpa using silent
                  obtain ⟨subject, answer, owner, assigned⟩ :=
                    Situation.adopt_admits uuid crawlerAgents others authenticator situation _ admitted
                  refine ⟨realm, subject, rfl, ⟨user, ?_⟩, owner, ?_⟩
                  · rw [if_pos empty]
                    exact answer
                  · rw [if_pos silent]
                    exact assigned
              · next silent =>
                  have filled : situation.request.getRemotePassword ≠ [] := by simpa using silent
                  obtain ⟨other, subject, same, answer, owner, assigned⟩ :=
                    doLogin_admits uuid crawlerAgents others authenticator situation _ _ admitted
                  obtain rfl : realm = other := Option.some.inj (known.symm.trans same)
                  refine ⟨realm, subject, rfl, ⟨user, ?_⟩, owner, ?_⟩
                  · rw [if_neg filled]
                    exact answer
                  · rw [if_neg silent]
                    exact assigned

/-- Where the subject of a request that passes the filter may come from. -/
def Source (scheme : Scheme) (situation : Situation) (subject : Subject) : Prop :=
  situation.request.subject = some subject ∨ situation.Cached uuid crawlerAgents subject ∨
    ∃ realm, authenticator.realm = some realm ∧ scheme.Returned realm situation.request subject

theorem admits_honest (scheme : Scheme) (situation : Situation) : situation.Honest
    (Authenticator.admits uuid crawlerAgents
      (scheme.authenticate uuid crawlerAgents others authenticator) situation) := by
  have first := Situation.isAuthenticated_honest uuid crawlerAgents situation
  unfold Authenticator.admits
  split
  · next done =>
      rw [done] at first
      exact ⟨first.input, fun failure failed => first.failure failure (by simpa using failed)⟩
  · next done =>
      rw [done] at first
      exact ⟨first.input, fun failure failed => by cases failed⟩
  · next done =>
      rw [done] at first
      have second := authenticate_honest uuid crawlerAgents others authenticator scheme
      exact ⟨first.input.trans (second _).input, (second _).failure⟩

theorem admits_source (scheme : Scheme) (situation : Situation)
    (admitted : (Authenticator.admits uuid crawlerAgents
      (scheme.authenticate uuid crawlerAgents others authenticator) situation).2 = .ok true) :
    let subject := (Authenticator.admits uuid crawlerAgents
      (scheme.authenticate uuid crawlerAgents others authenticator) situation).1.request.getSubject
    subject.isAnonymous = false ∧ scheme.Source uuid crawlerAgents authenticator situation subject := by
  have known := Situation.isAuthenticated_admits uuid crawlerAgents situation
  have first := Situation.isAuthenticated_honest uuid crawlerAgents situation
  have headers := Situation.isAuthenticated_headers uuid crawlerAgents situation
  unfold Authenticator.admits at admitted ⊢
  split at admitted
  · cases admitted
  · next done =>
      rw [done] at known
      obtain ⟨named, source⟩ := known rfl
      exact ⟨named, source.imp_right Or.inl⟩
  · next after done =>
      rw [done] at first headers
      obtain ⟨realm, subject, present, returned, named, assigned⟩ :=
        authenticate_admits uuid crawlerAgents others authenticator scheme after admitted
      simp only [Request.getSubject, assigned, Option.getD_some]
      exact ⟨named, Or.inr (Or.inr ⟨realm, present, returned.transfer first.input headers⟩)⟩

end Generator

end Scheme

namespace Authenticator

theorem check_input (constraint : SecurityConstraint) {request next : Request}
    (input : request.SameInput next) : constraint.check next = constraint.check request := by
  rw [SecurityConstraint.check, input.scriptName]
  rfl

theorem isAuthorized_roles (authenticator : Authenticator) {request next : Request}
    (input : request.SameInput next) (authorized : authenticator.isAuthorized next = true) :
    ∀ constraint ∈ authenticator.constraints, constraint.check request = true →
      next.getSubject.hasPrincipal authenticator.hash constraint.role = true := by
  intro constraint member matched
  simp only [isAuthorized, Bool.not_eq_true', List.any_eq_false, Bool.and_eq_true, not_and,
    Bool.not_eq_false] at authorized
  exact authorized constraint member ((check_input constraint input).trans matched)

end Authenticator

namespace Scheme

section Generator

variable (uuid : Nat → Bytes) (crawlerAgents : Bytes → Bool) (others : List Nat)
variable (authenticator : Authenticator)

structure Admitted (scheme : Scheme) (situation invoked : Situation) : Prop where
  known : invoked.request.getSubject.isAnonymous = false
  roles : ∀ constraint ∈ authenticator.constraints, constraint.check situation.request = true →
    invoked.request.getSubject.hasPrincipal authenticator.hash constraint.role = true
  source : scheme.Source uuid crawlerAgents authenticator situation invoked.request.getSubject

/-- A protected request is passed on with a known subject in all the roles that are asked
for; or it is refused, or answered by the filter. It leaves without a subject. -/
theorem protected_request_is_mediated (scheme : Scheme) (next : Situation → Step Unit)
    (situation : Situation)
    (guarded : ∃ constraint ∈ authenticator.constraints, constraint.check situation.request = true) :
    let filtered := scheme.doFilter uuid crawlerAgents others authenticator next situation
    (∀ invoked, filtered.invoked = some invoked →
      scheme.Admitted uuid crawlerAgents authenticator situation invoked ∧
        (filtered.result = .ok () →
          filtered.situation.request.getSubject = Subject.anonymousSubject)) ∧
    (filtered.invoked = none →
      filtered.result = .error .unauthorized ∨ filtered.result = .error .forbidden ∨
        (∃ exn, filtered.result = .error (.exn exn)) ∨
        filtered.situation.request.processed = true) := by
  intro filtered
  have required : authenticator.isAuthenticationRequired situation.request = true :=
    List.any_eq_true.mpr guarded
  have honest := admits_honest uuid crawlerAgents others authenticator scheme situation
  have source := admits_source uuid crawlerAgents others authenticator scheme situation
  simp only [filtered, doFilter, Authenticator.doFilter, Authenticator.requires, required]
  generalize Authenticator.admits uuid crawlerAgents
    (scheme.authenticate uuid crawlerAgents others authenticator) situation = step at honest source ⊢
  obtain ⟨reached, outcome⟩ := step
  cases outcome with
  | error failure =>
      obtain ⟨exn, rfl⟩ := honest.failure failure rfl
      exact ⟨fun invoked called => by simp at called, fun _ => Or.inr (Or.inr (Or.inl ⟨exn, rfl⟩))⟩
  | ok admitted =>
      cases admitted with
      | false =>
          simp only
          split
          · next processed =>
              exact ⟨fun invoked called => by simp at called, fun _ => Or.inr (Or.inr (Or.inr processed))⟩
          · exact ⟨fun invoked called => by simp at called, fun _ => Or.inr (Or.inl rfl)⟩
      | true =>
          simp only
          split
          · next authorized =>
              have roles := authenticator.isAuthorized_roles honest.input authorized
              obtain ⟨known, origin⟩ := source rfl
              unfold Authenticator.proceed
              split
              · refine ⟨?_, fun missed => by simp at missed⟩
                intro invoked called
                cases called
                exact ⟨⟨known, roles, origin⟩, fun done => by cases done⟩
              · refine ⟨?_, fun missed => by simp at missed⟩
                intro invoked called
                cases called
                exact ⟨⟨known, roles, origin⟩, fun _ => rfl⟩
          · exact ⟨fun invoked called => by simp at called, fun _ => Or.inl rfl⟩

end Generator

def sampleRealm : Realm where
  name := ascii "office"
  authenticate username password :=
    .ok (if username = ascii "bob" ∧ password = ascii "pw" then some ⟨[ascii "manager"], false⟩ else none)
  getSubject _ := .ok none

def sampleGuard : Authenticator where
  changeSessionIdOnAuthentication := true
  realm := some sampleRealm
  constraints := [⟨fun url => url == ascii "/admin", [], ascii "manager"⟩]
  hash name := name.foldl (fun sum symbol => 31 * sum + symbol.toNat) 7

def sampleVisit : Situation where
  sessions := none
  heap := []
  request := { Request.fresh with
    vars := OrderedMap.empty.assign (ascii "SCRIPT_NAME") (ascii "/admin")
    headers := OrderedMap.empty.assign (ascii "Authorization") (ascii "Basic Ym9iOnB3") }
  responseStream := []

theorem protected_request_is_mediated_basic :
    ∃ invoked, (Scheme.basic.doFilter (fun _ => []) (fun _ => false) [] sampleGuard
        (fun situation => (situation, .ok ())) sampleVisit).invoked = some invoked ∧
      Scheme.basic.Admitted (fun _ => []) (fun _ => false) sampleGuard sampleVisit invoked := by
  have called : (Scheme.basic.doFilter (fun _ => []) (fun _ => false) [] sampleGuard
      (fun situation => (situation, .ok ())) sampleVisit).invoked.isSome = true := by decide +kernel
  obtain ⟨invoked, called⟩ := Option.isSome_iff_exists.mp called
  have mediated := protected_request_is_mediated (fun _ => []) (fun _ => false) [] sampleGuard .basic
    (fun situation => (situation, .ok ())) sampleVisit ⟨_, List.mem_singleton.mpr rfl, by decide +kernel⟩
  exact ⟨invoked, called, (mediated.1 invoked called).1⟩

end Scheme

end FastcgiContainer
