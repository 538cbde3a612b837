import FastcgiContainer.FormAuthenticator
import FastcgiContainer.SessionFailures
import FastcgiContainer.SessionFixation

/-! What becomes of a login: `FormAuthenticator::authenticate` returns `false` also where
the login succeeds, and the request is refused unless a stored request or a stored URL is
taken up again. -/

namespace FastcgiContainer

open Word (Bytes)

namespace SessionManager

theorem resolve_insert_cases {manager : SessionManager} {id key : Bytes} {ref other : Nat}
    (free : manager.resolve id = none)
    (found : { manager with sessions := manager.sessions.insert id ref }.resolve key = some other) :
    manager.resolve key = some other ∨ other = ref := by
  rw [resolve_insert_free ref free key] at found
  split at found
  · exact Or.inr (Option.some.inj found).symm
  · exact Or.inl found

section Generator

variable (uuid : Nat → Bytes) (crawlerAgents : Bytes → Bool) (request : Request)

theorem insertNew_free_resolves (fuel : Nat) {manager : SessionManager} {id key : Bytes} {ref : Nat}
    (free : manager.resolve id = none)
    (found : (insertNew uuid crawlerAgents request fuel manager id).1.resolve key = some ref) :
    manager.resolve key = some ref ∨ ref = (insertNew uuid crawlerAgents request fuel manager id).2 := by
  rw [insertNew_free uuid crawlerAgents request free] at found ⊢
  have new := (resolve_newSession manager id id).trans free
  rw [← resolve_newSession manager id key]
  exact resolve_insert_cases new found

theorem insertNew_resolves (fuel : Nat) (manager : SessionManager) (id : Bytes) {key : Bytes} {ref : Nat}
    (found : (insertNew uuid crawlerAgents request fuel manager id).1.resolve key = some ref) :
    manager.resolve key = some ref ∨ ref = (insertNew uuid crawlerAgents request fuel manager id).2 := by
  induction fuel generalizing manager id with
  | zero =>
      by_cases free : manager.resolve id = none
      · exact insertNew_free_resolves uuid crawlerAgents request 0 free found
      · unfold insertNew at found
        simp only [resolve_newSession, Option.isNone_iff_eq_none, free, if_false] at found
        exact Or.inl found
  | succ fuel ih =>
      by_cases free : manager.resolve id = none
      · exact insertNew_free_resolves uuid crawlerAgents request (fuel + 1) free found
      · rw [insertNew_taken uuid crawlerAgents request free] at found ⊢
        rcases ih _ _ found with old | new
        · simp only [dropped, resolve, find?_erase] at old
          split at old
          · cases old
          · exact Or.inl old
        · exact Or.inr new

theorem createInternal_resolves {manager : SessionManager} {key : Bytes} {ref : Nat}
    (found : (createInternal uuid crawlerAgents manager request).1.resolve key = some ref) :
    manager.resolve key = some ref ∨ ref = (createInternal uuid crawlerAgents manager request).2 := by
  have same := resolve_getNewId uuid crawlerAgents request manager
  unfold createInternal at found ⊢
  simp only at found ⊢
  split at found
  · next other =>
      rw [if_pos other]
      rw [resolve_modify] at found
      rw [← same]
      exact insertNew_resolves uuid crawlerAgents request _ _ _ found
  · next other =>
      rw [if_neg other]
      split at found
      · rw [resolve_modify, same] at found
        exact Or.inl found
      · next free =>
          rw [resolve_modify] at found
          rw [← same]
          exact resolve_insert_cases free found

theorem moveEntry_ok_iff {manager : SessionManager} {cookie : Bytes}
    (known : (manager.resolve cookie).isSome = true) (held : List Nat) (id : Bytes) (ref : Nat) :
    (∃ moved, manager.moveEntry held cookie id ref = .ok moved) ↔ ref ∈ held ∨ id ≠ cookie := by
  unfold moveEntry
  split
  · next free =>
      have other : id ≠ cookie := by
        rintro rfl
        rw [Option.isNone_iff_eq_none.mp free] at known
        cases known
      simp [other]
  · split
    · next kept => simp [List.contains_iff_mem.mp kept]
    · next loose =>
        have absent : ref ∉ held := by simpa using loose
        split
        · next same => simp [absent, same]
        · next other => simp [other]

/-- The id of the session that the request names can be changed: the response has not
begun, and the generator does not repeat the id of a session that nobody holds. -/
def Renames (manager : SessionManager) (held : List Nat) : Prop :=
  ∀ ref, manager.named request = some ref → request.headersSent = false ∧
    (ref ∈ held ∨ newId uuid crawlerAgents request manager ≠ request.getCookie sessionCookieName)

@[simp] theorem renames_modify (manager : SessionManager) (held : List Nat) (ref : Nat)
    (change : Session → Session) :
    Renames uuid crawlerAgents request (manager.modify ref change) held ↔
      Renames uuid crawlerAgents request manager held := by
  simp only [Renames, named, resolve_modify, newId_modify]

theorem changeId_ok_iff (manager : SessionManager) (held : List Nat) :
    (∃ next, (changeId uuid crawlerAgents manager held request).2 = .ok next) ↔
      Renames uuid crawlerAgents request manager held := by
  unfold changeId Renames
  cases named : manager.named request with
  | none => simp
  | some ref =>
      have known := (named_eq named).2
      have same := resolve_getNewId uuid crawlerAgents request manager
      unfold newId
      simp only [Option.some.injEq, forall_eq']
      generalize getNewId uuid crawlerAgents manager request = drawn at same ⊢
      obtain ⟨drawn, id⟩ := drawn
      have listed : ((drawn.modify ref (fun session => { session with id })).resolve
          (request.getCookie sessionCookieName)).isSome = true := by
        rw [resolve_modify, same, known, Option.isSome_some]
      rw [← moveEntry_ok_iff listed held id ref]
      cases (drawn.modify ref (fun session => { session with id })).moveEntry held
        (request.getCookie sessionCookieName) id ref with
      | error exn => simp
      | ok moved =>
          cases sent : request.headersSent <;> simp [Request.setCookie, sent]

end Generator

end SessionManager

namespace Request

section Generator

variable (uuid : Nat → Bytes) (crawlerAgents : Bytes → Bool)

theorem setCookie_sent {request next : Request} {cookie : Cookie}
    (done : request.setCookie cookie = .ok next) : next.headersSent = request.headersSent := by
  unfold setCookie at done
  split at done
  · cases done
  · cases done
    rfl

theorem changeId_sent {request next : Request} {held : List Nat} {manager after : SessionManager}
    (done : SessionManager.changeId uuid crawlerAgents manager held request = (after, .ok next)) :
    next.headersSent = request.headersSent := by
  unfold SessionManager.changeId at done
  split at done
  · cases done
    rfl
  · simp only at done
    split at done
    · cases done
    · exact setCookie_sent (Prod.mk.inj done).2

theorem getSession_sent (request : Request) (manager : SessionManager) :
    (request.getSession uuid crawlerAgents manager).2.headersSent = request.headersSent := by
  unfold getSession
  split
  · rfl
  · split
    · next after ref next done =>
        unfold SessionManager.get at done
        split at done
        · cases done
          rfl
        · obtain ⟨_, made⟩ := Prod.mk.inj done
          obtain ⟨told, cookie, rest⟩ := bind_eq_ok _ _ _ made
          cases rest
          have kept := setCookie_sent cookie
          exact kept
    · rfl

theorem getSession_refused {request : Request} {manager : SessionManager} {ref : Nat}
    (free : request.session = none) (late : request.headersSent = true)
    (held : (request.getSession uuid crawlerAgents manager).2.session = some ref) :
    manager.named request = some ref ∧ (request.getSession uuid crawlerAgents manager).1 =
      manager.modify ref (fun session => { session with lastAccessed := manager.now }) := by
  cases named : manager.named request with
  | none =>
      simp [getSession, free, SessionManager.get, named, SessionManager.createWithCookie, setCookie,
        late] at held
  | some other =>
      rw [getSession_named uuid crawlerAgents free named] at held ⊢
      cases held
      exact ⟨rfl, rfl⟩

/-- Where a request got no session, it is too late for a new one, and what its cookie
names is a new session at most. -/
theorem getSession_late {request : Request} {manager : SessionManager}
    (missed : (request.getSession uuid crawlerAgents manager).2.session = none) :
    (request.getSession uuid crawlerAgents manager).2 = request ∧ request.headersSent = true ∧
      ∀ ref session, (request.getSession uuid crawlerAgents manager).1.named request = some ref →
        (request.getSession uuid crawlerAgents manager).1.objects[ref]? = some session →
          session.subject = none := by
  have held : request.session = none := by
    cases held : request.session with
    | none => rfl
    | some ref =>
        rw [getSession_held uuid crawlerAgents held, held] at missed
        cases missed
  cases named : manager.named request with
  | some ref =>
      rw [getSession_named uuid crawlerAgents held named] at missed
      cases missed
  | none =>
      have made := getSession_created uuid crawlerAgents held named
      have late : request.headersSent = true := by
        by_contra early
        simp [getSession, held, SessionManager.get, named, SessionManager.createWithCookie, setCookie,
          early] at missed
      refine ⟨?_, late, ?_⟩
      · simp [getSession, held, SessionManager.get, named, SessionManager.createWithCookie, setCookie, late]
      · intro ref session found live
        rw [made] at found live
        by_cases shares : SessionManager.SharesSession uuid crawlerAgents request manager
        · have same := SessionManager.createInternal_shares uuid crawlerAgents request shares
          unfold SessionManager.named at named found
          rw [same, named] at found
          cases found
        · obtain ⟨empty, there, _, anonymous⟩ :=
            SessionManager.createInternal_empty uuid crawlerAgents request shares
          obtain ⟨present, resolved⟩ := SessionManager.named_eq found
          rcases SessionManager.createInternal_resolves uuid crawlerAgents request resolved with old | rfl
          · rw [SessionManager.named, if_pos present, old] at named
            cases named
          · rw [there] at live
            cases live
            exact anonymous

end Generator

end Request

namespace Situation

section Generator

variable (uuid : Nat → Bytes) (crawlerAgents : Bytes → Bool) (others : List Nat)
variable (authenticator : Authenticator)

def dropped (situation : Situation) : Situation :=
  (situation.setSubject uuid crawlerAgents others authenticator Subject.anonymousSubject).1

theorem anonymous_known : Subject.anonymousSubject.isAnonymous = true := by decide +kernel

theorem setSubject_drops {situation : Situation} {manager : SessionManager}
    (present : situation.sessions = some manager) :
    situation.setSubject uuid crawlerAgents others authenticator Subject.anonymousSubject =
      let got := situation.request.getSession uuid crawlerAgents manager
      ({ situation with
        sessions := some (match got.2.session with
          | none => got.1
          | some ref => got.1.modify ref (fun session =>
              { session with subject := some Subject.anonymousSubject }))
        request := { got.2 with subject := none } }, .ok ()) := by
  simp only [setSubject, present, Authenticator.setSubject, Authenticator.storeSubject]
  cases held : (situation.request.getSession uuid crawlerAgents manager).2.session with
  | none => simp [Request.setSubject, anonymous_known, Except.mapError, held]
  | some ref => simp [Request.setSubject, anonymous_known, Except.mapError, held]

theorem setSubject_drops_only {situation : Situation} (missing : situation.sessions = none) :
    situation.setSubject uuid crawlerAgents others authenticator Subject.anonymousSubject =
      ({ situation with request := { situation.request with subject := none } }, .ok ()) := by
  simp [setSubject, missing, update, Request.setSubject, anonymous_known]

theorem setSubject_dropped (situation : Situation) :
    (situation.setSubject uuid crawlerAgents others authenticator Subject.anonymousSubject).2 = .ok () := by
  cases present : situation.sessions with
  | none => rw [setSubject_drops_only uuid crawlerAgents others authenticator present]
  | some manager => rw [setSubject_drops uuid crawlerAgents others authenticator present]

theorem dropped_unknown (situation : Situation) :
    ((situation.dropped uuid crawlerAgents others authenticator).isAuthenticated uuid crawlerAgents).2 ≠
      .ok true := by
  intro admitted
  obtain ⟨known, source⟩ := isAuthenticated_admits uuid crawlerAgents
    (situation.dropped uuid crawlerAgents others authenticator) admitted
  generalize ((situation.dropped uuid crawlerAgents others authenticator).isAuthenticated uuid
    crawlerAgents).1.request.getSubject = subject at known source
  have cleared : (situation.dropped uuid crawlerAgents others authenticator).request.subject = none := by
    cases present : situation.sessions with
    | none => rw [dropped, setSubject_drops_only uuid crawlerAgents others authenticator present]
    | some manager => rw [dropped, setSubject_drops uuid crawlerAgents others authenticator present]
  rcases source with own | ⟨after, ref, session, present, held, live, rfl⟩
  · cases cleared.symm.trans own
  · cases found : situation.sessions with
    | none =>
        rw [dropped, setSubject_drops_only uuid crawlerAgents others authenticator found] at present
        cases found.symm.trans present
    | some manager =>
        rw [dropped, setSubject_drops uuid crawlerAgents others authenticator found] at present held live
        dsimp only at present held live
        cases got : (situation.request.getSession uuid crawlerAgents manager).2.session with
        | some own =>
            simp only [got, Option.some.injEq] at present
            have idle := @Request.getSession_held uuid crawlerAgents
              { (situation.request.getSession uuid crawlerAgents manager).2 with subject := none } own got after
            rw [idle] at held live
            obtain rfl := Option.some.inj (got.symm.trans held)
            rw [← present, SessionManager.modify_itself] at live
            obtain ⟨old, _, rfl⟩ := Option.map_eq_some_iff.mp live
            simp [Session.getSubject, anonymous_known] at known
        | none =>
            simp only [got, Option.some.injEq] at present
            obtain ⟨same, late, fresh⟩ := Request.getSession_late uuid crawlerAgents got
            have free : situation.request.session = none := by rw [← same, got]
            rw [same] at held live
            rw [← present] at held live
            generalize (situation.request.getSession uuid crawlerAgents manager).1 = next at held live fresh
            obtain ⟨named, same⟩ := @Request.getSession_refused uuid crawlerAgents
              { situation.request with subject := none } next ref free late held
            rw [same, SessionManager.modify_itself] at live
            obtain ⟨old, there, rfl⟩ := Option.map_eq_some_iff.mp live
            have none := fresh ref old named there
            simp [Session.getSubject, none, anonymous_known] at known

theorem currentSession_found {situation : Situation} {ref : Nat} {session : Session}
    (current : (situation.currentSession uuid crawlerAgents).2 = some (ref, session)) :
    ∃ before manager request, situation.sessions = some before ∧
      situation.request.getSession uuid crawlerAgents before = (manager, request) ∧
      request.session = some ref ∧ manager.objects[ref]? = some session ∧
      (situation.currentSession uuid crawlerAgents).1 =
        { situation with sessions := some manager, request := request } := by
  unfold currentSession getSession at current ⊢
  cases found : situation.sessions with
  | none => simp [found] at current
  | some before =>
      simp only [found] at current ⊢
      generalize got : situation.request.getSession uuid crawlerAgents before = pair at current ⊢
      obtain ⟨manager, request⟩ := pair
      simp only [Option.bind_eq_some_iff, Option.some.injEq, exists_eq_left', Option.map_eq_some_iff,
        Prod.mk.injEq] at current
      obtain ⟨other, held, object, live, rfl, rfl⟩ := current
      exact ⟨before, manager, request, rfl, got, held, live, rfl⟩

section Held

variable {situation : Situation} {manager : SessionManager} {ref : Nat} {session : Session}
variable (present : situation.sessions = some manager) (held : situation.request.session = some ref)
variable (live : manager.objects[ref]? = some session)

include present held

theorem getSession_held : situation.getSession uuid crawlerAgents = (situation, some ref) := by
  simp only [getSession, present, Request.getSession_held uuid crawlerAgents held, held]
  rw [← present]

include live

theorem currentSession_held :
    situation.currentSession uuid crawlerAgents = (situation, some (ref, session)) := by
  simp only [currentSession, getSession_held uuid crawlerAgents present held, present, Option.bind_some,
    live, Option.map_some]

theorem isAuthenticated_held (free : situation.request.subject = none)
    (unknown : session.getSubject.isAnonymous = true) :
    situation.isAuthenticated uuid crawlerAgents = (situation, .ok false) := by
  have anonymous : situation.request.getSubject.isAnonymous = true := by
    simp [Request.getSubject, free, anonymous_known]
  simp only [isAuthenticated, present, Authenticator.isAuthenticated, anonymous,
    Request.getSession_held uuid crawlerAgents held, held, Option.bind_some, live, unknown, if_true,
    Except.mapError, Bool.not_true]
  rw [← present]

theorem setSubject_renames {subject : Subject} (known : subject.isAnonymous = false)
    (free : situation.request.subject = none)
    (renames : authenticator.changeSessionIdOnAuthentication = true →
      SessionManager.Renames uuid crawlerAgents situation.request manager (others ++ [ref])) :
    ∃ after next kept, situation.setSubject uuid crawlerAgents others authenticator subject =
        ({ situation with sessions := some after, request := next }, .ok ()) ∧
      next.session = some ref ∧ next.headersSent = situation.request.headersSent ∧
      after.objects[ref]? = some kept ∧ kept.attributes = session.attributes := by
  have stored : (manager.modify ref (fun session => { session with subject := some subject })).objects[
      ref]? = some { session with subject := some subject } := by
    rw [SessionManager.modify_itself, live, Option.map_some]
  simp only [setSubject, present, Authenticator.setSubject, Authenticator.storeSubject,
    Request.getSession_held uuid crawlerAgents held, held, known, Bool.not_false, Bool.true_and]
  by_cases changes : authenticator.changeSessionIdOnAuthentication = true
  · obtain ⟨next, changed⟩ := (SessionManager.changeId_ok_iff uuid crawlerAgents situation.request
      (manager.modify ref (fun session => { session with subject := some subject })) (others ++ [ref])).mpr
      ((SessionManager.renames_modify ..).mpr (renames changes))
    obtain ⟨kept, there, attributes, _⟩ := Request.changeId_objects uuid crawlerAgents _ (others ++ [ref])
      situation.request stored
    simp only [changes, if_true, Request.changeSessionId, held, Option.toList_some]
    generalize outcome : SessionManager.changeId uuid crawlerAgents
      (manager.modify ref (fun session => { session with subject := some subject })) (others ++ [ref])
      situation.request = result at changed there
    obtain ⟨after, answer⟩ := result
    simp only at changed there
    subst changed
    obtain ⟨_, session, owner⟩ := Request.changeId_kept uuid crawlerAgents outcome
    have sent := Request.changeId_sent uuid crawlerAgents outcome
    refine ⟨after, { next with subject := some subject }, kept, ?_, session.trans held, sent, there,
      attributes⟩
    simp [Request.setSubject, known, owner.trans free, Except.mapError]
  · refine ⟨_, { situation.request with subject := some subject }, _, ?_, held, rfl, stored, rfl⟩
    simp [changes, Request.setSubject, known, free, Except.mapError]

omit live in
theorem setSubject_stuck {subject : Subject} (known : subject.isAnonymous = false)
    (stuck : ¬ (authenticator.changeSessionIdOnAuthentication = true →
      SessionManager.Renames uuid crawlerAgents situation.request manager (others ++ [ref]))) :
    ∃ reached exn, situation.setSubject uuid crawlerAgents others authenticator subject =
      (reached, .error (.exn exn)) := by
  obtain ⟨changes, fixed⟩ := Classical.not_imp.mp stuck
  rw [← SessionManager.renames_modify uuid crawlerAgents situation.request manager (others ++ [ref]) ref
    (fun session => { session with subject := some subject }), ← SessionManager.changeId_ok_iff] at fixed
  simp only [setSubject, present, Authenticator.setSubject, Authenticator.storeSubject,
    Request.getSession_held uuid crawlerAgents held, held, known, Bool.not_false, Bool.true_and,
    changes, if_true, Request.changeSessionId, Option.toList_some]
  generalize SessionManager.changeId uuid crawlerAgents
    (manager.modify ref (fun session => { session with subject := some subject })) (others ++ [ref])
    situation.request = result at fixed ⊢
  obtain ⟨after, answer⟩ := result
  cases answer with
  | error exn => exact ⟨_, exn, rfl⟩
  | ok next => exact absurd ⟨next, rfl⟩ fixed

end Held

end Generator

end Situation

namespace FormAuthenticator

open Subject (anonymousSubject)

structure Redirected (request : Request) (url : Bytes) : Prop where
  processed : request.processed = true
  status : request.status = 302
  location : request.outHeaders.find? (ascii "Location") = some url

section Generator

variable (uuid : Nat → Bytes) (crawlerAgents : Bytes → Bool) (others : List Nat)
variable (form : FormAuthenticator)

def OpensForm (request : Request) : Prop :=
  form.formAction ≠ [] ∧ StringUtils.endsWith request.getScriptName form.formAction = true

/-- A stored request is taken up as it is; a stored URL needs a response that can still be
redirected. -/
def Stored (session : Session) (request : Request) : Prop :=
  match session.attributes.find? storedRequest with
  | some (.buffer _) => True
  | some (.text _) => False
  | none => ∃ url, session.attributes.find? storedRequestUri = some (.text url) ∧
      request.headersSent = false

def Resumable (situation : Situation) : Prop :=
  form.OpensForm situation.request ∨ ∃ ref session,
    (situation.currentSession uuid crawlerAgents).2 = some (ref, session) ∧
      Stored session situation.request ∧
      (form.base.changeSessionIdOnAuthentication = true →
        ∀ manager, (situation.currentSession uuid crawlerAgents).1.sessions = some manager →
          SessionManager.Renames uuid crawlerAgents
            (situation.currentSession uuid crawlerAgents).1.request manager (others ++ [ref]))

/-- The filter has ended by calling the next one, by dispatching the stored request or by a
redirection to the stored URL. -/
def Resumed (situation : Situation) (filtered : Filtered) : Prop :=
  filtered.invoked.isSome = true ∨ ∃ ref session,
    (situation.currentSession uuid crawlerAgents).2 = some (ref, session) ∧
      ((∃ buffer, session.attributes.find? storedRequest = some (.buffer buffer) ∧
          filtered.result = .error (.dispatch buffer)) ∨
        ∃ url, session.attributes.find? storedRequestUri = some (.text url) ∧
          filtered.result = .ok () ∧ Redirected filtered.situation.request url)

/-- A login that the realm grants, in the roles that the URL asks for. -/
structure Accepted (request : Request) (realm : Realm) (subject : Subject) : Prop where
  submitted : submitsForm request = true
  asked : form.base.realm = some realm
  answer : realm.authenticate (request.getArg formUsername) (request.getArg formPassword) =
    .ok (some subject)
  known : subject.isAnonymous = false
  roles : ∀ constraint ∈ form.base.constraints, constraint.check request = true →
    subject.hasPrincipal form.base.hash constraint.role = true

theorem submitsForm_input {request next : Request} (input : request.SameInput next) :
    submitsForm next = submitsForm request := by
  simp only [submitsForm, Request.hasArg, input.args]

theorem getArg_input {request next : Request} (input : request.SameInput next) (name : Bytes) :
    next.getArg name = request.getArg name := by
  simp only [Request.getArg, input.args]

theorem stored_same {session kept : Session} {request next : Request}
    (attributes : kept.attributes = session.attributes) (sent : next.headersSent = request.headersSent) :
    Stored kept next ↔ Stored session request := by
  unfold Stored
  rw [attributes, sent]

section Held

variable {situation : Situation} {manager : SessionManager} {ref : Nat} {session : Session}
variable (present : situation.sessions = some manager) (held : situation.request.session = some ref)
variable (live : manager.objects[ref]? = some session)

include present held live

theorem resume_request {buffer : DataBuffer}
    (stored : session.attributes.find? storedRequest = some (.buffer buffer)) :
    (resume uuid crawlerAgents situation).2 = .error (.dispatch buffer) := by
  simp [resume, Situation.currentSession_held uuid crawlerAgents present held live, Session.hasAttribute,
    stored, Session.getBuffer]

theorem resume_uri {url : Bytes} (none : session.attributes.find? storedRequest = none)
    (stored : session.attributes.find? storedRequestUri = some (.text url)) :
    resume uuid crawlerAgents situation =
      (situation.changeSession ref (fun session => session.removeAttribute storedRequestUri)).redirect
        url := by
  simp [resume, Situation.currentSession_held uuid crawlerAgents present held live, Session.hasAttribute,
    none, stored, Session.getText]

theorem rewriteForm_held (none : session.hasAttribute storedRequest = false) :
    form.rewriteForm uuid crawlerAgents situation = (situation, .ok ()) := by
  simp [rewriteForm, Situation.currentSession_held uuid crawlerAgents present held live, none]

theorem resume_stored (stored : Stored session situation.request) :
    (∃ buffer, session.attributes.find? storedRequest = some (.buffer buffer) ∧
      (resume uuid crawlerAgents situation).2 = .error (.dispatch buffer)) ∨
    ∃ url reached, session.attributes.find? storedRequestUri = some (.text url) ∧
      resume uuid crawlerAgents situation = (reached, .ok false) ∧ Redirected reached.request url ∧
      form.rewriteForm uuid crawlerAgents reached = (reached, .ok ()) := by
  unfold Stored at stored
  cases request : session.attributes.find? storedRequest with
  | some value =>
      cases value with
      | text value => simp [request] at stored
      | buffer buffer =>
          exact Or.inl ⟨buffer, rfl, resume_request uuid crawlerAgents present held live request⟩
  | none =>
      simp only [request] at stored
      obtain ⟨url, address, unsent⟩ := stored
      have answered := resume_uri uuid crawlerAgents present held live request address
      simp only [Situation.redirect, Situation.changeSession, present, Option.map_some,
        Request.redirectToPath_unsent _ unsent, Situation.update] at answered
      refine Or.inr ⟨url, _, address, answered, ⟨rfl, rfl, ?_⟩, ?_⟩
      · have same : OrderedMap.equivalent stringCILess
            (Parser.normalizeOutputHeaderName (ascii "Location")) (ascii "Location") = true := by
          decide +kernel
        exact (find?_assign_CI _ _ _ _).trans (if_pos same)
      · have stripped : (manager.modify ref (fun session =>
            session.removeAttribute storedRequestUri)).objects[ref]? =
              some (session.removeAttribute storedRequestUri) := by
          rw [SessionManager.modify_itself, live, Option.map_some]
        have other : storedRequestUri ≠ storedRequest := by decide
        have gone : (session.removeAttribute storedRequestUri).hasAttribute storedRequest = false := by
          simp [Session.removeAttribute, Session.hasAttribute, other, request]
        exact rewriteForm_held uuid crawlerAgents form rfl held stripped gone

theorem resume_missing (missing : ¬ Stored session situation.request) :
    (∃ exn, (resume uuid crawlerAgents situation).2 = .error (.exn exn)) ∨
      ((resume uuid crawlerAgents situation).2 = .ok false ∧
        session.attributes.find? storedRequestUri = none) := by
  have current := Situation.currentSession_held uuid crawlerAgents present held live
  unfold Stored at missing
  cases request : session.attributes.find? storedRequest with
  | some value =>
      cases value with
      | buffer buffer => simp [request] at missing
      | text value => simp [resume, current, Session.hasAttribute, Session.getBuffer, request]
  | none =>
      simp only [request] at missing
      cases address : session.attributes.find? storedRequestUri with
      | none => simp [resume, current, Session.hasAttribute, request, address]
      | some value =>
          cases value with
          | buffer buffer => simp [resume, current, Session.hasAttribute, Session.getText, request, address]
          | text url =>
              have late : situation.request.headersSent = true := by simpa [address] using missing
              rw [resume_uri uuid crawlerAgents present held live request address]
              simp [Situation.redirect, Situation.changeSession, Request.redirectToPath, Request.setStatus,
                late, Situation.update]

variable {realm : Realm} {subject : Subject}

omit present held live in
theorem authenticate_resumes (accepted : form.Accepted situation.request realm subject) {reached : Situation}
    (login : situation.setSubject uuid crawlerAgents others form.base subject = (reached, .ok ())) :
    form.authenticate uuid crawlerAgents others situation = resume uuid crawlerAgents reached := by
  simp only [authenticate, accepted.submitted, if_true, Situation.doLogin, accepted.asked, accepted.answer,
    Situation.adopt, login, accepted.known, Bool.not_false]

theorem authenticate_stored (accepted : form.Accepted situation.request realm subject)
    (free : situation.request.subject = none) (stored : Stored session situation.request)
    (renames : form.base.changeSessionIdOnAuthentication = true →
      SessionManager.Renames uuid crawlerAgents situation.request manager (others ++ [ref])) :
    (∃ buffer, session.attributes.find? storedRequest = some (.buffer buffer) ∧
      (form.authenticate uuid crawlerAgents others situation).2 = .error (.dispatch buffer)) ∨
    ∃ url reached, session.attributes.find? storedRequestUri = some (.text url) ∧
      form.authenticate uuid crawlerAgents others situation = (reached, .ok false) ∧
      Redirected reached.request url ∧ form.rewriteForm uuid crawlerAgents reached = (reached, .ok ()) := by
  obtain ⟨after, next, kept, login, session, sent, there, attributes⟩ := Situation.setSubject_renames uuid
    crawlerAgents others form.base present held live accepted.known free renames
  have resumed := @resume_stored uuid crawlerAgents form { situation with
    sessions := some after, request := next } after ref kept rfl session there ((stored_same attributes sent).mpr stored)
  rw [attributes] at resumed
  rw [authenticate_resumes uuid crawlerAgents others form accepted login]
  exact resumed

theorem authenticate_missing (accepted : form.Accepted situation.request realm subject)
    (free : situation.request.subject = none)
    (missing : ¬ (Stored session situation.request ∧ (form.base.changeSessionIdOnAuthentication = true →
      SessionManager.Renames uuid crawlerAgents situation.request manager (others ++ [ref])))) :
    (∃ exn, (form.authenticate uuid crawlerAgents others situation).2 = .error (.exn exn)) ∨
      ((form.authenticate uuid crawlerAgents others situation).2 = .ok false ∧
        session.attributes.find? storedRequestUri = none) := by
  by_cases renames : form.base.changeSessionIdOnAuthentication = true →
      SessionManager.Renames uuid crawlerAgents situation.request manager (others ++ [ref])
  · obtain ⟨after, next, kept, login, session, sent, there, attributes⟩ := Situation.setSubject_renames
      uuid crawlerAgents others form.base present held live accepted.known free renames
    have resumed := @resume_missing uuid crawlerAgents { situation with
      sessions := some after, request := next } after ref kept rfl session there
      (fun stored => missing ⟨(stored_same attributes sent).mp stored, renames⟩)
    rw [attributes] at resumed
    rw [authenticate_resumes uuid crawlerAgents others form accepted login]
    exact resumed
  · obtain ⟨reached, exn, login⟩ := Situation.setSubject_stuck uuid crawlerAgents others form.base present
      held accepted.known renames
    apply Or.inl
    simp [authenticate, accepted.submitted, Situation.doLogin, accepted.asked, accepted.answer,
      Situation.adopt, login]

end Held

theorem authenticate_never {situation : Situation} (submitted : submitsForm situation.request = true) :
    (form.authenticate uuid crawlerAgents others situation).2 ≠ .ok true := by
  have answered : ∀ (situation : Situation) (path : Bytes), (situation.redirect path).2 ≠ .ok true := by
    intro situation path
    unfold Situation.redirect
    split <;> simp
  have marked : ∀ (situation : Situation) (path : Bytes), (situation.redirectMarked path).2 ≠ .ok true := by
    intro situation path
    unfold Situation.redirectMarked
    dsimp only
    split <;> simp
  unfold authenticate
  rw [if_pos submitted]
  split
  · simp
  · unfold resume
    split
    · simp
    · split
      · split <;> simp
      · split
        · split
          · simp
          · exact answered _ _
        · simp
  · unfold retry
    split
    · simp
    · split
      · exact marked _ _
      · simp

section Filter

variable (next : Situation → Step Unit) {situation : Situation}

theorem doFilter_opens (opens : form.OpensForm situation.request) :
    (form.doFilter uuid crawlerAgents others next situation).invoked = some situation := by
  have exempt : form.isAuthenticationRequired uuid crawlerAgents others situation =
      (situation, .ok false) := by
    unfold isAuthenticationRequired
    rw [if_pos (by simpa [opens.2] using opens.1)]
  rw [doFilter_invoked, Authenticator.doFilter, exempt]

variable (closed : ¬ form.OpensForm situation.request) (submitted : submitsForm situation.request = true)

include closed submitted

theorem required_dropped : form.isAuthenticationRequired uuid crawlerAgents others situation =
    (situation.dropped uuid crawlerAgents others form.base, .ok true) := by
  have done := Situation.setSubject_dropped uuid crawlerAgents others form.base situation
  have other : ¬ (!form.formAction.isEmpty &&
      StringUtils.endsWith situation.request.getScriptName form.formAction) = true := by
    intro opens
    simp only [Bool.and_eq_true, Bool.not_eq_true', List.isEmpty_eq_false_iff] at opens
    exact closed opens
  unfold isAuthenticationRequired Situation.dropped
  rw [if_neg other, if_pos submitted]
  split
  · next failed =>
      rw [failed] at done
      cases done
  · next answered => rw [answered]

theorem doFilter_withheld : (form.doFilter uuid crawlerAgents others next situation).invoked = none := by
  have unknown := Situation.dropped_unknown uuid crawlerAgents others form.base situation
  have input := isAuthenticationRequired_kept uuid crawlerAgents others form situation
  rw [required_dropped uuid crawlerAgents others form closed submitted] at input
  have first := (Situation.isAuthenticated_honest uuid crawlerAgents
    (situation.dropped uuid crawlerAgents others form.base)).input
  have never : (Authenticator.admits uuid crawlerAgents (form.authenticate uuid crawlerAgents others)
      (situation.dropped uuid crawlerAgents others form.base)).2 ≠ .ok true := by
    unfold Authenticator.admits
    split
    · simp
    · next done =>
        rw [done] at unknown
        exact absurd rfl unknown
    · next reached done =>
        rw [done] at first
        apply authenticate_never
        rw [submitsForm_input (input.trans first), submitted]
  rw [doFilter_invoked, Authenticator.doFilter, required_dropped uuid crawlerAgents others form closed
    submitted]
  simp only
  split
  · rfl
  · next done =>
      rw [done] at never
      exact absurd rfl never
  · split <;> rfl

section Idle

variable (idle : (situation.dropped uuid crawlerAgents others form.base).isAuthenticated uuid
  crawlerAgents = (situation.dropped uuid crawlerAgents others form.base, .ok false))

include idle

omit closed submitted in
theorem admits_idle : Authenticator.admits uuid crawlerAgents (form.authenticate uuid crawlerAgents others)
    (situation.dropped uuid crawlerAgents others form.base) =
      form.authenticate uuid crawlerAgents others (situation.dropped uuid crawlerAgents others form.base) := by
  rw [Authenticator.admits, idle]

theorem doFilter_failure {failure : Failure}
    (failed : (form.authenticate uuid crawlerAgents others
      (situation.dropped uuid crawlerAgents others form.base)).2 = .error failure) :
    (form.doFilter uuid crawlerAgents others next situation).result = .error failure := by
  unfold doFilter Authenticator.doFilter
  rw [required_dropped uuid crawlerAgents others form closed submitted]
  simp only [admits_idle uuid crawlerAgents others form idle]
  generalize form.authenticate uuid crawlerAgents others
    (situation.dropped uuid crawlerAgents others form.base) = step at failed ⊢
  obtain ⟨reached, outcome⟩ := step
  simp only at failed
  subst failed
  rfl

theorem doFilter_redirected {reached : Situation} {url : Bytes}
    (answered : form.authenticate uuid crawlerAgents others
      (situation.dropped uuid crawlerAgents others form.base) = (reached, .ok false))
    (redirected : Redirected reached.request url)
    (kept : form.rewriteForm uuid crawlerAgents reached = (reached, .ok ())) :
    form.doFilter uuid crawlerAgents others next situation = ⟨reached, .ok (), none⟩ := by
  unfold doFilter Authenticator.doFilter
  rw [required_dropped uuid crawlerAgents others form closed submitted]
  simp only [admits_idle uuid crawlerAgents others form idle, answered, redirected.processed, if_true, kept]
  split <;> rfl

theorem doFilter_unanswered
    (answered : (form.authenticate uuid crawlerAgents others
      (situation.dropped uuid crawlerAgents others form.base)).2 = .ok false) (buffer : DataBuffer) :
    (form.doFilter uuid crawlerAgents others next situation).result ≠ .error (.dispatch buffer) := by
  unfold doFilter Authenticator.doFilter
  rw [required_dropped uuid crawlerAgents others form closed submitted]
  simp only [admits_idle uuid crawlerAgents others form idle]
  generalize form.authenticate uuid crawlerAgents others
    (situation.dropped uuid crawlerAgents others form.base) = step at answered ⊢
  obtain ⟨reached, outcome⟩ := step
  simp only at answered
  subst answered
  simp only
  have plain : ∀ situation, (form.rewriteForm uuid crawlerAgents situation).2 ≠
      .error (.dispatch buffer) := by
    intro situation
    unfold rewriteForm
    split
    · simp
    · split
      · split <;> simp
      · simp
  cases reached.request.processed with
  | true =>
      simp only [if_true]
      split
      · exact plain reached
      · simp
  | false => simp

end Idle

end Filter

theorem Accepted.input {request next : Request} {realm : Realm} {subject : Subject}
    (accepted : form.Accepted request realm subject) (input : request.SameInput next) :
    form.Accepted next realm subject := by
  refine ⟨?_, accepted.asked, ?_, accepted.known, ?_⟩
  · rw [submitsForm_input input, accepted.submitted]
  · rw [getArg_input input, getArg_input input, accepted.answer]
  · intro constraint member matched
    rw [Authenticator.check_input constraint input] at matched
    exact accepted.roles constraint member matched

theorem found_login_resumed_iff (next : Situation → Step Unit) {situation : Situation} {realm : Realm}
    {subject : Subject} (accepted : form.Accepted situation.request realm subject)
    (closed : ¬ form.OpensForm situation.request) {before manager : SessionManager} {request : Request}
    {ref : Nat} {session : Session} (present : situation.sessions = some before)
    (got : situation.request.getSession uuid crawlerAgents before = (manager, request))
    (held : request.session = some ref) (live : manager.objects[ref]? = some session) :
    let filtered := form.doFilter uuid crawlerAgents others next situation
    ((∃ buffer, session.attributes.find? storedRequest = some (.buffer buffer) ∧
        filtered.result = .error (.dispatch buffer)) ∨
      ∃ url, session.attributes.find? storedRequestUri = some (.text url) ∧
        filtered.result = .ok () ∧ Redirected filtered.situation.request url) ↔
    Stored session situation.request ∧ (form.base.changeSessionIdOnAuthentication = true →
      SessionManager.Renames uuid crawlerAgents request manager (others ++ [ref])) := by
  intro filtered
  have cleared : situation.dropped uuid crawlerAgents others form.base =
      { situation with
        sessions := some (manager.modify ref (fun session =>
          { session with subject := some anonymousSubject }))
        request := { request with subject := none } } := by
    rw [Situation.dropped, Situation.setSubject_drops uuid crawlerAgents others form.base present]
    simp only [got, held]
  have input := isAuthenticationRequired_kept uuid crawlerAgents others form situation
  rw [required_dropped uuid crawlerAgents others form closed accepted.submitted] at input
  have admitted := accepted.input form input
  have sent : request.headersSent = situation.request.headersSent := by
    have kept := Request.getSession_sent uuid crawlerAgents situation.request before
    rwa [got] at kept
  have stripped : (manager.modify ref (fun session =>
      { session with subject := some anonymousSubject })).objects[ref]? =
        some { session with subject := some anonymousSubject } := by
    rw [SessionManager.modify_itself, live, Option.map_some]
  have idle : (situation.dropped uuid crawlerAgents others form.base).isAuthenticated uuid
      crawlerAgents = (situation.dropped uuid crawlerAgents others form.base, .ok false) := by
    rw [cleared]
    exact Situation.isAuthenticated_held uuid crawlerAgents rfl held stripped rfl
      Situation.anonymous_known
  have renames : SessionManager.Renames uuid crawlerAgents { request with subject := none }
      (manager.modify ref (fun session => { session with subject := some anonymousSubject }))
      (others ++ [ref]) ↔ SessionManager.Renames uuid crawlerAgents request manager (others ++ [ref]) :=
    SessionManager.renames_modify uuid crawlerAgents _ manager _ _ _
  have takenUp : Stored { session with subject := some anonymousSubject }
      { request with subject := none } ↔ Stored session situation.request := stored_same rfl sent
  rw [← renames, ← takenUp]
  rw [cleared] at admitted
  constructor
  · intro resumed
    by_contra missing
    have unanswered := authenticate_missing uuid crawlerAgents others form rfl held stripped admitted rfl
      missing
    rw [← cleared] at unanswered
    rcases unanswered with ⟨exn, failed⟩ | ⟨answered, gone⟩
    · have result := doFilter_failure uuid crawlerAgents others form next closed accepted.submitted idle
        failed
      rcases resumed with ⟨buffer, _, dispatched⟩ | ⟨url, _, done, _⟩
      · cases result.symm.trans dispatched
      · cases result.symm.trans done
    · rcases resumed with ⟨buffer, _, dispatched⟩ | ⟨url, address, _⟩
      · exact doFilter_unanswered uuid crawlerAgents others form next closed accepted.submitted idle
          answered buffer dispatched
      · cases gone.symm.trans address
  · rintro ⟨stored, renamed⟩
    have answered := authenticate_stored uuid crawlerAgents others form rfl held stripped admitted rfl
      stored renamed
    rw [← cleared] at answered
    rcases answered with ⟨buffer, kept, dispatched⟩ | ⟨url, reached, kept, answered, redirected, page⟩
    · exact Or.inl ⟨buffer, kept, doFilter_failure uuid crawlerAgents others form next closed
        accepted.submitted idle dispatched⟩
    · have done := doFilter_redirected uuid crawlerAgents others form next closed accepted.submitted idle
        answered redirected page
      refine Or.inr ⟨url, kept, ?_⟩
      simp only [filtered, done]
      exact ⟨trivial, redirected⟩

/-- A submitted form that the realm accepts is answered by the stored request, by a
redirection or by the next filter exactly where one of the three is there to take it up. -/
theorem accepted_login_resumed_iff (next : Situation → Step Unit) (situation : Situation)
    (realm : Realm) (subject : Subject) (accepted : form.Accepted situation.request realm subject) :
    Resumed uuid crawlerAgents situation (form.doFilter uuid crawlerAgents others next situation) ↔
      form.Resumable uuid crawlerAgents others situation := by
  by_cases opens : form.OpensForm situation.request
  · have called := doFilter_opens uuid crawlerAgents others form next opens
    exact ⟨fun _ => Or.inl opens, fun _ => Or.inl (by rw [called]; rfl)⟩
  · have withheld := doFilter_withheld uuid crawlerAgents others form next opens accepted.submitted
    unfold Resumed Resumable
    simp only [withheld, Option.isSome_none, Bool.false_eq_true, false_or, opens]
    cases current : (situation.currentSession uuid crawlerAgents).2 with
    | none => simp
    | some pair =>
        obtain ⟨ref, session⟩ := pair
        obtain ⟨before, manager, request, present, got, held, live, after⟩ :=
          Situation.currentSession_found uuid crawlerAgents current
        have found := found_login_resumed_iff uuid crawlerAgents others form next accepted opens present
          got held live
        simp only [Option.some.injEq, Prod.mk.injEq, after, forall_eq']
        constructor
        · rintro ⟨_, _, ⟨rfl, rfl⟩, resumed⟩
          exact ⟨_, _, ⟨rfl, rfl⟩, found.mp resumed⟩
        · rintro ⟨_, _, ⟨rfl, rfl⟩, ready⟩
          exact ⟨_, _, ⟨rfl, rfl⟩, found.mpr ready⟩

end Generator

def sampleSubmission : Request :=
  { Request.fresh with
    vars := OrderedMap.empty.assign (ascii "SCRIPT_NAME") (ascii "/admin/page")
    cookies := OrderedMap.empty.assign SessionManager.sessionCookieName (ascii "one")
    args := [(formUsername, ascii "bob"), (formPassword, ascii "pw")] }

def sampleLogin (sessions : Option SessionManager) : Situation := ⟨sessions, [], sampleSubmission, []⟩

def sampleSessions (attributes : OrderedMap Bytes Attribute stringLess) : SessionManager where
  objects := [{ Session.create (ascii "one") 0 with attributes }]
  sessions := OrderedMap.empty.assign (ascii "one") 0
  drawn := 0
  now := 0
  maxInactiveInterval := 30

theorem sampleSubmission_accepted :
    sampleForm.Accepted sampleSubmission Scheme.sampleRealm ⟨[ascii "manager"], false⟩ :=
  ⟨by decide +kernel, rfl, by decide +kernel, by decide +kernel, by decide +kernel⟩

theorem accepted_login_resumed_uri :
    let stored := OrderedMap.empty.assign storedRequestUri (.text (ascii "/admin/page"))
    let login := sampleLogin (some (sampleSessions stored))
    Resumed (fun _ => ascii "two") (fun _ => false) login
      (sampleForm.doFilter (fun _ => ascii "two") (fun _ => false) []
        (fun situation => (situation, .ok ())) login) := by
  intro stored login
  refine (accepted_login_resumed_iff (fun _ => ascii "two") (fun _ => false) [] sampleForm
    (fun situation => (situation, .ok ())) login Scheme.sampleRealm ⟨[ascii "manager"], false⟩
    sampleSubmission_accepted).mpr (Or.inr ⟨0, _, rfl, ⟨ascii "/admin/page", rfl, rfl⟩, ?_⟩)
  intro changes manager same ref named
  exact ⟨rfl, Or.inr (by decide +kernel : ascii "two" ≠ ascii "one")⟩

/-- Neither with a session in which nothing is stored nor without sessions the login is
answered. -/
theorem accepted_login_forbidden :
    (sampleForm.doFilter (fun _ => ascii "two") (fun _ => false) []
      (fun situation => (situation, .ok ())) (sampleLogin (some (sampleSessions .empty)))).result =
        .error .forbidden ∧
    (sampleForm.doFilter (fun _ => ascii "two") (fun _ => false) []
      (fun situation => (situation, .ok ())) (sampleLogin none)).result = .error .forbidden := by
  exact ⟨rfl, rfl⟩

end FormAuthenticator

end FastcgiContainer
