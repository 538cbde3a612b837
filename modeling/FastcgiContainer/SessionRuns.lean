import FastcgiContainer.Authenticator
import FastcgiContainer.SessionRegistry

/-! Runs of many requests over one session manager. A request makes its calls one
after another, the calls of different requests interleave in any order, and the
thread that removes expired sessions runs in between. -/

namespace FastcgiContainer

open Word (Bytes)

inductive Call where
  | getSession
  | createSession
  | changeSessionId
  | isAuthenticated
  | setSubject (subject : Subject)
  | setRequestSubject (subject : Subject)
  | setAttribute (name : Bytes) (value : Attribute)
  | removeAttribute (name : Bytes)
  | invalidateSession
  | sendHeaders
  deriving DecidableEq

/-- All the requests that were ever accepted, in the order of their arrival. -/
structure World where
  manager : SessionManager
  requests : List Request

inductive Action where
  | arrive (request : Request)
  | call (index : Nat) (call : Call)
  | finish (index : Nat)
  | elapse (time : Nat)
  | checkSessionTimeout

namespace Request

def changeSession (request : Request) (manager : SessionManager) (change : Session → Session) :
    SessionManager :=
  match request.session with
  | none => manager
  | some ref => manager.modify ref change

section Generator

variable (uuid : Nat → Bytes) (crawlerAgents : Bytes → Bool) (authenticator : Authenticator)

/-- A call that fails is caught by the handler; what it has done stays done. -/
def perform (request : Request) (others : List Nat) (manager : SessionManager) :
    Call → SessionManager × Request
  | .getSession => request.getSession uuid crawlerAgents manager
  | .createSession => request.createSession uuid crawlerAgents others manager
  | .changeSessionId =>
      match request.changeSessionId uuid crawlerAgents others manager with
      | (manager, .ok next) => (manager, next)
      | (manager, .error _) => (manager, request)
  | .isAuthenticated =>
      let (manager, request, _) := Authenticator.isAuthenticated uuid crawlerAgents request manager
      (manager, request)
  | .setSubject subject =>
      let (manager, request, _) :=
        authenticator.setSubject uuid crawlerAgents request others manager subject
      (manager, request)
  | .setRequestSubject subject =>
      match request.setSubject subject with
      | .ok next => (manager, next)
      | .error _ => (manager, request)
  | .setAttribute name value =>
      (request.changeSession manager (fun session =>
        { session with attributes := session.attributes.assign name value }), request)
  | .removeAttribute name =>
      (request.changeSession manager (fun session =>
        { session with attributes := session.attributes.erase name }), request)
  | .invalidateSession =>
      (request.changeSession manager (fun session => session.invalidate manager.now), request)
  | .sendHeaders => (manager, { request with headersSent := true })

end Generator

end Request

namespace World

def others (world : World) (index : Nat) : List Nat :=
  (world.requests.eraseIdx index).filterMap Request.session

def update (world : World) (index : Nat) (result : SessionManager × Request) : World :=
  ⟨result.1, world.requests.set index result.2⟩

section Generator

variable (uuid : Nat → Bytes) (crawlerAgents : Bytes → Bool) (authenticator : Authenticator)

/-- A request arrives without a session and without a subject. -/
def step (world : World) : Action → World
  | .arrive request =>
      { world with requests := world.requests ++ [{ request with session := none, subject := none }] }
  | .call index call =>
      match world.requests[index]? with
      | none => world
      | some request =>
          world.update index (request.perform uuid crawlerAgents authenticator (world.others index)
            world.manager call)
  | .finish index =>
      match world.requests[index]? with
      | none => world
      | some request =>
          world.update index (request.takeSession (world.others index) world.manager none)
  | .elapse time =>
      { world with manager := { world.manager with now := world.manager.now + time } }
  | .checkSessionTimeout => { world with manager := world.manager.checkSessionTimeout }

def start (now maxInactiveInterval : Int) : World := ⟨.start now maxInactiveInterval, []⟩

def Later (world next : World) : Prop :=
  Relation.ReflTransGen (fun world next => ∃ action, next = step uuid crawlerAgents authenticator world
    action) world next

theorem later_run (actions : List Action) (world : World) :
    Later uuid crawlerAgents authenticator world
      (actions.foldl (step uuid crawlerAgents authenticator) world) := by
  induction actions generalizing world with
  | nil => exact Relation.ReflTransGen.refl
  | cons action actions ih => exact Relation.ReflTransGen.head ⟨action, rfl⟩ (ih _)

end Generator

end World

namespace Request

/-- What a client has sent with a request, and what no call changes. -/
structure SameClient (request next : Request) : Prop where
  cookies : next.cookies = request.cookies
  headers : next.headers = request.headers

theorem SameClient.refl (request : Request) : SameClient request request := ⟨rfl, rfl⟩

theorem SameClient.trans {first second third : Request} (left : SameClient first second)
    (right : SameClient second third) : SameClient first third :=
  ⟨right.cookies.trans left.cookies, right.headers.trans left.headers⟩

theorem setCookie_kept {request next : Request} {cookie : Cookie}
    (done : request.setCookie cookie = .ok next) :
    SameClient request next ∧ next.session = request.session ∧ next.subject = request.subject := by
  unfold setCookie at done
  split at done
  · cases done
  · cases done
    exact ⟨⟨rfl, rfl⟩, rfl, rfl⟩

theorem setSubject_kept {request next : Request} {subject : Subject}
    (done : request.setSubject subject = .ok next) :
    SameClient request next ∧ next.session = request.session ∧
      next.outCookies = request.outCookies := by
  unfold setSubject at done
  split at done
  · cases done
    exact ⟨⟨rfl, rfl⟩, rfl, rfl⟩
  · split at done
    · cases done
    · cases done
      exact ⟨⟨rfl, rfl⟩, rfl, rfl⟩

theorem takeSession_kept (request : Request) (others : List Nat) (manager : SessionManager)
    (next : Option Nat) : SameClient request (request.takeSession others manager next).2 ∧
      (request.takeSession others manager next).2.session = next := by
  unfold takeSession
  split
  · exact ⟨⟨rfl, rfl⟩, rfl⟩
  · exact ⟨⟨rfl, rfl⟩, rfl⟩

section Generator

open SessionManager (Registered isBot crawlerAgentSessionId sessionCookieName)

variable (uuid : Nat → Bytes) (crawlerAgents : Bytes → Bool) (authenticator : Authenticator)

/-- The cookie of the request is the id of the session. -/
def Bears (request : Request) (manager : SessionManager) (ref : Nat) : Prop :=
  manager.named request = some ref ∧ request.hasCookie sessionCookieName = true ∧
    ∃ session, manager.objects[ref]? = some session ∧ session.id = request.getCookie sessionCookieName

/-- How a request comes to a session: by its cookie, or the session is new, or it is
the one session of all crawlers. -/
def Obtains (request : Request) (manager : SessionManager) (ref : Nat) : Prop :=
  Bears request manager ref ∨ manager.objects.length ≤ ref ∨
    (isBot crawlerAgents request = true ∧ manager.resolve crawlerAgentSessionId = some ref)

theorem createWithCookie_request {request next : Request} {manager after : SessionManager} {ref : Nat}
    (done : SessionManager.createWithCookie uuid crawlerAgents manager request =
      (after, .ok (ref, next))) :
    SessionManager.createInternal uuid crawlerAgents manager request = (after, ref) ∧
      SameClient request next ∧ next.session = request.session ∧ next.subject = request.subject := by
  unfold SessionManager.createWithCookie at done
  generalize SessionManager.createInternal uuid crawlerAgents manager request = made at done
  obtain ⟨made, made_ref⟩ := made
  simp only at done
  obtain ⟨rfl, outcome⟩ := Prod.mk.inj done
  obtain ⟨told, cookie, rest⟩ := bind_eq_ok _ _ _ outcome
  cases rest
  exact ⟨rfl, setCookie_kept cookie⟩

theorem createWithCookie_obtains {request next : Request} {manager after : SessionManager} {ref : Nat}
    (unique : ∀ index, uuid index ≠ crawlerAgentSessionId) (registered : Registered manager)
    (done : SessionManager.createWithCookie uuid crawlerAgents manager request =
      (after, .ok (ref, next))) :
    manager.objects.length ≤ ref ∨
      (isBot crawlerAgents request = true ∧ manager.resolve crawlerAgentSessionId = some ref) := by
  have made := (createWithCookie_request uuid crawlerAgents done).1
  cases bot : isBot crawlerAgents request with
  | false =>
      have makes := SessionManager.createInternal_makes uuid crawlerAgents request manager registered
        (unique manager.drawn) bot
      rw [made] at makes
      exact Or.inl makes.new
  | true =>
      have shared := SessionManager.createInternal_shared uuid crawlerAgents request manager bot
      rw [made] at shared
      rcases shared with new | known
      · exact Or.inl new
      · exact Or.inr ⟨rfl, known⟩

theorem getSession_kept (request : Request) (manager : SessionManager) :
    SameClient request (request.getSession uuid crawlerAgents manager).2 ∧
      (request.getSession uuid crawlerAgents manager).2.subject = request.subject := by
  unfold getSession
  split
  · exact ⟨SameClient.refl request, rfl⟩
  · split
    · next manager after ref next done =>
        unfold SessionManager.get at done
        split at done
        · cases done
          exact ⟨⟨rfl, rfl⟩, rfl⟩
        · obtain ⟨_, client, _, subject⟩ := createWithCookie_request uuid crawlerAgents done
          exact ⟨⟨client.cookies, client.headers⟩, subject⟩
    · exact ⟨SameClient.refl request, rfl⟩

theorem getSession_obtains {request : Request} {manager : SessionManager} {ref : Nat}
    (unique : ∀ index, uuid index ≠ crawlerAgentSessionId) (registered : Registered manager)
    (held : (request.getSession uuid crawlerAgents manager).2.session = some ref) :
    request.session = some ref ∨ Obtains crawlerAgents request manager ref := by
  unfold getSession at held
  split at held
  · exact Or.inl held
  · split at held
    · next manager after ref next done =>
        cases held
        unfold SessionManager.get at done
        split at done
        · next named =>
            cases done
            obtain ⟨present, found⟩ := SessionManager.named_eq named
            exact Or.inr (Or.inl ⟨named, present, registered _ _ found⟩)
        · exact Or.inr (Or.inr (createWithCookie_obtains uuid crawlerAgents unique registered done))
    · exact Or.inl held

theorem createSession_kept (request : Request) (others : List Nat) (manager : SessionManager) :
    SameClient request (request.createSession uuid crawlerAgents others manager).2 := by
  unfold createSession
  split
  · next after ref next done =>
      apply SameClient.trans _ (takeSession_kept _ _ _ _).1
      rw [SessionManager.create_eq] at done
      exact (createWithCookie_request uuid crawlerAgents done).2.1
  · exact (takeSession_kept _ _ _ _).1

theorem create_obtains {request next : Request} {manager after : SessionManager} {ref : Nat}
    (unique : ∀ index, uuid index ≠ crawlerAgentSessionId) (registered : Registered manager)
    (done : SessionManager.create uuid crawlerAgents manager request = (after, .ok (ref, next))) :
    Obtains crawlerAgents request manager ref := by
  apply Or.inr
  rw [SessionManager.create_eq] at done
  have obtains := createWithCookie_obtains uuid crawlerAgents unique (registered.ended request) done
  rwa [SessionManager.length_ended, SessionManager.resolve_ended] at obtains

theorem createSession_obtains {request : Request} {others : List Nat} {manager : SessionManager}
    {ref : Nat} (unique : ∀ index, uuid index ≠ crawlerAgentSessionId)
    (registered : Registered manager)
    (held : (request.createSession uuid crawlerAgents others manager).2.session = some ref) :
    Obtains crawlerAgents request manager ref := by
  unfold createSession at held
  split at held
  · next after made next done =>
      rw [(takeSession_kept _ _ _ _).2] at held
      cases held
      exact create_obtains uuid crawlerAgents unique registered done
  · rw [(takeSession_kept _ _ _ _).2] at held
    cases held

theorem changeId_kept {request next : Request} {held : List Nat} {manager after : SessionManager}
    (done : SessionManager.changeId uuid crawlerAgents manager held request = (after, .ok next)) :
    SameClient request next ∧ next.session = request.session ∧ next.subject = request.subject := by
  unfold SessionManager.changeId at done
  split at done
  · cases done
    exact ⟨SameClient.refl request, rfl, rfl⟩
  · simp only at done
    split at done
    · cases done
    · obtain ⟨_, done⟩ := Prod.mk.inj done
      exact setCookie_kept done

theorem storeSubject_kept {request next : Request} {others : List Nat}
    {manager after : SessionManager} {subject : Subject}
    (done : authenticator.storeSubject uuid crawlerAgents request others manager subject =
      (after, .ok next)) :
    SameClient request next ∧ next.session = request.session := by
  unfold Authenticator.storeSubject at done
  split at done
  · cases done
    exact ⟨SameClient.refl request, rfl⟩
  · simp only at done
    split at done
    · obtain ⟨client, session, _⟩ := changeId_kept uuid crawlerAgents done
      exact ⟨client, session⟩
    · cases done
      exact ⟨SameClient.refl request, rfl⟩

/-- Only `getSession` gives a session to a request whose subject is set. -/
theorem setSubject_session (request : Request) (others : List Nat) (manager : SessionManager)
    (subject : Subject) :
    let result := authenticator.setSubject uuid crawlerAgents request others manager subject
    SameClient request result.2.1 ∧
      result.2.1.session = (request.getSession uuid crawlerAgents manager).2.session := by
  intro result
  have client := (getSession_kept uuid crawlerAgents request manager).1
  simp only [result, Authenticator.setSubject]
  split
  · exact ⟨client, rfl⟩
  · next after next stored =>
      obtain ⟨stays, session⟩ := storeSubject_kept uuid crawlerAgents authenticator stored
      split
      · exact ⟨client.trans stays, session⟩
      · next final assigned =>
          obtain ⟨same, held, _⟩ := setSubject_kept assigned
          exact ⟨(client.trans stays).trans same, held.trans session⟩

theorem setSubject_manager (request : Request) (others : List Nat) (manager : SessionManager)
    (subject : Subject) :
    (authenticator.setSubject uuid crawlerAgents request others manager subject).1 =
      (authenticator.storeSubject uuid crawlerAgents
        (request.getSession uuid crawlerAgents manager).2 others
        (request.getSession uuid crawlerAgents manager).1 subject).1 := by
  unfold Authenticator.setSubject
  simp only
  split
  · next done => rw [done]
  · next done =>
      rw [done]
      split <;> rfl

theorem isAuthenticated_cases (request : Request) (manager : SessionManager) :
    let result := Authenticator.isAuthenticated uuid crawlerAgents request manager
    (request.getSubject.isAnonymous = false ∧ result = (manager, request, .ok true)) ∨
      (request.getSubject.isAnonymous = true ∧
        result.1 = (request.getSession uuid crawlerAgents manager).1 ∧
        SameClient request result.2.1 ∧
        result.2.1.session = (request.getSession uuid crawlerAgents manager).2.session ∧
        result.2.1.outCookies = (request.getSession uuid crawlerAgents manager).2.outCookies) := by
  intro result
  have client := (getSession_kept uuid crawlerAgents request manager).1
  simp only [result, Authenticator.isAuthenticated]
  cases anonymous : request.getSubject.isAnonymous with
  | false => exact Or.inl ⟨rfl, rfl⟩
  | true =>
      refine Or.inr ⟨rfl, ?_⟩
      simp only [if_true]
      split
      · exact ⟨rfl, client, rfl, rfl⟩
      · split
        · exact ⟨rfl, client, rfl, rfl⟩
        · split
          · exact ⟨rfl, client, rfl, rfl⟩
          · next final assigned =>
              obtain ⟨same, held⟩ := setSubject_kept assigned
              exact ⟨rfl, client.trans same, held⟩

theorem isAuthenticated_source {request : Request} {manager : SessionManager}
    (anonymous : request.getSubject.isAnonymous = true)
    (authenticated : (Authenticator.isAuthenticated uuid crawlerAgents request manager).2.2 = .ok true) :
    ∃ ref session, (request.getSession uuid crawlerAgents manager).2.session = some ref ∧
      (request.getSession uuid crawlerAgents manager).1.objects[ref]? = some session ∧
      session.getSubject.isAnonymous = false ∧
      (Authenticator.isAuthenticated uuid crawlerAgents request manager).2.1.session = some ref ∧
      (Authenticator.isAuthenticated uuid crawlerAgents request manager).2.1.subject =
        some session.getSubject := by
  have subject := (getSession_kept uuid crawlerAgents request manager).2
  have still : (request.getSession uuid crawlerAgents manager).2.getSubject.isAnonymous = true := by
    rw [getSubject, subject]
    exact anonymous
  unfold Authenticator.isAuthenticated at authenticated ⊢
  simp only [anonymous, if_true] at authenticated ⊢
  split at authenticated
  · rw [still] at authenticated
    cases authenticated
  · next session found =>
      split at authenticated
      · rw [still] at authenticated
        cases authenticated
      · next known =>
          split at authenticated
          · cases authenticated
          · next final assigned =>
              obtain ⟨ref, held, live⟩ := Option.bind_eq_some_iff.mp found
              have named : session.getSubject.isAnonymous = false := by simpa using known
              refine ⟨ref, session, held, live, named, ?_⟩
              unfold setSubject at assigned
              rw [if_neg known] at assigned
              split at assigned
              · cases assigned
              · cases assigned
                rw [if_neg known]
                exact ⟨held, rfl⟩

theorem perform_kept (request : Request) (others : List Nat) (manager : SessionManager) (call : Call) :
    SameClient request (request.perform uuid crawlerAgents authenticator others manager call).2 := by
  cases call with
  | getSession => exact (getSession_kept uuid crawlerAgents request manager).1
  | createSession => exact createSession_kept uuid crawlerAgents request others manager
  | changeSessionId =>
      simp only [perform]
      split
      · next after next done => exact (changeId_kept uuid crawlerAgents done).1
      · exact SameClient.refl request
  | isAuthenticated =>
      rcases isAuthenticated_cases uuid crawlerAgents request manager with ⟨_, same⟩ | ⟨_, _, client, _⟩
      · simp only [perform, same]
        exact SameClient.refl request
      · exact client
  | setSubject subject =>
      exact (setSubject_session uuid crawlerAgents authenticator request others manager subject).1
  | setRequestSubject subject =>
      simp only [perform]
      split
      · next next done => exact (setSubject_kept done).1
      · exact SameClient.refl request
  | setAttribute name value => exact SameClient.refl request
  | removeAttribute name => exact SameClient.refl request
  | invalidateSession => exact SameClient.refl request
  | sendHeaders => exact ⟨rfl, rfl⟩

theorem perform_obtains {request : Request} {others : List Nat} {manager : SessionManager}
    {call : Call} {ref : Nat} (unique : ∀ index, uuid index ≠ crawlerAgentSessionId)
    (registered : Registered manager)
    (held : (request.perform uuid crawlerAgents authenticator others manager call).2.session =
      some ref) :
    request.session = some ref ∨ Obtains crawlerAgents request manager ref := by
  cases call with
  | getSession => exact getSession_obtains uuid crawlerAgents unique registered held
  | createSession => exact Or.inr (createSession_obtains uuid crawlerAgents unique registered held)
  | changeSessionId =>
      simp only [perform] at held
      split at held
      · next after next done =>
          rw [(changeId_kept uuid crawlerAgents done).2.1] at held
          exact Or.inl held
      · exact Or.inl held
  | isAuthenticated =>
      rcases isAuthenticated_cases uuid crawlerAgents request manager with ⟨_, same⟩ | ⟨_, _, _, got, _⟩
      · simp only [perform, same] at held
        exact Or.inl held
      · exact getSession_obtains uuid crawlerAgents unique registered (got.symm.trans held)
  | setSubject subject =>
      have got := (setSubject_session uuid crawlerAgents authenticator request others manager subject).2
      exact getSession_obtains uuid crawlerAgents unique registered (got.symm.trans held)
  | setRequestSubject subject =>
      simp only [perform] at held
      split at held
      · next next done =>
          rw [(setSubject_kept done).2.1] at held
          exact Or.inl held
      · exact Or.inl held
  | setAttribute name value => exact Or.inl held
  | removeAttribute name => exact Or.inl held
  | invalidateSession => exact Or.inl held
  | sendHeaders => exact Or.inl held

theorem registered_getSession (request : Request) {manager : SessionManager}
    (registered : Registered manager) :
    Registered (request.getSession uuid crawlerAgents manager).1 := by
  have done := registered.get uuid crawlerAgents request
  unfold getSession
  split
  · exact registered
  · split
    · next got =>
        rw [got] at done
        exact done
    · next got =>
        rw [got] at done
        exact done

theorem registered_takeSession (request : Request) (others : List Nat) {manager : SessionManager}
    (registered : Registered manager) (next : Option Nat) :
    Registered (request.takeSession others manager next).1 := by
  unfold takeSession
  split
  · exact registered
  · exact registered.release _ _

theorem registered_createSession (request : Request) (others : List Nat) {manager : SessionManager}
    (registered : Registered manager) :
    Registered (request.createSession uuid crawlerAgents others manager).1 := by
  have done := registered.create uuid crawlerAgents request
  unfold createSession
  split
  · next made =>
      rw [made] at done
      exact registered_takeSession _ others done _
  · next made =>
      rw [made] at done
      exact registered_takeSession _ others done _

theorem registered_changeSession (request : Request) {manager : SessionManager}
    (registered : Registered manager) (change : Session → Session)
    (keeps : ∀ session, (change session).id = session.id) :
    Registered (request.changeSession manager change) := by
  unfold changeSession
  split
  · exact registered
  · exact registered.modify _ change keeps

theorem registered_storeSubject (request : Request) (others : List Nat) {manager : SessionManager}
    (subject : Subject) (registered : Registered manager) :
    Registered (authenticator.storeSubject uuid crawlerAgents request others manager subject).1 := by
  unfold Authenticator.storeSubject
  split
  · exact registered
  · next ref held =>
      have stored := registered.modify ref (fun session => { session with subject := some subject })
        (fun _ => rfl)
      simp only
      split
      · exact stored.changeId uuid crawlerAgents request _
      · exact stored

theorem registered_perform (request : Request) (others : List Nat) {manager : SessionManager}
    (registered : Registered manager) (call : Call) :
    Registered (request.perform uuid crawlerAgents authenticator others manager call).1 := by
  cases call with
  | getSession => exact registered_getSession uuid crawlerAgents request registered
  | createSession => exact registered_createSession uuid crawlerAgents request others registered
  | changeSessionId =>
      have done := registered.changeId uuid crawlerAgents request (others ++ request.session.toList)
      simp only [perform]
      split
      · next changed =>
          unfold changeSessionId at changed
          rw [changed] at done
          exact done
      · next changed =>
          unfold changeSessionId at changed
          rw [changed] at done
          exact done
  | isAuthenticated =>
      rcases isAuthenticated_cases uuid crawlerAgents request manager with ⟨_, same⟩ | ⟨_, got, _⟩
      · simp only [perform, same]
        exact registered
      · simp only [perform, got]
        exact registered_getSession uuid crawlerAgents request registered
  | setSubject subject =>
      have got := registered_getSession uuid crawlerAgents request registered
      have stored := registered_storeSubject uuid crawlerAgents authenticator
        (request.getSession uuid crawlerAgents manager).2 others subject got
      simp only [perform, setSubject_manager]
      exact stored
  | setRequestSubject subject =>
      simp only [perform]
      split
      · exact registered
      · exact registered
  | setAttribute name value => exact registered_changeSession request registered _ (fun _ => rfl)
  | removeAttribute name => exact registered_changeSession request registered _ (fun _ => rfl)
  | invalidateSession => exact registered_changeSession request registered _ (fun _ => rfl)
  | sendHeaders => exact registered

end Generator

end Request

end FastcgiContainer
