import FastcgiContainer.SessionEffects
import FastcgiContainer.SessionOwnership

/-! The session cookie of a response, and the session that the request holds. -/

namespace FastcgiContainer

open Word (Bytes)
open SessionManager (Registered isBot sessionCookieName newId)

inductive SessionCall where
  | getSession
  | createSession
  | changeSessionId
  deriving DecidableEq

def SessionCall.call : SessionCall → Call
  | .getSession => .getSession
  | .createSession => .createSession
  | .changeSessionId => .changeSessionId

namespace Request

/-- The session id that the client will have after the response. -/
def clientCookie (request : Request) : Option Bytes :=
  match request.outCookies.find? sessionCookieName with
  | some cookie => some cookie.value
  | none => request.cookies.find? sessionCookieName

def Agrees (manager : SessionManager) (request : Request) : Prop :=
  ∀ ref, request.session = some ref →
    ∃ id, request.clientCookie = some id ∧ manager.resolve id = some ref

section Generator

variable (uuid : Nat → Bytes) (crawlerAgents : Bytes → Bool) (authenticator : Authenticator)
  (others : List Nat)

/-- A call that keeps the cookie in step with the session: a renaming finds by the
incoming cookie the session that the request holds, and finds the new id free; the
id of a session that is given up is not drawn again. -/
def Orderly (manager : SessionManager) (request : Request) : SessionCall → Prop
  | .getSession => True
  | .createSession => isBot crawlerAgents request = false →
      ∀ ref session, request.session = some ref → manager.objects[ref]? = some session →
        ∀ index, manager.drawn ≤ index → uuid index ≠ session.id
  | .changeSessionId => ∀ named held, manager.named request = some named →
      request.session = some held →
        held = named ∧ manager.resolve (newId uuid crawlerAgents request manager) = none

/-- What a request and the manager come to by orderly calls. -/
inductive Handled (manager : SessionManager) (request : Request) : SessionManager → Request → Prop
  | arrived : Handled manager request manager request
  | call {current : SessionManager} {latest : Request} (next : SessionCall) :
      Handled manager request current latest → Orderly uuid crawlerAgents current latest next →
      Handled manager request
        (latest.perform uuid crawlerAgents authenticator others current next.call).1
        (latest.perform uuid crawlerAgents authenticator others current next.call).2

structure Consistent (manager : SessionManager) (request : Request) : Prop where
  registered : Registered manager
  early : request.headersSent = false
  agrees : Agrees manager request
  unnamed : request.session = none → request.outCookies.find? sessionCookieName ≠ none →
    manager.named request = none

def told (request : Request) (id : Bytes) : Request :=
  { request with
    outCookies := request.outCookies.assign sessionCookieName (SessionManager.sessionCookie request id) }

theorem clientCookie_told (request : Request) (id : Bytes) (session : Option Nat) :
    ({ request.told id with session := session } : Request).clientCookie = some id := by
  unfold clientCookie told
  rw [find?_assign, if_pos rfl]
  rfl

theorem setCookie_told {request : Request} (early : request.headersSent = false) (id : Bytes) :
    request.setCookie (SessionManager.sessionCookie request id) = .ok (request.told id) := by
  unfold setCookie
  rw [if_neg (Bool.eq_false_iff.mp early)]
  rfl

theorem createWithCookie_early {manager : SessionManager} {request : Request}
    (registered : Registered manager) (early : request.headersSent = false) :
    ∃ id, (SessionManager.createInternal uuid crawlerAgents manager request).1.resolve id =
        some (SessionManager.createInternal uuid crawlerAgents manager request).2 ∧
      SessionManager.createWithCookie uuid crawlerAgents manager request =
        ((SessionManager.createInternal uuid crawlerAgents manager request).1,
          .ok ((SessionManager.createInternal uuid crawlerAgents manager request).2,
            request.told id)) := by
  obtain ⟨session, live, found⟩ := SessionManager.createInternal_registered uuid crawlerAgents request
    registered
  refine ⟨session.id, found, ?_⟩
  simp only [SessionManager.createWithCookie, live, Option.map_some, Option.getD_some,
    setCookie_told early]
  rfl

theorem getSession_consistent {manager : SessionManager} {request : Request}
    (consistent : Consistent manager request) :
    Consistent (request.getSession uuid crawlerAgents manager).1
      (request.getSession uuid crawlerAgents manager).2 := by
  have registered := registered_getSession uuid crawlerAgents request consistent.registered
  cases held : request.session with
  | some ref =>
      rw [getSession_held uuid crawlerAgents held]
      exact consistent
  | none =>
      cases named : manager.named request with
      | some ref =>
          rw [getSession_named uuid crawlerAgents held named] at registered ⊢
          have silent : request.outCookies.find? sessionCookieName = none := by
            by_contra spoken
            rw [consistent.unnamed held spoken] at named
            cases named
          obtain ⟨present, found⟩ := SessionManager.named_eq named
          refine ⟨registered, consistent.early, ?_, ?_⟩
          · intro other same
            cases same
            obtain ⟨id, cookie⟩ := Option.isSome_iff_exists.mp present
            refine ⟨id, ?_, ?_⟩
            · simp only [clientCookie, silent, cookie]
            · rw [getCookie, cookie] at found
              exact found
          · intro empty
            cases empty
      | none =>
          obtain ⟨id, found, made⟩ := createWithCookie_early uuid crawlerAgents consistent.registered
            consistent.early
          have got : request.getSession uuid crawlerAgents manager =
              ((SessionManager.createInternal uuid crawlerAgents manager request).1,
                { request.told id with
                  session := some (SessionManager.createInternal uuid crawlerAgents manager request).2 }) := by
            simp only [getSession, held, SessionManager.get, named, made]
          rw [got] at registered ⊢
          refine ⟨registered, consistent.early, ?_, ?_⟩
          · intro other same
            cases same
            exact ⟨id, clientCookie_told request id _, found⟩
          · intro empty
            cases empty

theorem takeSession_registered {manager : SessionManager} {request : Request} {old : Nat} (id : Bytes)
    (held : request.session = some old) (found : manager.resolve id = some old) (next : Option Nat) :
    request.takeSession others manager next = (manager, { request with session := next }) := by
  have present : manager.sessions.entries.any (fun entry => entry.2 == old) = true := by
    rw [List.any_eq_true]
    exact ⟨(id, old), (OrderedMap.find?_eq_some stringLess_exact _ _ _).mp found, by simp⟩
  simp only [takeSession, held, SessionManager.release, present, Bool.or_true, if_true]

theorem createSession_consistent {manager : SessionManager} {request : Request}
    (consistent : Consistent manager request)
    (orderly : Orderly uuid crawlerAgents manager request .createSession) :
    Consistent (request.createSession uuid crawlerAgents others manager).1
      (request.createSession uuid crawlerAgents others manager).2 := by
  have registered := registered_createSession uuid crawlerAgents request others consistent.registered
  obtain ⟨id, found, made⟩ := createWithCookie_early uuid crawlerAgents
    (consistent.registered.ended request) consistent.early
  have got : request.createSession uuid crawlerAgents others manager =
      ((SessionManager.createInternal uuid crawlerAgents (manager.ended request) request).1,
        { request.told id with
          session := some
            (SessionManager.createInternal uuid crawlerAgents (manager.ended request) request).2 }) := by
    simp only [createSession, SessionManager.create_eq, made]
    cases held : request.session with
    | none =>
        have none : (request.told id).session = none := held
        simp only [takeSession, none]
    | some old =>
        obtain ⟨key, _, before⟩ := consistent.agrees old held
        obtain ⟨session, live, bears⟩ := consistent.registered key old before
        have kept : (request.told id).session = some old := held
        apply takeSession_registered others key kept
        apply SessionManager.createInternal_keeps uuid crawlerAgents request
        · rw [SessionManager.resolve_ended]
          exact before
        · intro human index later
          rw [SessionManager.drawn_ended] at later
          rw [← bears]
          exact orderly human old session held live index later
  rw [got] at registered ⊢
  refine ⟨registered, consistent.early, ?_, ?_⟩
  · intro other same
    cases same
    exact ⟨id, clientCookie_told request id _, found⟩
  · intro empty
    cases empty

theorem changeSessionId_consistent {manager : SessionManager} {request : Request}
    (consistent : Consistent manager request)
    (orderly : Orderly uuid crawlerAgents manager request .changeSessionId) :
    Consistent
      (request.perform uuid crawlerAgents authenticator others manager .changeSessionId).1
      (request.perform uuid crawlerAgents authenticator others manager .changeSessionId).2 := by
  have registered := registered_perform uuid crawlerAgents authenticator request others
    consistent.registered .changeSessionId
  simp only [perform, changeSessionId] at registered ⊢
  cases named : manager.named request with
  | none =>
      have idle : SessionManager.changeId uuid crawlerAgents manager
          (others ++ request.session.toList) request = (manager, .ok request) := by
        simp only [SessionManager.changeId, named]
      rw [idle]
      exact consistent
  | some ref =>
      have known := (SessionManager.named_eq named).2
      cases held : request.session with
      | some current =>
          obtain ⟨rfl, free⟩ := orderly ref current named held
          obtain ⟨renamed, outcome⟩ := SessionManager.changeId_free uuid crawlerAgents request
            (others ++ request.session.toList) named free
          rw [setCookie_told consistent.early] at outcome
          rw [held] at renamed outcome registered
          generalize SessionManager.changeId uuid crawlerAgents manager
            (others ++ (some current).toList) request = result at renamed outcome registered ⊢
          obtain ⟨after, told⟩ := result
          cases outcome
          refine ⟨registered, consistent.early, ?_, ?_⟩
          · intro other same
            obtain rfl : current = other := Option.some.inj (held.symm.trans same)
            refine ⟨_, clientCookie_told request _ request.session, ?_⟩
            rw [renamed.resolves, if_neg, if_pos rfl]
            intro twin
            rw [twin, known] at free
            cases free
          · intro empty
            cases held.symm.trans empty
      | none =>
          have gone := SessionManager.changeId_gone uuid crawlerAgents request
            (others ++ request.session.toList) named
          rw [setCookie_told consistent.early] at gone
          rw [held] at gone registered
          generalize SessionManager.changeId uuid crawlerAgents manager
            (others ++ (none : Option Nat).toList) request = result at gone registered ⊢
          obtain ⟨after, outcome⟩ := result
          rcases gone with ⟨exn, failed⟩ | ⟨missing, told⟩
          · cases failed
            refine ⟨registered, consistent.early, ?_, ?_⟩
            · intro other same
              cases held.symm.trans same
            · intro empty spoken
              rw [consistent.unnamed held spoken] at named
              cases named
          · cases told
            refine ⟨registered, consistent.early, ?_, ?_⟩
            · intro other same
              cases held.symm.trans same
            · intro _ _
              have absent : after.named (request.told (newId uuid crawlerAgents request manager)) =
                  none := SessionManager.named_none missing
              exact absent

theorem perform_consistent {manager : SessionManager} {request : Request}
    (consistent : Consistent manager request) (next : SessionCall)
    (orderly : Orderly uuid crawlerAgents manager request next) :
    Consistent (request.perform uuid crawlerAgents authenticator others manager next.call).1
      (request.perform uuid crawlerAgents authenticator others manager next.call).2 := by
  cases next with
  | getSession => exact getSession_consistent uuid crawlerAgents consistent
  | createSession => exact createSession_consistent uuid crawlerAgents others consistent orderly
  | changeSessionId =>
      exact changeSessionId_consistent uuid crawlerAgents authenticator others consistent orderly

/-- After orderly calls the client will name the session that the request holds. -/
theorem client_names_held_session (manager : SessionManager) (registered : Registered manager)
    (request : Request) (early : request.headersSent = false) (empty : request.session = none)
    (silent : request.outCookies.find? sessionCookieName = none) (current : SessionManager)
    (latest : Request)
    (handled : Handled uuid crawlerAgents authenticator others manager request current latest) :
    Agrees current latest := by
  have consistent : Consistent current latest := by
    induction handled with
    | arrived =>
        refine ⟨registered, early, ?_, ?_⟩
        · intro ref held
          rw [empty] at held
          cases held
        · intro _ spoken
          exact absurd silent spoken
    | call next _ orderly ih =>
        exact perform_consistent uuid crawlerAgents authenticator others ih next orderly
  exact consistent.agrees

end Generator

section Sample

open World (sampleIds sampleCrawlers sampleAuthenticator sampleBrowser sampleManager)

def sampleCalls (first second : SessionCall) : SessionManager × Request :=
  let once := (sampleBrowser (some (sampleIds 0))).perform sampleIds sampleCrawlers
    sampleAuthenticator [] sampleManager first.call
  once.2.perform sampleIds sampleCrawlers sampleAuthenticator [] once.1 second.call

/-- The request holds the session it has created, and the client is told the id of
the session that it came with. -/
theorem client_names_other_session :
    (sampleCalls .createSession .changeSessionId).2.session = some 1 ∧
      (sampleCalls .createSession .changeSessionId).2.clientCookie = some (sampleIds 2) ∧
      (sampleCalls .createSession .changeSessionId).1.resolve (sampleIds 2) = some 0 ∧
      (sampleCalls .createSession .changeSessionId).1.resolve (sampleIds 1) = some 1 := by
  decide +kernel

theorem client_names_held_session_renamed :
    (sampleCalls .getSession .changeSessionId).2.session = some 0 ∧
      Agrees (sampleCalls .getSession .changeSessionId).1
        (sampleCalls .getSession .changeSessionId).2 := by
  refine ⟨by decide +kernel, ?_⟩
  apply client_names_held_session sampleIds sampleCrawlers sampleAuthenticator [] sampleManager
    ((SessionManager.registered_start 0 30).createInternal sampleIds sampleCrawlers
      (sampleBrowser none)) (sampleBrowser (some (sampleIds 0))) rfl rfl rfl
  apply Handled.call .changeSessionId (Handled.call .getSession Handled.arrived trivial)
  intro named held found holds
  let once := (sampleBrowser (some (sampleIds 0))).perform sampleIds sampleCrawlers
    sampleAuthenticator [] sampleManager SessionCall.getSession.call
  have first : once.1.named once.2 = some 0 := by decide +kernel
  have second : once.2.session = some 0 := by decide +kernel
  have free : once.1.resolve (newId sampleIds sampleCrawlers once.2 once.1) = none := by
    decide +kernel
  refine ⟨?_, free⟩
  have left : some 0 = some named := first.symm.trans found
  have right : some 0 = some held := second.symm.trans holds
  exact Option.some.inj (right.symm.trans left)

end Sample

end Request

end FastcgiContainer
