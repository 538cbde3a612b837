import FastcgiContainer.SessionRuns

/-! The threads that handle the requests. A call is cut where it leaves the lock of the session
manager, so that the calls of other threads come in between. -/

namespace FastcgiContainer

open Word (Bytes)

/-- What `isAuthenticated` does with the session that it was given. -/
def Authenticator.copySubject (request : Request) (session : Session) : Request × Except Exn Bool :=
  if session.getSubject.isAnonymous then (request, .ok (!request.getSubject.isAnonymous))
  else
    match request.setSubject session.getSubject with
    | .error exn => (request, .error exn)
    | .ok request => (request, .ok true)

/-- Where a thread is in a call. -/
inductive Point where
  | idle
  /-- In `isAuthenticated`, before `session->getSubject()`. -/
  | reading (ref : Nat)
  /-- In `setSubject`, before `session->setSubject(subject)`. -/
  | storing (ref : Nat) (subject : Subject)
  /-- In `setSubject`, before `request->changeSessionId()`. -/
  | changing (subject : Subject)
  /-- In `createSession`, before the session is assigned. -/
  | assigning (ref : Option Nat)
  /-- In `Session::invalidate`, before `subject_.reset()`. -/
  | clearing (ref : Nat)
  /-- In `Session::invalidate`, before `last_accessed_` is set. -/
  | ageing (ref : Nat)
  deriving DecidableEq

/-- A thread with its request, and the last answer of `isAuthenticated`. -/
structure Thread where
  request : Request
  point : Point
  answer : Option (Except Exn Bool)

namespace Thread

def held (thread : Thread) : List Nat :=
  thread.request.session.toList ++
    match thread.point with
    | .assigning ref => ref.toList
    | _ => []

/-- A subject that cannot be assigned is left out, with an error for the handler. -/
def assignSubject (request : Request) (subject : Subject) : Request :=
  match request.setSubject subject with
  | .error _ => request
  | .ok next => next

section Generator

variable (uuid : Nat → Bytes) (crawlerAgents : Bytes → Bool) (authenticator : Authenticator)

/-- The first part of a call, up to where the lock is given back. -/
def call (thread : Thread) (others : List Nat) (manager : SessionManager) : Call → SessionManager × Thread
  | .createSession =>
      match SessionManager.create uuid crawlerAgents manager thread.request with
      | (manager, .ok (ref, request)) => (manager, { thread with request, point := .assigning (some ref) })
      | (manager, .error _) => (manager, { thread with point := .assigning none })
  | .isAuthenticated =>
      if thread.request.getSubject.isAnonymous then
        let (manager, request) := thread.request.getSession uuid crawlerAgents manager
        match request.session with
        | none => (manager, ⟨request, .idle, some (.ok (!request.getSubject.isAnonymous))⟩)
        | some ref => (manager, ⟨request, .reading ref, none⟩)
      else (manager, { thread with answer := some (.ok true) })
  | .setSubject subject =>
      let (manager, request) := thread.request.getSession uuid crawlerAgents manager
      match request.session with
      | none => (manager, { thread with request := assignSubject request subject })
      | some ref => (manager, { thread with request, point := .storing ref subject })
  | .invalidateSession =>
      match thread.request.session with
      | none => (manager, thread)
      | some ref =>
          (manager.modify ref (fun session => { session with attributes := .empty }),
            { thread with point := .clearing ref })
  | call =>
      let (manager, request) := thread.request.perform uuid crawlerAgents authenticator others manager call
      (manager, { thread with request })

def resume (thread : Thread) (others : List Nat) (manager : SessionManager) : SessionManager × Thread :=
  match thread.point with
  | .idle => (manager, thread)
  | .reading ref =>
      match manager.objects[ref]? with
      | none => (manager, ⟨thread.request, .idle, some (.ok (!thread.request.getSubject.isAnonymous))⟩)
      | some session =>
          let (request, answer) := Authenticator.copySubject thread.request session
          (manager, ⟨request, .idle, some answer⟩)
  | .storing ref subject =>
      let manager := manager.modify ref (fun session => { session with subject := some subject })
      if !subject.isAnonymous && authenticator.changeSessionIdOnAuthentication then
        (manager, { thread with point := .changing subject })
      else (manager, { thread with request := assignSubject thread.request subject, point := .idle })
  | .changing subject =>
      match thread.request.changeSessionId uuid crawlerAgents others manager with
      | (manager, .error _) => (manager, { thread with point := .idle })
      | (manager, .ok request) => (manager, { thread with request := assignSubject request subject, point := .idle })
  | .assigning next =>
      let (manager, request) := thread.request.takeSession others manager next
      (manager, { thread with request, point := .idle })
  | .clearing ref =>
      (manager.modify ref (fun session => { session with subject := none }), { thread with point := .ageing ref })
  | .ageing ref =>
      (manager.modify ref (fun session =>
        { session with lastAccessed := manager.now - session.maxInactive * Session.minute }),
        { thread with point := .idle })

/-- No call has more than three parts behind its first. -/
def settle (others : List Nat) (state : SessionManager × Thread) : SessionManager × Thread :=
  let next := fun state : SessionManager × Thread => state.2.resume uuid crawlerAgents authenticator others state.1
  next (next (next state))

end Generator

end Thread

/-- The session manager, and the threads of all requests that were ever accepted. -/
structure SessionThreads where
  manager : SessionManager
  threads : List Thread

inductive ThreadStep where
  | act (action : Action)
  | resume (index : Nat)

namespace SessionThreads

def start (now maxInactiveInterval : Int) : SessionThreads := ⟨.start now maxInactiveInterval, []⟩

def others (world : SessionThreads) (index : Nat) : List Nat := (world.threads.eraseIdx index).flatMap Thread.held

def update (world : SessionThreads) (index : Nat) (result : SessionManager × Thread) : SessionThreads :=
  ⟨result.1, world.threads.set index result.2⟩

def onThread (world : SessionThreads) (index : Nat) (act : Thread → SessionManager × Thread) : SessionThreads :=
  match world.threads[index]? with
  | none => world
  | some thread => world.update index (act thread)

section Generator

variable (uuid : Nat → Bytes) (crawlerAgents : Bytes → Bool) (authenticator : Authenticator)

/-- A thread begins a call, or ends, only when it is in no call. -/
def step (world : SessionThreads) : ThreadStep → SessionThreads
  | .act (.arrive request) =>
      { world with threads := world.threads ++ [⟨{ request with session := none, subject := none }, .idle, none⟩] }
  | .act (.call index call) =>
      world.onThread index (fun thread =>
        if thread.point = .idle then
          thread.call uuid crawlerAgents authenticator (world.others index) world.manager call
        else (world.manager, thread))
  | .act (.finish index) =>
      world.onThread index (fun thread =>
        if thread.point = .idle then
          let (manager, request) := thread.request.takeSession (world.others index) world.manager none
          (manager, { thread with request })
        else (world.manager, thread))
  | .act (.elapse time) => { world with manager := { world.manager with now := world.manager.now + time } }
  | .act .checkSessionTimeout => { world with manager := world.manager.checkSessionTimeout }
  | .resume index =>
      world.onThread index (fun thread =>
        thread.resume uuid crawlerAgents authenticator (world.others index) world.manager)

def Later (world next : SessionThreads) : Prop :=
  Relation.ReflTransGen (fun world next => ∃ action, next = step uuid crawlerAgents authenticator world action)
    world next

theorem later_run (actions : List ThreadStep) (world : SessionThreads) :
    Later uuid crawlerAgents authenticator world (actions.foldl (step uuid crawlerAgents authenticator) world) := by
  induction actions generalizing world with
  | nil => exact Relation.ReflTransGen.refl
  | cons action actions ih => exact Relation.ReflTransGen.head ⟨action, rfl⟩ (ih _)

end Generator

end SessionThreads

namespace Thread

section Generator

open Request (SameClient Obtains)
open SessionManager (Registered isBot crawlerAgentSessionId)

variable (uuid : Nat → Bytes) (crawlerAgents : Bytes → Bool) (authenticator : Authenticator)

theorem modify_modify (manager : SessionManager) (ref : Nat) (first second : Session → Session) :
    (manager.modify ref first).modify ref second = manager.modify ref (second ∘ first) := by
  simp [SessionManager.modify, List.modify_modify_eq]

/-- A call that no other request comes between is the one that `Request.perform` makes at once. -/
theorem settle_call (thread : Thread) (others : List Nat) (manager : SessionManager) (call : Call)
    (idle : thread.point = .idle) :
    let result := settle uuid crawlerAgents authenticator others
      (thread.call uuid crawlerAgents authenticator others manager call)
    result.2.point = .idle ∧
      (result.1, result.2.request) = thread.request.perform uuid crawlerAgents authenticator others manager call := by
  obtain ⟨request, point, answer⟩ := thread
  subst idle
  cases call with
  | createSession =>
      simp only [Thread.call, Request.perform, Request.createSession]
      cases made : SessionManager.create uuid crawlerAgents manager request with
      | mk after outcome => cases outcome <;> exact ⟨rfl, rfl⟩
  | isAuthenticated =>
      simp only [Thread.call, Request.perform, Authenticator.isAuthenticated]
      by_cases anonymous : request.getSubject.isAnonymous = true
      · rw [if_pos anonymous, if_pos anonymous]
        cases held : (request.getSession uuid crawlerAgents manager).2.session with
        | none => exact ⟨rfl, rfl⟩
        | some ref =>
            simp only [settle, resume, Option.bind_some]
            cases live : (request.getSession uuid crawlerAgents manager).1.objects[ref]? with
            | none => exact ⟨rfl, rfl⟩
            | some session =>
                simp only [Authenticator.copySubject]
                by_cases known : session.getSubject.isAnonymous = true
                · rw [if_pos known, if_pos known]
                  exact ⟨trivial, rfl⟩
                · rw [if_neg known, if_neg known]
                  cases assigned : (request.getSession uuid crawlerAgents manager).2.setSubject session.getSubject <;>
                    exact ⟨trivial, rfl⟩
      · rw [if_neg anonymous, if_neg anonymous]
        exact ⟨rfl, rfl⟩
  | setSubject subject =>
      simp only [Thread.call, Request.perform, Authenticator.setSubject, Authenticator.storeSubject]
      cases held : (request.getSession uuid crawlerAgents manager).2.session with
      | none =>
          simp only [settle, resume, assignSubject]
          cases (request.getSession uuid crawlerAgents manager).2.setSubject subject <;> exact ⟨trivial, rfl⟩
      | some ref =>
          simp only [settle, resume]
          by_cases renames : (!subject.isAnonymous && authenticator.changeSessionIdOnAuthentication) = true
          · simp only [if_pos renames]
            generalize (request.getSession uuid crawlerAgents manager).1.modify ref
              (fun session => { session with subject := some subject }) = stored
            cases changed : (request.getSession uuid crawlerAgents manager).2.changeSessionId uuid crawlerAgents others
                stored with
            | mk after outcome =>
                cases outcome with
                | error exn => exact ⟨rfl, rfl⟩
                | ok next =>
                    simp only [assignSubject]
                    cases next.setSubject subject <;> exact ⟨trivial, rfl⟩
          · simp only [if_neg renames, assignSubject]
            cases (request.getSession uuid crawlerAgents manager).2.setSubject subject <;> exact ⟨trivial, rfl⟩
  | invalidateSession =>
      simp only [Thread.call, Request.perform, Request.changeSession]
      cases held : request.session with
      | none => exact ⟨rfl, rfl⟩
      | some ref =>
          simp only [settle, resume, modify_modify]
          exact ⟨trivial, rfl⟩
  | getSession => exact ⟨rfl, rfl⟩
  | changeSessionId => exact ⟨rfl, rfl⟩
  | setRequestSubject subject => exact ⟨rfl, rfl⟩
  | setAttribute name value => exact ⟨rfl, rfl⟩
  | removeAttribute name => exact ⟨rfl, rfl⟩
  | sendHeaders => exact ⟨rfl, rfl⟩

end Generator

end Thread

end FastcgiContainer
