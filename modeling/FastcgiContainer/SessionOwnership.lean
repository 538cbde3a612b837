import FastcgiContainer.SessionThreads

/-! Whose session a request is authenticated by. In every interleaving of the threads, a session
that a thread holds was named by the cookie of its request when the thread obtained it, or was made
by the thread, or is the one session of all crawlers. -/

namespace FastcgiContainer

open Word (Bytes)
open SessionManager (Registered isBot crawlerAgentSessionId sessionCookieName)
open Request (SameClient Obtains Bears)

namespace Thread

section Generator

variable (uuid : Nat → Bytes) (crawlerAgents : Bytes → Bool) (authenticator : Authenticator)

theorem mem_held {thread : Thread} {ref : Nat} :
    ref ∈ thread.held ↔ thread.request.session = some ref ∨ thread.point = .assigning (some ref) := by
  obtain ⟨request, point, answer⟩ := thread
  cases point with
  | assigning next => cases next <;> simp [held, eq_comm]
  | idle => simp [held]
  | reading other => simp [held]
  | storing other subject => simp [held]
  | changing subject => simp [held]
  | clearing other => simp [held]
  | ageing other => simp [held]

theorem assignSubject_kept (request : Request) (subject : Subject) :
    SameClient request (assignSubject request subject) ∧ (assignSubject request subject).session = request.session := by
  unfold assignSubject
  split
  · exact ⟨SameClient.refl request, rfl⟩
  · next next done =>
      obtain ⟨client, session, _⟩ := Request.setSubject_kept done
      exact ⟨client, session⟩

theorem copySubject_kept (request : Request) (session : Session) :
    SameClient request (Authenticator.copySubject request session).1 ∧
      (Authenticator.copySubject request session).1.session = request.session := by
  unfold Authenticator.copySubject
  split
  · exact ⟨SameClient.refl request, rfl⟩
  · split
    · exact ⟨SameClient.refl request, rfl⟩
    · next next done =>
        obtain ⟨client, held, _⟩ := Request.setSubject_kept done
        exact ⟨client, held⟩

theorem copySubject_taken {request : Request} {session : Session} (anonymous : request.getSubject.isAnonymous = true)
    (taken : (Authenticator.copySubject request session).2 = .ok true) :
    session.getSubject.isAnonymous = false ∧
      (Authenticator.copySubject request session).1.subject = some session.getSubject := by
  unfold Authenticator.copySubject at taken ⊢
  split at taken
  · rw [anonymous] at taken
    cases taken
  · next known =>
      rw [if_neg known]
      refine ⟨by simpa using known, ?_⟩
      split at taken
      · cases taken
      · next next done =>
          unfold Request.setSubject at done
          rw [if_neg known] at done
          split at done
          · cases done
          · cases done
            rfl

structure Begins (thread : Thread) (manager : SessionManager) (call : Call) (next : Thread) : Prop where
  client : SameClient thread.request next.request
  held : ∀ ref, ref ∈ next.held → ref ∈ thread.held ∨ Obtains crawlerAgents thread.request manager ref
  /-- A thread that is about to read a session has just been given this session. -/
  reading : ∀ ref, next.point = .reading ref → call = .isAuthenticated ∧ next.request.session = some ref ∧
    (thread.request.session = some ref ∨ Obtains crawlerAgents thread.request manager ref)
  answer : thread.request.getSubject.isAnonymous = true → next.answer = some (.ok true) →
    thread.answer = some (.ok true)

/-- A part that leaves the thread in no other call, with what `perform` makes of its request. -/
theorem begins_perform {thread : Thread} (others : List Nat) {manager : SessionManager} {call : Call}
    (unique : ∀ index, uuid index ≠ crawlerAgentSessionId) (registered : Registered manager)
    (idle : thread.point = .idle) :
    Begins crawlerAgents thread manager call { thread with request :=
      (thread.request.perform uuid crawlerAgents authenticator others manager call).2 } := by
  refine ⟨Request.perform_kept _ _ _ _ _ _ _, ?_, ?_, fun _ same => same⟩
  · intro ref held
    rcases mem_held.mp held with session | assigned
    · rcases Request.perform_obtains uuid crawlerAgents authenticator unique registered session with old | obtains
      · exact Or.inl (mem_held.mpr (Or.inl old))
      · exact Or.inr obtains
    · rw [idle] at assigned
      cases assigned
  · intro ref reading
    rw [idle] at reading
    cases reading

theorem begins_call {thread : Thread} (others : List Nat) {manager : SessionManager}
    (unique : ∀ index, uuid index ≠ crawlerAgentSessionId) (registered : Registered manager)
    (idle : thread.point = .idle) (call : Call) :
    Begins crawlerAgents thread manager call
      (thread.call uuid crawlerAgents authenticator others manager call).2 := by
  have got := Request.getSession_kept uuid crawlerAgents thread.request manager
  have source : ∀ ref, (thread.request.getSession uuid crawlerAgents manager).2.session = some ref →
      thread.request.session = some ref ∨ Obtains crawlerAgents thread.request manager ref :=
    fun ref held => Request.getSession_obtains uuid crawlerAgents unique registered held
  have sourceHeld : ∀ ref, (thread.request.getSession uuid crawlerAgents manager).2.session = some ref →
      ref ∈ thread.held ∨ Obtains crawlerAgents thread.request manager ref :=
    fun ref held => (source ref held).imp_left (fun old => mem_held.mpr (Or.inl old))
  cases call with
  | createSession =>
      simp only [Thread.call]
      split
      · next after ref request made =>
          have obtains := Request.create_obtains uuid crawlerAgents unique registered made
          rw [SessionManager.create_eq] at made
          obtain ⟨_, client, session, _⟩ := Request.createWithCookie_request uuid crawlerAgents made
          refine ⟨client, ?_, (fun _ reading => by cases reading), fun _ same => same⟩
          intro other held
          rcases mem_held.mp held with old | new
          · exact Or.inl (mem_held.mpr (Or.inl (session.symm.trans old)))
          · cases new
            exact Or.inr obtains
      · refine ⟨SameClient.refl _, ?_, (fun _ reading => by cases reading), fun _ same => same⟩
        intro other held
        rcases mem_held.mp held with old | new
        · exact Or.inl (mem_held.mpr (Or.inl old))
        · cases new
  | isAuthenticated =>
      simp only [Thread.call]
      by_cases anonymous : thread.request.getSubject.isAnonymous = true
      · rw [if_pos anonymous]
        have still : (thread.request.getSession uuid crawlerAgents manager).2.getSubject.isAnonymous = true := by
          rw [Request.getSubject, got.2]
          exact anonymous
        cases held : (thread.request.getSession uuid crawlerAgents manager).2.session with
        | none =>
            refine ⟨got.1, ?_, (fun _ reading => by cases reading), ?_⟩
            · intro ref kept
              rcases mem_held.mp kept with session | wrong
              · exact sourceHeld ref session
              · cases wrong
            · intro _ answered
              simp [still] at answered
        | some ref =>
            refine ⟨got.1, ?_, ?_, (fun _ answered => by cases answered)⟩
            · intro other kept
              rcases mem_held.mp kept with session | wrong
              · exact sourceHeld other session
              · cases wrong
            · rintro other reading
              cases reading
              exact ⟨rfl, held, source ref held⟩
      · rw [if_neg anonymous]
        refine ⟨SameClient.refl _, fun _ kept => Or.inl kept, ?_, fun named => absurd named anonymous⟩
        intro ref reading
        rw [idle] at reading
        cases reading
  | setSubject subject =>
      simp only [Thread.call]
      cases held : (thread.request.getSession uuid crawlerAgents manager).2.session with
      | none =>
          obtain ⟨client, session⟩ := assignSubject_kept (thread.request.getSession uuid crawlerAgents manager).2 subject
          refine ⟨got.1.trans client, ?_, ?_, fun _ same => same⟩
          · intro ref kept
            rcases mem_held.mp kept with found | wrong
            · exact sourceHeld ref (session.symm.trans found)
            · rw [idle] at wrong
              cases wrong
          · intro ref reading
            rw [idle] at reading
            cases reading
      | some ref =>
          refine ⟨got.1, ?_, (fun _ reading => by cases reading), fun _ same => same⟩
          intro other kept
          rcases mem_held.mp kept with session | wrong
          · exact sourceHeld other session
          · cases wrong
  | invalidateSession =>
      simp only [Thread.call]
      cases held : thread.request.session with
      | none =>
          refine ⟨SameClient.refl _, fun _ kept => Or.inl kept, ?_, fun _ same => same⟩
          intro ref reading
          rw [idle] at reading
          cases reading
      | some ref =>
          refine ⟨SameClient.refl _, ?_, (fun _ reading => by cases reading), fun _ same => same⟩
          intro other kept
          rcases mem_held.mp kept with session | wrong
          · exact Or.inl (mem_held.mpr (Or.inl session))
          · cases wrong
  | getSession => exact begins_perform uuid crawlerAgents authenticator others unique registered idle
  | changeSessionId => exact begins_perform uuid crawlerAgents authenticator others unique registered idle
  | setRequestSubject subject => exact begins_perform uuid crawlerAgents authenticator others unique registered idle
  | setAttribute name value => exact begins_perform uuid crawlerAgents authenticator others unique registered idle
  | removeAttribute name => exact begins_perform uuid crawlerAgents authenticator others unique registered idle
  | sendHeaders => exact begins_perform uuid crawlerAgents authenticator others unique registered idle

structure Resumes (thread : Thread) (next : Thread) : Prop where
  client : SameClient thread.request next.request
  held : ∀ ref, ref ∈ next.held → ref ∈ thread.held
  elsewhere : ∀ ref, next.point = .reading ref → next = thread

theorem resumes_resume (thread : Thread) (others : List Nat) (manager : SessionManager) :
    Resumes thread (thread.resume uuid crawlerAgents authenticator others manager).2 := by
  -- a thread that is in no call any more holds the session of its request
  have settled : ∀ (request : Request) (answer : Option (Except Exn Bool)), SameClient thread.request request →
      request.session = thread.request.session → Resumes thread ⟨request, .idle, answer⟩ := by
    intro request answer client session
    refine ⟨client, ?_, (fun _ reading => by cases reading)⟩
    intro ref kept
    rcases mem_held.mp kept with found | wrong
    · exact mem_held.mpr (Or.inl (session.symm.trans found))
    · cases wrong
  -- and so does one that is elsewhere in its call
  have moved : ∀ point : Point, (∀ ref, point ≠ .reading ref) → (∀ ref, point ≠ .assigning ref) →
      Resumes thread { thread with point } := by
    intro point notReading notAssigning
    refine ⟨SameClient.refl _, ?_, fun ref reading => absurd reading (notReading ref)⟩
    intro ref kept
    rcases mem_held.mp kept with found | wrong
    · exact mem_held.mpr (Or.inl found)
    · exact absurd wrong (notAssigning _)
  unfold resume
  cases point : thread.point with
  | idle => exact ⟨SameClient.refl _, fun _ kept => kept, fun _ _ => rfl⟩
  | reading ref =>
      simp only
      split
      · exact settled _ _ (SameClient.refl _) rfl
      · next session live =>
          obtain ⟨client, same⟩ := copySubject_kept thread.request session
          exact settled _ _ client same
  | storing ref subject =>
      simp only
      split
      · exact moved _ (by simp) (by simp)
      · obtain ⟨client, same⟩ := assignSubject_kept thread.request subject
        exact settled _ _ client same
  | changing subject =>
      simp only
      split
      · exact settled _ _ (SameClient.refl _) rfl
      · next after next done =>
          obtain ⟨client, same, _⟩ := Request.changeId_kept uuid crawlerAgents done
          obtain ⟨more, again⟩ := assignSubject_kept next subject
          exact settled _ _ (client.trans more) (again.trans same)
  | assigning next =>
      obtain ⟨client, session⟩ := Request.takeSession_kept thread.request others manager next
      refine ⟨client, ?_, (fun _ reading => by cases reading)⟩
      intro ref kept
      rcases mem_held.mp kept with found | wrong
      · rw [session] at found
        exact mem_held.mpr (Or.inr (by rw [point, found]))
      · cases wrong
  | clearing ref => exact moved _ (by simp) (by simp)
  | ageing ref => exact settled _ _ (SameClient.refl _) rfl

theorem registered_call (thread : Thread) (others : List Nat) {manager : SessionManager}
    (registered : Registered manager) (call : Call) :
    Registered (thread.call uuid crawlerAgents authenticator others manager call).1 := by
  have got := Request.registered_getSession uuid crawlerAgents thread.request registered
  have performed := Request.registered_perform uuid crawlerAgents authenticator thread.request others registered
  cases call with
  | createSession =>
      have made := registered.create uuid crawlerAgents thread.request
      simp only [Thread.call]
      split
      · next same => rwa [same] at made
      · next same => rwa [same] at made
  | isAuthenticated =>
      simp only [Thread.call]
      split
      · split
        · exact got
        · exact got
      · exact registered
  | setSubject subject =>
      simp only [Thread.call]
      split
      · exact got
      · exact got
  | invalidateSession =>
      simp only [Thread.call]
      split
      · exact registered
      · exact registered.modify _ _ (fun _ => rfl)
  | getSession => exact performed .getSession
  | changeSessionId => exact performed .changeSessionId
  | setRequestSubject subject => exact performed (.setRequestSubject subject)
  | setAttribute name value => exact performed (.setAttribute name value)
  | removeAttribute name => exact performed (.removeAttribute name)
  | sendHeaders => exact performed .sendHeaders

theorem registered_resume (thread : Thread) (others : List Nat) {manager : SessionManager}
    (registered : Registered manager) :
    Registered (thread.resume uuid crawlerAgents authenticator others manager).1 := by
  unfold resume
  cases thread.point with
  | idle => exact registered
  | reading ref =>
      simp only
      split
      · exact registered
      · exact registered
  | storing ref subject =>
      have stored := registered.modify ref (fun session => { session with subject := some subject }) (fun _ => rfl)
      simp only
      split
      · exact stored
      · exact stored
  | changing subject =>
      have done := registered.changeId uuid crawlerAgents thread.request (others ++ thread.request.session.toList)
      simp only [Request.changeSessionId]
      split
      · next same => rwa [same] at done
      · next same => rwa [same] at done
  | assigning next => exact Request.registered_takeSession thread.request others registered next
  | clearing ref => exact registered.modify _ _ (fun _ => rfl)
  | ageing ref => exact registered.modify _ _ (fun _ => rfl)

end Generator

end Thread

namespace SessionThreads

section Generator

variable (uuid : Nat → Bytes) (crawlerAgents : Bytes → Bool) (authenticator : Authenticator)

/-- The thread has obtained the session by a call of its own, earlier in the run. -/
def Obtained (origin world : SessionThreads) (index : Nat) (thread : Thread) (ref : Nat) : Prop :=
  ∃ past earlier call after, Later uuid crawlerAgents authenticator origin past ∧
    past.threads[index]? = some earlier ∧ SameClient earlier.request thread.request ∧
    Obtains crawlerAgents earlier.request past.manager ref ∧
    (past.step uuid crawlerAgents authenticator (.act (.call index call))).threads[index]? = some after ∧
    ref ∈ after.held ∧
    Later uuid crawlerAgents authenticator
      (past.step uuid crawlerAgents authenticator (.act (.call index call))) world

/-- The thread has asked for its session in `isAuthenticated`, and has not read it yet. -/
def Asked (origin world : SessionThreads) (index : Nat) (thread : Thread) (ref : Nat) : Prop :=
  ∃ past earlier, Later uuid crawlerAgents authenticator origin past ∧
    past.threads[index]? = some earlier ∧ SameClient earlier.request thread.request ∧
    (past.step uuid crawlerAgents authenticator (.act (.call index .isAuthenticated))).threads[index]? = some thread ∧
    Later uuid crawlerAgents authenticator
      (past.step uuid crawlerAgents authenticator (.act (.call index .isAuthenticated))) world ∧
    (earlier.request.session = some ref ∨ Obtains crawlerAgents earlier.request past.manager ref)

theorem Obtained.later {origin world : SessionThreads} {index ref : Nat} {thread after : Thread}
    (obtained : Obtained uuid crawlerAgents authenticator origin world index thread ref) (action : ThreadStep)
    (client : SameClient thread.request after.request) :
    Obtained uuid crawlerAgents authenticator origin (world.step uuid crawlerAgents authenticator action) index after
      ref := by
  obtain ⟨past, earlier, call, given, before, arrived, same, obtains, here, held, rest⟩ := obtained
  exact ⟨past, earlier, call, given, before, arrived, same.trans client, obtains, here, held, rest.tail ⟨action, rfl⟩⟩

theorem Asked.later {origin world : SessionThreads} {index ref : Nat} {thread : Thread}
    (asked : Asked uuid crawlerAgents authenticator origin world index thread ref) (action : ThreadStep) :
    Asked uuid crawlerAgents authenticator origin (world.step uuid crawlerAgents authenticator action) index thread
      ref := by
  obtain ⟨past, earlier, before, arrived, client, here, rest, source⟩ := asked
  exact ⟨past, earlier, before, arrived, client, here, rest.tail ⟨action, rfl⟩, source⟩

structure Sound (origin world : SessionThreads) : Prop where
  reached : Later uuid crawlerAgents authenticator origin world
  registered : Registered world.manager
  obtained : ∀ index thread ref, world.threads[index]? = some thread → ref ∈ thread.held →
    Obtained uuid crawlerAgents authenticator origin world index thread ref
  reading : ∀ index thread ref, world.threads[index]? = some thread → thread.point = .reading ref →
    thread.request.session = some ref ∧ Asked uuid crawlerAgents authenticator origin world index thread ref

theorem onThread_threads {world : SessionThreads} {index other : Nat} {act : Thread → SessionManager × Thread}
    {thread : Thread} (here : (world.onThread index act).threads[other]? = some thread) :
    world.threads[other]? = some thread ∨
      ∃ before, other = index ∧ world.threads[index]? = some before ∧ thread = (act before).2 := by
  unfold onThread at here
  split at here
  · exact Or.inl here
  · next before found =>
      simp only [update, List.getElem?_set] at here
      split at here
      · next same =>
          subst same
          split at here
          · cases here
            exact Or.inr ⟨before, rfl, found, rfl⟩
          · cases here
      · exact Or.inl here

theorem onThread_manager (world : SessionThreads) (index : Nat) (act : Thread → SessionManager × Thread) :
    (world.onThread index act).manager = world.manager ∨
      ∃ before, world.threads[index]? = some before ∧ (world.onThread index act).manager = (act before).1 := by
  unfold onThread
  split
  · exact Or.inl rfl
  · next before found => exact Or.inr ⟨before, found, rfl⟩

variable {uuid crawlerAgents authenticator}

/-- A step of one thread keeps what holds, if the sessions that it holds then, and the one that it
is about to read, have their source. -/
theorem Sound.onThread {origin world : SessionThreads}
    (sound : Sound uuid crawlerAgents authenticator origin world) (action : ThreadStep) (index : Nat)
    (act : Thread → SessionManager × Thread)
    (moved : world.step uuid crawlerAgents authenticator action = world.onThread index act)
    (registered : ∀ thread, world.threads[index]? = some thread → Registered (act thread).1)
    (obtained : ∀ thread ref, world.threads[index]? = some thread → ref ∈ (act thread).2.held →
      Obtained uuid crawlerAgents authenticator origin (world.step uuid crawlerAgents authenticator action) index
        (act thread).2 ref)
    (reading : ∀ thread ref, world.threads[index]? = some thread → (act thread).2.point = .reading ref →
      (act thread).2.request.session = some ref ∧ Asked uuid crawlerAgents authenticator origin
        (world.step uuid crawlerAgents authenticator action) index (act thread).2 ref) :
    Sound uuid crawlerAgents authenticator origin (world.step uuid crawlerAgents authenticator action) := by
  refine ⟨sound.reached.tail ⟨action, rfl⟩, ?_, ?_, ?_⟩
  · rw [moved]
    rcases onThread_manager world index act with same | ⟨before, found, same⟩
    · rw [same]
      exact sound.registered
    · rw [same]
      exact registered before found
  · intro other thread ref here held
    rw [moved] at here
    rcases onThread_threads here with old | ⟨before, rfl, found, rfl⟩
    · exact (sound.obtained other thread ref old held).later uuid crawlerAgents authenticator action (SameClient.refl _)
    · exact obtained before ref found held
  · intro other thread ref here point
    rw [moved] at here
    rcases onThread_threads here with old | ⟨before, rfl, found, rfl⟩
    · obtain ⟨session, asked⟩ := sound.reading other thread ref old point
      exact ⟨session, asked.later uuid crawlerAgents authenticator action⟩
    · exact reading before ref found point

theorem Sound.others {origin world : SessionThreads} (sound : Sound uuid crawlerAgents authenticator origin world)
    (action : ThreadStep) (registered : Registered (world.step uuid crawlerAgents authenticator action).manager)
    (threads : ∀ (index : Nat) (thread : Thread),
      (world.step uuid crawlerAgents authenticator action).threads[index]? = some thread →
      world.threads[index]? = some thread ∨ thread.held = [] ∧ thread.point = .idle) :
    Sound uuid crawlerAgents authenticator origin (world.step uuid crawlerAgents authenticator action) := by
  refine ⟨sound.reached.tail ⟨action, rfl⟩, registered, ?_, ?_⟩
  · intro index thread ref here held
    rcases threads index thread here with old | ⟨none, _⟩
    · exact (sound.obtained index thread ref old held).later uuid crawlerAgents authenticator action (SameClient.refl _)
    · rw [none] at held
      cases held
  · intro index thread ref here point
    rcases threads index thread here with old | ⟨_, idle⟩
    · obtain ⟨session, asked⟩ := sound.reading index thread ref old point
      exact ⟨session, asked.later uuid crawlerAgents authenticator action⟩
    · rw [idle] at point
      cases point

variable (uuid crawlerAgents authenticator) in
theorem step_call (world : SessionThreads) (index : Nat) (call : Call) (thread : Thread)
    (here : world.threads[index]? = some thread) (idle : thread.point = .idle) :
    (world.step uuid crawlerAgents authenticator (.act (.call index call))).threads[index]? =
      some (thread.call uuid crawlerAgents authenticator (world.others index) world.manager call).2 := by
  have inside := (List.getElem?_eq_some_iff.mp here).1
  simp only [step, SessionThreads.onThread, here, idle, if_true, update]
  exact List.getElem?_set_self inside

theorem Sound.call {origin world : SessionThreads} (unique : ∀ index, uuid index ≠ crawlerAgentSessionId)
    (sound : Sound uuid crawlerAgents authenticator origin world) (index : Nat) (call : Call) :
    Sound uuid crawlerAgents authenticator origin
      (world.step uuid crawlerAgents authenticator (.act (.call index call))) := by
  have kept : ∀ thread ref, world.threads[index]? = some thread → ref ∈ thread.held → ∀ after : Thread,
      SameClient thread.request after.request → Obtained uuid crawlerAgents authenticator origin
        (world.step uuid crawlerAgents authenticator (.act (.call index call))) index after ref :=
    fun thread ref here held after client =>
      (sound.obtained index thread ref here held).later uuid crawlerAgents authenticator _ client
  apply sound.onThread (.act (.call index call)) index _ rfl
  · intro thread here
    split
    · exact Thread.registered_call uuid crawlerAgents authenticator thread _ sound.registered call
    · exact sound.registered
  · intro thread ref here held
    by_cases idle : thread.point = .idle
    · have given := step_call uuid crawlerAgents authenticator world index call thread here idle
      rw [if_pos idle] at held ⊢
      have begins := Thread.begins_call uuid crawlerAgents authenticator (world.others index) unique sound.registered
        idle call
      rcases begins.held ref held with old | obtains
      · exact kept thread ref here old _ begins.client
      · exact ⟨world, thread, call, _, sound.reached, here, begins.client, obtains, given, held,
          Relation.ReflTransGen.refl⟩
    · rw [if_neg idle] at held ⊢
      exact kept thread ref here held _ (SameClient.refl _)
  · intro thread ref here point
    by_cases idle : thread.point = .idle
    · rw [if_pos idle] at point ⊢
      have begins := Thread.begins_call uuid crawlerAgents authenticator (world.others index) unique sound.registered
        idle call
      obtain ⟨rfl, session, source⟩ := begins.reading ref point
      have asked := step_call uuid crawlerAgents authenticator world index .isAuthenticated thread here idle
      exact ⟨session, world, thread, sound.reached, here, begins.client, asked, Relation.ReflTransGen.refl, source⟩
    · rw [if_neg idle] at point ⊢
      obtain ⟨session, asked⟩ := sound.reading index thread ref here point
      exact ⟨session, asked.later uuid crawlerAgents authenticator _⟩

theorem Sound.resume {origin world : SessionThreads}
    (sound : Sound uuid crawlerAgents authenticator origin world) (index : Nat) :
    Sound uuid crawlerAgents authenticator origin
      (world.step uuid crawlerAgents authenticator (.resume index)) := by
  apply sound.onThread (.resume index) index _ rfl
  · intro thread here
    exact Thread.registered_resume uuid crawlerAgents authenticator thread _ sound.registered
  · intro thread ref here held
    have resumes := Thread.resumes_resume uuid crawlerAgents authenticator thread (world.others index) world.manager
    exact (sound.obtained index thread ref here (resumes.held ref held)).later uuid crawlerAgents authenticator _
      resumes.client
  · intro thread ref here point
    have resumes := Thread.resumes_resume uuid crawlerAgents authenticator thread (world.others index) world.manager
    have same := resumes.elsewhere ref point
    rw [same] at point ⊢
    obtain ⟨session, asked⟩ := sound.reading index thread ref here point
    exact ⟨session, asked.later uuid crawlerAgents authenticator _⟩

theorem Sound.finish {origin world : SessionThreads}
    (sound : Sound uuid crawlerAgents authenticator origin world) (index : Nat) :
    Sound uuid crawlerAgents authenticator origin
      (world.step uuid crawlerAgents authenticator (.act (.finish index))) := by
  apply sound.onThread (.act (.finish index)) index _ rfl
  · intro thread here
    split
    · exact Request.registered_takeSession thread.request _ sound.registered none
    · exact sound.registered
  · intro thread ref here held
    by_cases idle : thread.point = .idle
    · rw [if_pos idle] at held
      rcases Thread.mem_held.mp held with session | wrong
      · rw [(Request.takeSession_kept _ _ _ _).2] at session
        cases session
      · rw [idle] at wrong
        cases wrong
    · rw [if_neg idle] at held ⊢
      exact (sound.obtained index thread ref here held).later uuid crawlerAgents authenticator _ (SameClient.refl _)
  · intro thread ref here point
    by_cases idle : thread.point = .idle
    · rw [if_pos idle] at point
      rw [idle] at point
      cases point
    · rw [if_neg idle] at point ⊢
      obtain ⟨session, asked⟩ := sound.reading index thread ref here point
      exact ⟨session, asked.later uuid crawlerAgents authenticator _⟩

theorem Sound.step {origin world : SessionThreads} (unique : ∀ index, uuid index ≠ crawlerAgentSessionId)
    (sound : Sound uuid crawlerAgents authenticator origin world) (action : ThreadStep) :
    Sound uuid crawlerAgents authenticator origin (world.step uuid crawlerAgents authenticator action) := by
  cases action with
  | resume index => exact sound.resume index
  | act action =>
      cases action with
      | arrive request =>
          refine sound.others _ sound.registered ?_
          intro index thread here
          simp only [SessionThreads.step, List.getElem?_append] at here
          split at here
          · exact Or.inl here
          · rw [List.getElem?_singleton] at here
            split at here
            · cases here
              exact Or.inr ⟨rfl, rfl⟩
            · cases here
      | call index call => exact sound.call unique index call
      | finish index => exact sound.finish index
      | elapse time => exact sound.others _ sound.registered (fun _ _ here => Or.inl here)
      | checkSessionTimeout =>
          exact sound.others _ sound.registered.checkSessionTimeout (fun _ _ here => Or.inl here)

theorem sound_of_later {now maxInactiveInterval : Int} {world : SessionThreads}
    (unique : ∀ index, uuid index ≠ crawlerAgentSessionId)
    (reached : Later uuid crawlerAgents authenticator (start now maxInactiveInterval) world) :
    Sound uuid crawlerAgents authenticator (start now maxInactiveInterval) world := by
  induction reached with
  | refl =>
      refine ⟨Relation.ReflTransGen.refl, SessionManager.registered_start _ _, ?_, ?_⟩
      · intro index thread ref here
        cases here
      · intro index thread ref here
        cases here
  | tail _ moved ih =>
      obtain ⟨action, rfl⟩ := moved
      exact ih.step unique action

end Generator

section Result

variable (uuid : Nat → Bytes) (crawlerAgents : Bytes → Bool) (authenticator : Authenticator)

/-- A step that leaves an anonymous request authenticated has copied the subject of the session that
the thread asked for, in the same call of `isAuthenticated`. -/
theorem authenticated_by_own_session (unique : ∀ index, (uuid index).length = 36) (now maxInactiveInterval : Int)
    (world : SessionThreads)
    (reached : Later uuid crawlerAgents authenticator (start now maxInactiveInterval) world) (index : Nat)
    (thread : Thread) (here : world.threads[index]? = some thread)
    (anonymous : thread.request.getSubject.isAnonymous = true) (unanswered : thread.answer ≠ some (.ok true))
    (action : ThreadStep) (next : Thread)
    (after : (world.step uuid crawlerAgents authenticator action).threads[index]? = some next)
    (authenticated : next.answer = some (.ok true)) :
    ∃ ref session, action = .resume index ∧ thread.point = .reading ref ∧
      world.manager.objects[ref]? = some session ∧ session.getSubject.isAnonymous = false ∧
      next.request.session = some ref ∧ next.request.subject = some session.getSubject ∧
      Obtained uuid crawlerAgents authenticator (start now maxInactiveInterval) world index thread ref ∧
      Asked uuid crawlerAgents authenticator (start now maxInactiveInterval) world index thread ref := by
  have differs : ∀ index, uuid index ≠ crawlerAgentSessionId := by
    intro index same
    have size := unique index
    rw [same] at size
    cases size
  have sound := sound_of_later differs reached
  -- the step is one of the thread, since an answer that was there stays
  have stays : world.threads[index]? ≠ some next := by
    intro same
    rw [here] at same
    cases same
    exact unanswered authenticated
  cases action with
  | resume other =>
      rcases onThread_threads after with old | ⟨before, rfl, found, rfl⟩
      · exact absurd old stays
      · rw [here] at found
        cases found
        obtain ⟨request, point, answer⟩ := thread
        cases point with
        | reading ref =>
            obtain ⟨held, asked⟩ := sound.reading index _ ref here rfl
            simp only [Thread.resume] at authenticated
            cases live : world.manager.objects[ref]? with
            | none =>
                rw [live] at authenticated
                simp [anonymous] at authenticated
            | some session =>
                rw [live] at authenticated
                obtain ⟨known, subject⟩ := Thread.copySubject_taken anonymous (Option.some.inj authenticated)
                have kept := (Thread.copySubject_kept request session).2
                refine ⟨ref, session, rfl, rfl, live, known, ?_, ?_,
                  sound.obtained index _ ref here (Thread.mem_held.mpr (Or.inl held)), asked⟩
                · simp only [Thread.resume, live]
                  exact kept.trans held
                · simp only [Thread.resume, live]
                  exact subject
        | idle => exact absurd authenticated unanswered
        | storing ref subject =>
            simp only [Thread.resume] at authenticated
            split at authenticated <;> exact absurd authenticated unanswered
        | changing subject =>
            simp only [Thread.resume] at authenticated
            split at authenticated <;> exact absurd authenticated unanswered
        | assigning given => exact absurd authenticated unanswered
        | clearing ref => exact absurd authenticated unanswered
        | ageing ref => exact absurd authenticated unanswered
  | act action =>
      exfalso
      cases action with
      | arrive request =>
          simp only [step, List.getElem?_append_left (List.getElem?_eq_some_iff.mp here).1] at after
          exact stays after
      | call other call =>
          rcases onThread_threads after with old | ⟨before, rfl, found, rfl⟩
          · exact stays old
          · rw [here] at found
            cases found
            by_cases idle : thread.point = .idle
            · rw [if_pos idle] at authenticated
              exact unanswered ((Thread.begins_call uuid crawlerAgents authenticator _ differs
                sound.registered idle call).answer anonymous authenticated)
            · rw [if_neg idle] at authenticated
              exact unanswered authenticated
      | finish other =>
          rcases onThread_threads after with old | ⟨before, rfl, found, rfl⟩
          · exact stays old
          · rw [here] at found
            cases found
            split at authenticated <;> exact unanswered authenticated
      | elapse time => exact stays after
      | checkSessionTimeout => exact stays after

end Result

end SessionThreads

namespace World

/-- Ids of 36 symbols, as the generator has them. -/
def sampleIds (index : Nat) : Bytes := List.replicate 36 (UInt8.ofNat (48 + index))

def sampleCrawlers (userAgent : Bytes) : Bool := userAgent == ascii "Googlebot"

def sampleAuthenticator : Authenticator := ⟨true, none, [], List.length⟩

def sampleSubject : Subject := ⟨[ascii "alice"], false⟩

def sampleBrowser (cookie : Option Bytes) : Request :=
  { Request.fresh with
    headers := OrderedMap.assign .empty (ascii "User-Agent") (ascii "Mozilla")
    cookies := match cookie with
      | none => .empty
      | some id => OrderedMap.assign .empty sessionCookieName id }

def sampleManager : SessionManager :=
  (SessionManager.createInternal sampleIds sampleCrawlers (.start 0 30) (sampleBrowser none)).1

def sampleCrawler : Request :=
  { Request.fresh with
    headers := OrderedMap.assign .empty (ascii "User-Agent") (ascii "Googlebot") }

end World

namespace SessionThreads

open World (sampleIds sampleCrawlers sampleAuthenticator sampleSubject sampleBrowser sampleCrawler)

def sampleRun (actions : List ThreadStep) : SessionThreads :=
  actions.foldl (step sampleIds sampleCrawlers sampleAuthenticator) (start 0 30)

/-- A thread is about to be authenticated, and the cookie of its request names no session. -/
def sampleForeign (world : SessionThreads) (index : Nat) : Bool :=
  match world.threads[index]? with
  | none => false
  | some thread =>
      thread.request.getSubject.isAnonymous && thread.answer.isNone && (world.manager.named thread.request).isNone &&
        (((world.step sampleIds sampleCrawlers sampleAuthenticator (.resume index)).threads[index]?).bind
          Thread.answer) == some (.ok true)

def crawlersRun : List ThreadStep :=
  [.act (.arrive sampleCrawler), .act (.call 0 (.setSubject sampleSubject)), .resume 0, .resume 0, .act (.finish 0),
    .act (.arrive sampleCrawler), .act (.call 1 .isAuthenticated)]

def loginRun : List ThreadStep :=
  [.act (.arrive (sampleBrowser none)), .act (.call 0 (.setSubject sampleSubject)), .resume 0, .resume 0,
    .act (.call 0 (.setRequestSubject .anonymousSubject)), .act (.call 0 .isAuthenticated)]

def renamedRun : List ThreadStep :=
  [.act (.arrive (sampleBrowser none)), .act (.call 0 (.setSubject sampleSubject)), .resume 0, .resume 0,
    .act (.finish 0), .act (.arrive (sampleBrowser (some (sampleIds 0)))), .act (.call 1 .getSession),
    .act (.call 1 .changeSessionId), .act (.call 1 .isAuthenticated)]

/-- A browser without a cookie is given a session, and another one, which presents its id, logs in
before the session is read. -/
def guessedRun : List ThreadStep :=
  [.act (.arrive (sampleBrowser none)), .act (.arrive (sampleBrowser (some (sampleIds 0)))),
    .act (.call 0 .isAuthenticated), .act (.call 1 (.setSubject sampleSubject)), .resume 1]

/-- Two crawlers share a session; a browser is authenticated again by the session that its own login
has made; by a session that was renamed in between; and by one that another browser has got into. -/
theorem authenticated_without_cookie :
    (Later sampleIds sampleCrawlers sampleAuthenticator (start 0 30) (sampleRun crawlersRun) ∧
      sampleForeign (sampleRun crawlersRun) 1 = true) ∧
    (Later sampleIds sampleCrawlers sampleAuthenticator (start 0 30) (sampleRun loginRun) ∧
      sampleForeign (sampleRun loginRun) 0 = true) ∧
    (Later sampleIds sampleCrawlers sampleAuthenticator (start 0 30) (sampleRun renamedRun) ∧
      sampleForeign (sampleRun renamedRun) 1 = true) ∧
    Later sampleIds sampleCrawlers sampleAuthenticator (start 0 30) (sampleRun guessedRun) ∧
      sampleForeign (sampleRun guessedRun) 0 = true := by
  refine ⟨⟨later_run _ _ _ crawlersRun _, ?_⟩, ⟨later_run _ _ _ loginRun _, ?_⟩,
    ⟨later_run _ _ _ renamedRun _, ?_⟩, later_run _ _ _ guessedRun _, ?_⟩
  · decide +kernel
  · decide +kernel
  · decide +kernel
  · decide +kernel

theorem sampleIds_length (index : Nat) : (sampleIds index).length = 36 := List.length_replicate

def sampleReturn : SessionThreads :=
  sampleRun [.act (.arrive (sampleBrowser none)), .act (.call 0 (.setSubject sampleSubject)), .resume 0, .resume 0,
    .act (.finish 0), .act (.arrive (sampleBrowser (some (sampleIds 0)))), .act (.call 1 .isAuthenticated)]

theorem authenticated_by_own_session_return :
    ∃ thread ref, sampleReturn.threads[1]? = some thread ∧ thread.point = .reading ref ∧
      Asked sampleIds sampleCrawlers sampleAuthenticator (start 0 30) sampleReturn 1 thread ref := by
  have checked : sampleReturn.threads[1]?.any (fun thread =>
      (sampleReturn.step sampleIds sampleCrawlers sampleAuthenticator (.resume 1)).threads[1]?.any fun next =>
        thread.request.getSubject.isAnonymous && thread.answer.isNone && next.answer == some (.ok true)) = true := by
    decide +kernel
  obtain ⟨thread, arrived, checked⟩ := (Option.any_eq_true _ _).mp checked
  obtain ⟨next, after, checked⟩ := (Option.any_eq_true _ _).mp checked
  simp only [Bool.and_eq_true, Option.isNone_iff_eq_none, beq_iff_eq] at checked
  obtain ⟨⟨anonymous, unanswered⟩, authenticated⟩ := checked
  obtain ⟨ref, _, _, point, _, _, _, _, _, asked⟩ :=
    authenticated_by_own_session sampleIds sampleCrawlers sampleAuthenticator sampleIds_length 0 30
      sampleReturn (later_run _ _ _ _ _) 1 thread arrived anonymous (by simp [unanswered]) (.resume 1) next
      after authenticated
  exact ⟨thread, ref, arrived, point, asked⟩

end SessionThreads

end FastcgiContainer
