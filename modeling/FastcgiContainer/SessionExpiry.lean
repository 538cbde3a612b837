import FastcgiContainer.SessionFailures

/-! Expiry. Sessions are taken from the registry by the thread that looks for expired
ones; between two of its rounds a session is found whether it has expired or not. -/

namespace FastcgiContainer

open Word (Bytes)

namespace Session

theorem isExpired_eq_false (session : Session) (time : Int) :
    session.isExpired time = false ↔ time ≤ session.lastAccessed + session.maxInactive * minute := by
  simp [isExpired]

theorem lasts {session : Session} (lasting : 0 ≤ session.maxInactive) :
    0 ≤ session.maxInactive * minute := Int.mul_nonneg lasting (by decide)

theorem isExpired_accessed {session : Session} {time : Int} (lasting : 0 ≤ session.maxInactive)
    (since : time ≤ session.lastAccessed) : session.isExpired time = false := by
  rw [isExpired_eq_false]
  have positive := lasts lasting
  omega

theorem isExpired_invalidate (session : Session) (now time : Int) :
    (session.invalidate now).isExpired time = false ↔ time ≤ now := by
  rw [isExpired_eq_false]
  simp only [invalidate]
  omega

end Session

namespace SessionManager

/-- No session that is registered had expired at some time. -/
structure Swept (manager : SessionManager) (swept : Int) : Prop where
  registered : Registered manager
  past : swept ≤ manager.now
  interval : 0 ≤ manager.maxInactiveInterval
  lasting : ∀ session ∈ manager.objects, 0 ≤ session.maxInactive
  kept : ∀ id ref session, manager.resolve id = some ref → manager.objects[ref]? = some session →
    session.isExpired swept = false

theorem Swept.entries {manager next : SessionManager} {swept : Int} (safe : Swept manager swept)
    (registered : Registered next) (objects : next.objects = manager.objects)
    (now : next.now = manager.now) (interval : next.maxInactiveInterval = manager.maxInactiveInterval)
    (found : ∀ id ref, next.resolve id = some ref → ∃ key, manager.resolve key = some ref) :
    Swept next swept := by
  refine ⟨registered, now ▸ safe.past, interval ▸ safe.interval, objects ▸ safe.lasting, ?_⟩
  intro id ref session resolved live
  obtain ⟨key, known⟩ := found id ref resolved
  rw [objects] at live
  exact safe.kept key ref session known live

theorem Swept.change {manager next : SessionManager} {swept : Int} (safe : Swept manager swept)
    (ref : Nat) (change : Session → Session) (registered : Registered next)
    (objects : next.objects = (manager.modify ref change).objects) (now : next.now = manager.now)
    (interval : next.maxInactiveInterval = manager.maxInactiveInterval)
    (found : ∀ id ref, next.resolve id = some ref → ∃ key, manager.resolve key = some ref)
    (lasting : ∀ session, 0 ≤ session.maxInactive → 0 ≤ (change session).maxInactive)
    (timely : ∀ session, manager.objects[ref]? = some session → session.isExpired swept = false →
      (change session).isExpired swept = false) : Swept next swept := by
  refine ⟨registered, now ▸ safe.past, interval ▸ safe.interval, ?_, ?_⟩
  · intro session member
    rw [objects] at member
    obtain ⟨place, live⟩ := List.mem_iff_getElem?.mp member
    rw [modify_objects] at live
    split at live
    · obtain ⟨old, before, rfl⟩ := Option.map_eq_some_iff.mp live
      exact lasting old (safe.lasting old (List.mem_of_getElem? before))
    · exact safe.lasting session (List.mem_of_getElem? live)
  · intro id other session resolved live
    obtain ⟨key, known⟩ := found id other resolved
    rw [objects, modify_objects] at live
    split at live
    · next same =>
        obtain ⟨old, before, rfl⟩ := Option.map_eq_some_iff.mp live
        exact timely old (same ▸ before) (safe.kept key other old known before)
    · exact safe.kept key other session known live

theorem Swept.modify {manager : SessionManager} {swept : Int} (safe : Swept manager swept) (ref : Nat)
    (change : Session → Session) (keeps : ∀ session, (change session).id = session.id)
    (lasting : ∀ session, 0 ≤ session.maxInactive → 0 ≤ (change session).maxInactive)
    (timely : ∀ session, manager.objects[ref]? = some session → session.isExpired swept = false →
      (change session).isExpired swept = false) : Swept (manager.modify ref change) swept :=
  safe.change ref change (safe.registered.modify ref change keeps) rfl rfl rfl
    (fun id _ found => ⟨id, found⟩) lasting timely

theorem Swept.access {manager : SessionManager} {swept : Int} (safe : Swept manager swept) (ref : Nat) :
    Swept (manager.modify ref (fun session => { session with lastAccessed := manager.now })) swept := by
  apply safe.modify
  · exact fun _ => rfl
  · exact fun _ lasting => lasting
  · intro session live _
    exact Session.isExpired_accessed (safe.lasting session (List.mem_of_getElem? live)) safe.past

theorem Swept.invalidate {manager : SessionManager} {swept : Int} (safe : Swept manager swept)
    (ref : Nat) :
    Swept (manager.modify ref (fun session => session.invalidate manager.now)) swept := by
  apply safe.modify
  · exact fun _ => rfl
  · exact fun _ lasting => lasting
  · intro session _ _
    exact (session.isExpired_invalidate manager.now swept).mpr safe.past

theorem create_lasting (id : Bytes) (now : Int) : 0 ≤ (Session.create id now).maxInactive := by
  simp [Session.create]

theorem Swept.newSession {manager : SessionManager} {swept : Int} (safe : Swept manager swept)
    (id : Bytes) : Swept (manager.newSession id).1 swept := by
  refine ⟨safe.registered.newSession id, safe.past, safe.interval, ?_, ?_⟩
  · intro session member
    rcases List.mem_append.mp member with old | new
    · exact safe.lasting session old
    · rw [List.mem_singleton.mp new]
      exact create_lasting id manager.now
  · intro key ref session found live
    obtain ⟨other, there, _⟩ := safe.registered key ref found
    have inside := (List.getElem?_eq_some_iff.mp there).1
    rw [SessionManager.newSession, List.getElem?_append_left inside] at live
    exact safe.kept key ref session found live

theorem Swept.insertNewSession {manager : SessionManager} {swept : Int} (safe : Swept manager swept)
    {id : Bytes} (free : manager.resolve id = none) :
    Swept { (manager.newSession id).1 with
      sessions := manager.sessions.insert id manager.objects.length } swept := by
  have made := safe.newSession id
  refine ⟨made.registered.insert (newSession_object manager id) rfl, safe.past, safe.interval,
    made.lasting, ?_⟩
  intro key ref session found live
  have inserted := resolve_insert_free manager.objects.length
    ((resolve_newSession manager id id).trans free) key
  have found := inserted.symm.trans found
  split at found
  · cases found
    have there := newSession_object manager id
    have same := Option.some.inj (there.symm.trans live)
    rw [← same]
    exact Session.isExpired_accessed (create_lasting id manager.now) safe.past
  · exact made.kept key ref session found live

section Generator

variable (uuid : Nat → Bytes) (crawlerAgents : Bytes → Bool) (request : Request)

theorem Swept.getNewId {manager : SessionManager} {swept : Int} (safe : Swept manager swept) :
    Swept (SessionManager.getNewId uuid crawlerAgents manager request).1 swept := by
  apply safe.entries (safe.registered.getNewId uuid crawlerAgents request)
  · exact objects_getNewId uuid crawlerAgents request manager
  · unfold SessionManager.getNewId
    split <;> rfl
  · unfold SessionManager.getNewId
    split <;> rfl
  · intro id ref found
    exact ⟨id, (resolve_getNewId uuid crawlerAgents request manager id).symm.trans found⟩

theorem Swept.insertNew {swept : Int} (fuel : Nat) (manager : SessionManager) (id : Bytes)
    (safe : Swept manager swept) :
    Swept (SessionManager.insertNew uuid crawlerAgents request fuel manager id).1 swept := by
  induction fuel generalizing manager id with
  | zero =>
      by_cases free : manager.resolve id = none
      · rw [insertNew_free uuid crawlerAgents request free]
        exact safe.insertNewSession free
      · unfold SessionManager.insertNew
        simp only [resolve_newSession, Option.isNone_iff_eq_none, free, if_false]
        exact safe.newSession id
  | succ fuel ih =>
      by_cases free : manager.resolve id = none
      · rw [insertNew_free uuid crawlerAgents request free]
        exact safe.insertNewSession free
      · rw [insertNew_taken uuid crawlerAgents request free]
        apply ih
        have drawn := (safe.newSession id).getNewId uuid crawlerAgents request
        have fewer : ∀ key ref, (dropped uuid crawlerAgents request manager id).resolve key =
            some ref → (SessionManager.getNewId uuid crawlerAgents (manager.newSession id).1
              request).1.resolve key = some ref := by
          intro key ref found
          rw [resolve_getNewId, resolve_newSession]
          simp only [dropped, resolve, find?_erase] at found
          split at found
          · cases found
          · exact found
        apply drawn.entries
        · apply drawn.registered.fewer
          · rfl
          · exact fewer
        · rfl
        · rfl
        · rfl
        · intro key ref found
          exact ⟨key, fewer key ref found⟩

theorem crawler_lasting : 0 ≤ crawlerSessionTimeoutMin := by decide

theorem Swept.createInternal {manager : SessionManager} {swept : Int} (safe : Swept manager swept) :
    Swept (SessionManager.createInternal uuid crawlerAgents manager request).1 swept := by
  have drawn := safe.getNewId uuid crawlerAgents request
  unfold SessionManager.createInternal
  generalize SessionManager.getNewId uuid crawlerAgents manager request = pair at drawn
  obtain ⟨base, id⟩ := pair
  simp only at drawn ⊢
  split
  · have made := Swept.insertNew uuid crawlerAgents request base.sessions.entries.length base id drawn
    obtain ⟨other, object⟩ := insertNew_object uuid crawlerAgents request
      base.sessions.entries.length base id
    apply made.modify
    · exact fun _ => rfl
    · exact fun _ _ => made.interval
    · intro session live _
      have same := Option.some.inj (object.symm.trans live)
      apply Session.isExpired_accessed
      · exact made.interval
      · rw [← same]
        exact drawn.past
  · cases known : base.resolve id with
    | some ref => exact drawn.access ref
    | none =>
        apply (drawn.insertNewSession known).modify
        · exact fun _ => rfl
        · exact fun _ _ => crawler_lasting
        · intro session _ _
          exact Session.isExpired_accessed crawler_lasting drawn.past

theorem Swept.get {manager : SessionManager} {swept : Int} (safe : Swept manager swept) :
    Swept (SessionManager.get uuid crawlerAgents manager request).1 swept := by
  unfold SessionManager.get
  split
  · exact safe.access _
  · exact safe.createInternal uuid crawlerAgents request

theorem Swept.create {manager : SessionManager} {swept : Int} (safe : Swept manager swept) :
    Swept (SessionManager.create uuid crawlerAgents manager request).1 swept := by
  have ended : Swept (manager.ended request) swept := by
    apply ended_keeps (fun next => Swept next swept) safe
    intro ref _
    exact safe.invalidate ref
  rw [create_eq]
  exact ended.createInternal uuid crawlerAgents request

theorem Swept.changeId {manager : SessionManager} {swept : Int} (safe : Swept manager swept)
    (held : List Nat) :
    Swept (SessionManager.changeId uuid crawlerAgents manager held request).1 swept := by
  have registered := safe.registered.changeId uuid crawlerAgents request held
  have drawn := safe.getNewId uuid crawlerAgents request
  unfold SessionManager.changeId at registered ⊢
  split at registered
  · exact safe
  · next ref named =>
      have known : (SessionManager.getNewId uuid crawlerAgents manager request).1.resolve
          (request.getCookie sessionCookieName) = some ref := by
        rw [resolve_getNewId]
        exact (named_eq named).2
      generalize SessionManager.getNewId uuid crawlerAgents manager request = pair
        at drawn registered known ⊢
      obtain ⟨base, id⟩ := pair
      simp only at drawn registered known ⊢
      split at registered
      · next exn failed =>
          exact drawn.change ref _ registered rfl rfl rfl (fun id _ found => ⟨id, found⟩)
            (fun _ lasting => lasting) (fun _ _ timely => timely)
      · next moved done =>
          obtain ⟨objects, _, _, entries⟩ := moveEntry_spec done
          refine drawn.change ref _ registered objects ?_ ?_ ?_ (fun _ lasting => lasting)
            (fun _ _ timely => timely)
          · exact (moveEntry_clock done).1
          · exact (moveEntry_clock done).2
          · intro query other found
            rcases entries query other found with ⟨_, rfl⟩ | old
            · exact ⟨_, known⟩
            · exact ⟨query, old⟩

theorem Swept.checkSessionTimeout {manager : SessionManager} {swept : Int}
    (safe : Swept manager swept) : Swept manager.checkSessionTimeout manager.now := by
  refine ⟨safe.registered.checkSessionTimeout, le_refl _, safe.interval, safe.lasting, ?_⟩
  intro id ref session found live
  have entry := (OrderedMap.find?_eq_some stringLess_exact _ _ _).mp found
  have kept := (List.mem_filter.mp entry).2
  have live : manager.objects[ref]? = some session := live
  simp only [live] at kept
  simpa using kept

/-- What `get` returns: a session that was registered, or an empty one. -/
theorem get_returns {manager after : SessionManager} {ref : Nat} {next : Request}
    (registered : Registered manager)
    (done : SessionManager.get uuid crawlerAgents manager request = (after, .ok (ref, next))) :
    (∃ id, manager.resolve id = some ref) ∨
      (manager.objects.length ≤ ref ∧ ∃ session, after.objects[ref]? = some session ∧
        session.attributes = .empty ∧ session.subject = none) := by
  unfold SessionManager.get at done
  split at done
  · next named =>
      cases done
      exact Or.inl ⟨_, (named_eq named).2⟩
  · have made := (Request.createWithCookie_request uuid crawlerAgents done).1
    by_cases shares : SharesSession uuid crawlerAgents request manager
    · obtain ⟨shared, known, same⟩ := createInternal_known uuid crawlerAgents request shares
      rw [made] at same
      cases same
      exact Or.inl ⟨_, known⟩
    · have new := createInternal_new uuid crawlerAgents request registered shares
      have empty := createInternal_empty uuid crawlerAgents request shares
      rw [made] at new empty
      exact Or.inr ⟨new, empty⟩

end Generator

/-- No session comes back into the registry: what is registered was registered before, or is new. -/
structure Carries (manager next : SessionManager) : Prop where
  length : manager.objects.length ≤ next.objects.length
  entries : ∀ id ref, next.resolve id = some ref → ref < manager.objects.length → ∃ key, manager.resolve key = some ref

theorem Carries.refl (manager : SessionManager) : Carries manager manager :=
  ⟨le_refl _, fun id _ found _ => ⟨id, found⟩⟩

theorem Carries.trans {first second third : SessionManager} (left : Carries first second)
    (right : Carries second third) : Carries first third := by
  refine ⟨left.length.trans right.length, ?_⟩
  intro id ref found old
  obtain ⟨key, known⟩ := right.entries id ref found (old.trans_le left.length)
  exact left.entries key ref known old

theorem Carries.fewer {manager next : SessionManager} (objects : next.objects = manager.objects)
    (entries : ∀ id ref, next.resolve id = some ref → manager.resolve id = some ref) : Carries manager next :=
  ⟨le_of_eq (by rw [objects]), fun id ref found _ => ⟨id, entries id ref found⟩⟩

theorem carries_modify (manager : SessionManager) (ref : Nat) (change : Session → Session) :
    Carries manager (manager.modify ref change) :=
  ⟨(modify_length manager ref change).ge, fun id _ found _ => ⟨id, found⟩⟩

theorem carries_newSession (manager : SessionManager) (id : Bytes) : Carries manager (manager.newSession id).1 :=
  ⟨by simp [newSession], fun key _ found _ => ⟨key, found⟩⟩

theorem carries_insertNewSession (manager : SessionManager) (id : Bytes) (free : manager.resolve id = none) :
    Carries manager { (manager.newSession id).1 with sessions := manager.sessions.insert id manager.objects.length } := by
  refine ⟨(carries_newSession manager id).length, ?_⟩
  intro key ref found old
  have inserted := resolve_insert_free manager.objects.length ((resolve_newSession manager id id).trans free) key
  have found := inserted.symm.trans found
  split at found
  · cases found
    exact absurd old (lt_irrefl _)
  · exact ⟨key, found⟩

section Operations

variable (uuid : Nat → Bytes) (crawlerAgents : Bytes → Bool) (request : Request)

theorem carries_getNewId (manager : SessionManager) : Carries manager (getNewId uuid crawlerAgents manager request).1 := by
  apply Carries.fewer (objects_getNewId uuid crawlerAgents request manager)
  intro id ref found
  rwa [resolve_getNewId] at found

theorem carries_dropped (manager : SessionManager) (id : Bytes) :
    Carries manager (dropped uuid crawlerAgents request manager id) := by
  apply ((carries_newSession manager id).trans (carries_getNewId uuid crawlerAgents request _)).trans
  apply Carries.fewer
  · rfl
  · intro key ref found
    rw [resolve_getNewId, resolve_newSession]
    simp only [dropped, resolve, find?_erase] at found
    split at found
    · cases found
    · exact found

theorem carries_insertNew (fuel : Nat) (manager : SessionManager) (id : Bytes) :
    Carries manager (insertNew uuid crawlerAgents request fuel manager id).1 := by
  induction fuel generalizing manager id with
  | zero =>
      by_cases free : manager.resolve id = none
      · rw [insertNew_free uuid crawlerAgents request free]
        exact carries_insertNewSession manager id free
      · unfold insertNew
        simp only [resolve_newSession, Option.isNone_iff_eq_none, free, if_false]
        exact carries_newSession manager id
  | succ fuel ih =>
      by_cases free : manager.resolve id = none
      · rw [insertNew_free uuid crawlerAgents request free]
        exact carries_insertNewSession manager id free
      · rw [insertNew_taken uuid crawlerAgents request free]
        exact (carries_dropped uuid crawlerAgents request manager id).trans (ih _ _)

theorem carries_createInternal (manager : SessionManager) :
    Carries manager (createInternal uuid crawlerAgents manager request).1 := by
  have drawn := carries_getNewId uuid crawlerAgents request manager
  unfold createInternal
  generalize getNewId uuid crawlerAgents manager request = pair at drawn
  obtain ⟨base, id⟩ := pair
  simp only at drawn ⊢
  split
  · exact (drawn.trans (carries_insertNew uuid crawlerAgents request _ base id)).trans (carries_modify _ _ _)
  · cases known : base.resolve id with
    | some ref => exact drawn.trans (carries_modify base ref _)
    | none => exact (drawn.trans (carries_insertNewSession base id known)).trans (carries_modify _ _ _)

theorem carries_get (manager : SessionManager) : Carries manager (get uuid crawlerAgents manager request).1 := by
  unfold SessionManager.get
  split
  · exact carries_modify manager _ _
  · exact carries_createInternal uuid crawlerAgents request manager

theorem carries_create (manager : SessionManager) : Carries manager (create uuid crawlerAgents manager request).1 := by
  have ended : Carries manager (manager.ended request) :=
    ended_keeps (fun next => Carries manager next) (Carries.refl manager) (fun ref _ => carries_modify manager ref _)
  rw [create_eq]
  exact ended.trans (carries_createInternal uuid crawlerAgents request _)

theorem carries_changeId (held : List Nat) (manager : SessionManager) :
    Carries manager (changeId uuid crawlerAgents manager held request).1 := by
  have drawn := carries_getNewId uuid crawlerAgents request manager
  unfold SessionManager.changeId
  split
  · exact Carries.refl manager
  · next ref named =>
      have known : (getNewId uuid crawlerAgents manager request).1.resolve (request.getCookie sessionCookieName) =
          some ref := by
        rw [resolve_getNewId]
        exact (named_eq named).2
      have renamed := drawn.trans (carries_modify (getNewId uuid crawlerAgents manager request).1 ref
        (fun session => { session with id := (getNewId uuid crawlerAgents manager request).2 }))
      simp only
      split
      · exact renamed
      · next moved done =>
          obtain ⟨objects, _, _, entries⟩ := moveEntry_spec done
          apply renamed.trans
          refine ⟨le_of_eq (by rw [objects]), ?_⟩
          intro query other found _
          rcases entries query other found with ⟨_, rfl⟩ | old
          · exact ⟨_, known⟩
          · exact ⟨query, old⟩

end Operations

/-- The operations that a session manager carries out. -/
inductive Step where
  | create (request : Request)
  | get (request : Request)
  | changeId (held : List Nat) (request : Request)
  | invalidate (ref : Nat)
  | checkSessionTimeout
  | elapse (time : Nat)

/-- A manager, and when it was last searched for expired sessions, with the sessions as they were
then. -/
structure Watched where
  manager : SessionManager
  swept : Int
  seen : List Session

structure Watched.Safe (watched : Watched) : Prop where
  swept : Swept watched.manager watched.swept
  length : watched.seen.length ≤ watched.manager.objects.length
  lasted : ∀ id ref session, watched.manager.resolve id = some ref → watched.seen[ref]? = some session →
    session.isExpired watched.swept = false

theorem Watched.Safe.carried {watched : Watched} (safe : watched.Safe) {next : SessionManager}
    (swept : Swept next watched.swept) (carries : Carries watched.manager next) :
    Watched.Safe { watched with manager := next } := by
  refine ⟨swept, safe.length.trans carries.length, ?_⟩
  intro id ref session found seen
  have old : ref < watched.manager.objects.length :=
    (List.getElem?_eq_some_iff.mp seen).1.trans_le safe.length
  obtain ⟨key, known⟩ := carries.entries id ref found old
  exact safe.lasted key ref session known seen

section Generator

variable (uuid : Nat → Bytes) (crawlerAgents : Bytes → Bool)

def Watched.step (watched : Watched) : Step → Watched
  | .create request => { watched with manager := (create uuid crawlerAgents watched.manager request).1 }
  | .get request => { watched with manager := (get uuid crawlerAgents watched.manager request).1 }
  | .changeId held request =>
      { watched with manager := (changeId uuid crawlerAgents watched.manager held request).1 }
  | .invalidate ref =>
      { watched with manager := watched.manager.modify ref (fun session =>
          session.invalidate watched.manager.now) }
  | .checkSessionTimeout => ⟨watched.manager.checkSessionTimeout, watched.manager.now, watched.manager.objects⟩
  | .elapse time =>
      { watched with manager := { watched.manager with now := watched.manager.now + time } }

theorem Watched.Safe.step {watched : Watched} (safe : watched.Safe) (step : Step) :
    (watched.step uuid crawlerAgents step).Safe := by
  cases step with
  | create request =>
      exact safe.carried (safe.swept.create uuid crawlerAgents request) (carries_create uuid crawlerAgents request _)
  | get request =>
      exact safe.carried (safe.swept.get uuid crawlerAgents request) (carries_get uuid crawlerAgents request _)
  | changeId held request =>
      exact safe.carried (safe.swept.changeId uuid crawlerAgents request held)
        (carries_changeId uuid crawlerAgents request held _)
  | invalidate ref => exact safe.carried (safe.swept.invalidate ref) (carries_modify _ ref _)
  | checkSessionTimeout =>
      have searched := safe.swept.checkSessionTimeout
      exact ⟨searched, le_refl _, searched.kept⟩
  | elapse time =>
      have later : watched.swept ≤ watched.manager.now + time :=
        Int.le_trans safe.swept.past (Int.le_add_of_nonneg_right (Int.natCast_nonneg time))
      exact ⟨⟨safe.swept.registered, later, safe.swept.interval, safe.swept.lasting, safe.swept.kept⟩, safe.length,
        safe.lasted⟩

def Watched.start (now : Int) (maxInactiveInterval : Nat) : Watched :=
  ⟨SessionManager.start now maxInactiveInterval, now, []⟩

theorem safe_start (now : Int) (maxInactiveInterval : Nat) : (Watched.start now maxInactiveInterval).Safe := by
  refine ⟨⟨registered_start _ _, le_refl _, Int.natCast_nonneg _, ?_, ?_⟩, le_refl _, ?_⟩
  · intro session member
    cases member
  · intro id ref session found
    cases found
  · intro id ref session found
    cases found

theorem safe_run (steps : List Step) (watched : Watched) (safe : watched.Safe) :
    (steps.foldl (Watched.step uuid crawlerAgents) watched).Safe := by
  induction steps generalizing watched with
  | nil => exact safe
  | cons step steps ih => exact ih _ (safe.step uuid crawlerAgents step)

/-- The session that a cookie names is handed out as it is, and counts as accessed. A session that
had expired when the manager was last searched is not handed out any more; one that was invalidated
has expired as soon as the clock moves on. -/
theorem get_skips_swept_sessions (now : Int) (maxInactiveInterval : Nat) (steps : List Step)
    (request : Request) (watched : Watched)
    (run : watched = steps.foldl (Watched.step uuid crawlerAgents) (Watched.start now maxInactiveInterval)) :
    (∀ ref, watched.manager.named request = some ref → get uuid crawlerAgents watched.manager request =
      (watched.manager.modify ref (fun session => { session with lastAccessed := watched.manager.now }),
        .ok (ref, request))) ∧
    (∀ session, session ∈ watched.manager.objects → ∀ later, watched.manager.now < later →
      (session.invalidate watched.manager.now).isExpired later = true) ∧
    ∀ after ref next, get uuid crawlerAgents watched.manager request = (after, .ok (ref, next)) →
      (∀ session, watched.seen[ref]? = some session → session.isExpired watched.swept = false) ∧
      (∀ session, watched.manager.objects[ref]? = some session → session.isExpired watched.swept = false) ∧
      (watched.manager.objects[ref]? = none → ∃ session, after.objects[ref]? = some session ∧
        session.attributes = .empty ∧ session.subject = none) := by
  have safe : watched.Safe := by
    rw [run]
    exact safe_run uuid crawlerAgents steps _ (safe_start now maxInactiveInterval)
  refine ⟨?_, ?_, ?_⟩
  · intro ref named
    rw [SessionManager.get, named]
  · intro session _ later after
    by_contra still
    have before := (session.isExpired_invalidate watched.manager.now later).mp (Bool.eq_false_of_not_eq_true still)
    omega
  · intro after ref next done
    rcases get_returns uuid crawlerAgents request safe.swept.registered done with ⟨id, found⟩ | ⟨new, empty⟩
    · refine ⟨fun session seen => safe.lasted id ref session found seen,
        fun session live => safe.swept.kept id ref session found live, ?_⟩
      intro missing
      obtain ⟨session, live, _⟩ := safe.swept.registered id ref found
      rw [missing] at live
      cases live
    · refine ⟨?_, ?_, fun _ => empty⟩
      · intro session seen
        have old := (List.getElem?_eq_some_iff.mp seen).1.trans_le safe.length
        omega
      · intro session live
        rw [List.getElem?_eq_none new] at live
        cases live

end Generator

section Sample

open World (sampleIds sampleCrawlers sampleBrowser)

def sampleWatched (steps : List Step) : Watched :=
  steps.foldl (Watched.step sampleIds sampleCrawlers) (Watched.start 0 30)

def sampleGet (watched : Watched) : Option Nat :=
  (get sampleIds sampleCrawlers watched.manager
    (sampleBrowser (some (sampleIds 0)))).2.toOption.map Prod.fst

/-- A session that has expired after half an hour, or was invalidated, is still found. -/
theorem get_returns_expired_session :
    (((sampleWatched [.get (sampleBrowser none), .elapse 1800000000001]).manager.objects[0]?).map
        (fun session => session.isExpired 1800000000001) = some true ∧
      (sampleWatched [.get (sampleBrowser none), .elapse 1800000000001]).manager.now =
        1800000000001 ∧
      sampleGet (sampleWatched [.get (sampleBrowser none), .elapse 1800000000001]) = some 0) ∧
    sampleGet (sampleWatched [.get (sampleBrowser none), .invalidate 0, .elapse 1]) = some 0 := by
  decide +kernel

/-- The session is gone once the manager was searched. -/
theorem get_skips_swept_sessions_new :
    ∃ after next session,
      get sampleIds sampleCrawlers (sampleWatched [.get (sampleBrowser none),
        .elapse 1800000000001, .checkSessionTimeout]).manager (sampleBrowser (some (sampleIds 0))) =
          (after, .ok (1, next)) ∧
      after.objects[1]? = some session ∧ session.subject = none := by
  let watched := sampleWatched [.get (sampleBrowser none), .elapse 1800000000001,
    .checkSessionTimeout]
  have answer : sampleGet watched = some 1 := by decide +kernel
  have size : watched.manager.objects[1]? = none := by decide +kernel
  unfold sampleGet at answer
  generalize result : get sampleIds sampleCrawlers watched.manager
    (sampleBrowser (some (sampleIds 0))) = returned at answer
  obtain ⟨after, outcome⟩ := returned
  cases outcome with
  | error exn => cases answer
  | ok pair =>
      obtain ⟨ref, next⟩ := pair
      cases answer
      obtain ⟨session, live, _, subject⟩ := ((get_skips_swept_sessions sampleIds sampleCrawlers 0 30
        [.get (sampleBrowser none), .elapse 1800000000001, .checkSessionTimeout]
        (sampleBrowser (some (sampleIds 0))) watched rfl).2.2 after 1 next result).2.2 size
      exact ⟨after, next, session, rfl, live, subject⟩

end Sample

end SessionManager

end FastcgiContainer
