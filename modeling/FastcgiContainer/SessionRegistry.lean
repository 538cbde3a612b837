import FastcgiContainer.SessionManager

/-! What the operations of the session manager do to its registry: every id leads
to a session that bears it, and a session that is made is new. -/

namespace FastcgiContainer

open Word (Bytes)

namespace SessionManager

/-- Every id leads to a session that bears this id. -/
def Registered (manager : SessionManager) : Prop :=
  ∀ id ref, manager.resolve id = some ref →
    ∃ session, manager.objects[ref]? = some session ∧ session.id = id

theorem Registered.unique {manager : SessionManager} (registered : Registered manager) {ref : Nat}
    {first second : Bytes} (left : manager.resolve first = some ref)
    (right : manager.resolve second = some ref) : first = second := by
  obtain ⟨session, found, same⟩ := registered first ref left
  obtain ⟨other, again, twin⟩ := registered second ref right
  rw [found] at again
  cases again
  exact same.symm.trans twin

theorem registered_start (now maxInactiveInterval : Int) :
    Registered (start now maxInactiveInterval) := by
  intro id ref found
  cases found

@[simp] theorem resolve_modify (manager : SessionManager) (ref : Nat) (change : Session → Session)
    (query : Bytes) : (manager.modify ref change).resolve query = manager.resolve query := rfl

@[simp] theorem resolve_newSession (manager : SessionManager) (id query : Bytes) :
    (manager.newSession id).1.resolve query = manager.resolve query := rfl

theorem modify_objects (manager : SessionManager) (ref other : Nat) (change : Session → Session) :
    (manager.modify ref change).objects[other]? =
      if ref = other then (manager.objects[other]?).map change else manager.objects[other]? := by
  rw [modify, List.getElem?_modify]
  split
  · rfl
  · cases manager.objects[other]? <;> rfl

theorem modify_itself (manager : SessionManager) (ref : Nat) (change : Session → Session) :
    (manager.modify ref change).objects[ref]? = (manager.objects[ref]?).map change := by
  rw [modify_objects, if_pos rfl]

theorem modify_length (manager : SessionManager) (ref : Nat) (change : Session → Session) :
    (manager.modify ref change).objects.length = manager.objects.length := by
  rw [modify, List.length_modify]

theorem Registered.modify {manager : SessionManager} (registered : Registered manager) (ref : Nat)
    (change : Session → Session) (keeps : ∀ session, (change session).id = session.id) :
    Registered (manager.modify ref change) := by
  intro id other found
  obtain ⟨session, live, same⟩ := registered id other found
  rw [modify_objects]
  split
  · exact ⟨change session, by rw [live, Option.map_some], (keeps session).trans same⟩
  · exact ⟨session, live, same⟩

theorem Registered.fewer {manager next : SessionManager} (registered : Registered manager)
    (objects : next.objects = manager.objects)
    (entries : ∀ id ref, next.resolve id = some ref → manager.resolve id = some ref) :
    Registered next := by
  intro id ref found
  rw [objects]
  exact registered id ref (entries id ref found)

theorem Registered.erase {manager : SessionManager} (registered : Registered manager) (id : Bytes) :
    Registered { manager with sessions := manager.sessions.erase id } := by
  apply registered.fewer
  · rfl
  · intro query ref found
    simp only [resolve, find?_erase] at found
    split at found
    · cases found
    · exact found

theorem Registered.release {manager : SessionManager} (registered : Registered manager)
    (held : List Nat) (ref : Nat) : Registered (manager.release held ref) := by
  unfold SessionManager.release
  split
  · exact registered
  · split
    · exact registered
    · exact registered.erase _

theorem Registered.checkSessionTimeout {manager : SessionManager} (registered : Registered manager) :
    Registered manager.checkSessionTimeout := by
  apply registered.fewer
  · rfl
  · intro id ref found
    exact OrderedMap.find?_filter stringLess_exact _ _ _ _ found

theorem Registered.newSession {manager : SessionManager} (registered : Registered manager)
    (id : Bytes) : Registered (manager.newSession id).1 := by
  intro other ref found
  obtain ⟨session, live, same⟩ := registered other ref found
  refine ⟨session, ?_, same⟩
  have inside := (List.getElem?_eq_some_iff.mp live).1
  rw [SessionManager.newSession, List.getElem?_append_left inside]
  exact live

theorem newSession_object (manager : SessionManager) (id : Bytes) :
    (manager.newSession id).1.objects[(manager.newSession id).2]? =
      some (Session.create id manager.now) := by
  simp [SessionManager.newSession]

theorem Registered.insert {manager : SessionManager} (registered : Registered manager) {id : Bytes}
    {ref : Nat} {session : Session} (live : manager.objects[ref]? = some session)
    (same : session.id = id) :
    Registered { manager with sessions := manager.sessions.insert id ref } := by
  intro query other found
  simp only [resolve, find?_insert] at found
  split at found
  · next here =>
      cases taken : manager.sessions.find? query with
      | none =>
          rw [taken] at found
          cases found
          exact ⟨session, live, same.trans here⟩
      | some old =>
          rw [taken] at found
          cases found
          exact registered query _ taken
  · exact registered query other found

section Generator

variable (uuid : Nat → Bytes) (crawlerAgents : Bytes → Bool) (request : Request)

@[simp] theorem resolve_getNewId (manager : SessionManager) (query : Bytes) :
    (getNewId uuid crawlerAgents manager request).1.resolve query = manager.resolve query := by
  unfold getNewId
  split <;> rfl

@[simp] theorem objects_getNewId (manager : SessionManager) :
    (getNewId uuid crawlerAgents manager request).1.objects = manager.objects := by
  unfold getNewId
  split <;> rfl

theorem Registered.getNewId {manager : SessionManager} (registered : Registered manager) :
    Registered (SessionManager.getNewId uuid crawlerAgents manager request).1 := by
  apply registered.fewer
  · exact objects_getNewId uuid crawlerAgents request manager
  · intro id ref found
    rwa [resolve_getNewId] at found

structure Makes (manager next : SessionManager) (ref : Nat) : Prop where
  registered : Registered next
  new : manager.objects.length ≤ ref
  fresh : ∃ session, next.objects[ref]? = some session ∧ session.subject = none

theorem insertNew_makes (fuel : Nat) (manager : SessionManager) (id : Bytes)
    (registered : Registered manager) :
    Makes manager (insertNew uuid crawlerAgents request fuel manager id).1
      (insertNew uuid crawlerAgents request fuel manager id).2 := by
  induction fuel generalizing manager id with
  | zero =>
      unfold insertNew
      simp only
      split
      · refine ⟨(registered.newSession id).insert (newSession_object manager id) rfl, le_refl _, ?_⟩
        exact ⟨_, newSession_object manager id, rfl⟩
      · exact ⟨registered.newSession id, le_refl _, _, newSession_object manager id, rfl⟩
  | succ fuel ih =>
      unfold insertNew
      simp only
      split
      · refine ⟨(registered.newSession id).insert (newSession_object manager id) rfl, le_refl _, ?_⟩
        exact ⟨_, newSession_object manager id, rfl⟩
      · have again := ih _ (SessionManager.getNewId uuid crawlerAgents (manager.newSession id).1 request).2
          (((registered.newSession id).getNewId uuid crawlerAgents request).erase id)
        refine ⟨again.registered, le_trans ?_ again.new, again.fresh⟩
        simp [SessionManager.newSession]

theorem createInternal_makes (manager : SessionManager) (registered : Registered manager)
    (unique : uuid manager.drawn ≠ crawlerAgentSessionId)
    (human : isBot crawlerAgents request = false) :
    Makes manager (createInternal uuid crawlerAgents manager request).1
      (createInternal uuid crawlerAgents manager request).2 := by
  have drawn : SessionManager.getNewId uuid crawlerAgents manager request =
      ({ manager with drawn := manager.drawn + 1 }, uuid manager.drawn) := by
    simp [SessionManager.getNewId, human]
  simp only [createInternal, drawn, if_pos unique.symm]
  have made := insertNew_makes uuid crawlerAgents request manager.sessions.entries.length
    { manager with drawn := manager.drawn + 1 } (uuid manager.drawn)
    (by simpa [drawn] using registered.getNewId uuid crawlerAgents request)
  obtain ⟨session, live, anonymous⟩ := made.fresh
  refine ⟨made.registered.modify _ _ (fun _ => rfl), made.new, ?_⟩
  rw [modify_itself, live]
  exact ⟨_, rfl, anonymous⟩

theorem createInternal_shared (manager : SessionManager) (bot : isBot crawlerAgents request = true) :
    manager.objects.length ≤ (createInternal uuid crawlerAgents manager request).2 ∨
      manager.resolve crawlerAgentSessionId =
        some (createInternal uuid crawlerAgents manager request).2 := by
  have fixed : SessionManager.getNewId uuid crawlerAgents manager request =
      (manager, crawlerAgentSessionId) := by
    simp [SessionManager.getNewId, bot]
  simp only [createInternal, fixed, ne_eq, not_true_eq_false, if_false]
  split
  · next ref known => exact Or.inr known
  · exact Or.inl (le_refl _)

theorem Registered.createInternal {manager : SessionManager} (registered : Registered manager) :
    Registered (SessionManager.createInternal uuid crawlerAgents manager request).1 := by
  have drawn := registered.getNewId uuid crawlerAgents request
  unfold SessionManager.createInternal
  simp only
  split
  · have made := insertNew_makes uuid crawlerAgents request
      (SessionManager.getNewId uuid crawlerAgents manager request).1.sessions.entries.length _
      (SessionManager.getNewId uuid crawlerAgents manager request).2 drawn
    exact made.registered.modify _ _ (fun _ => rfl)
  · split
    · exact drawn.modify _ _ (fun _ => rfl)
    · refine Registered.modify ?_ _ _ (fun _ => rfl)
      exact (drawn.newSession _).insert (newSession_object _ _) rfl

theorem named_eq {manager : SessionManager} {request : Request} {ref : Nat}
    (found : manager.named request = some ref) :
    request.hasCookie sessionCookieName = true ∧
      manager.resolve (request.getCookie sessionCookieName) = some ref := by
  unfold named at found
  split at found
  · next present => exact ⟨present, found⟩
  · cases found

theorem named_none {manager : SessionManager} {request : Request}
    (missing : manager.resolve (request.getCookie sessionCookieName) = none) :
    manager.named request = none := by
  unfold named
  split
  · exact missing
  · rfl

/-- `create` first ends the session that the request names. -/
def ended (manager : SessionManager) (request : Request) : SessionManager :=
  match manager.named request with
  | some ref => manager.modify ref (fun session => session.invalidate manager.now)
  | none => manager

theorem create_eq (manager : SessionManager) : SessionManager.create uuid crawlerAgents manager request =
    createWithCookie uuid crawlerAgents (manager.ended request) request := by
  unfold SessionManager.create ended
  cases manager.named request <;> rfl

theorem ended_keeps (holds : SessionManager → Prop) {manager : SessionManager} {request : Request}
    (start : holds manager) (ends : ∀ ref, manager.named request = some ref →
      holds (manager.modify ref (fun session => session.invalidate manager.now))) :
    holds (manager.ended request) := by
  unfold ended
  cases named : manager.named request with
  | some ref => exact ends ref named
  | none => exact start

@[simp] theorem resolve_ended (manager : SessionManager) (request : Request) (query : Bytes) :
    (manager.ended request).resolve query = manager.resolve query :=
  ended_keeps (fun next => next.resolve query = manager.resolve query) rfl (fun _ _ => rfl)

@[simp] theorem length_ended (manager : SessionManager) (request : Request) :
    (manager.ended request).objects.length = manager.objects.length :=
  ended_keeps (fun next => next.objects.length = manager.objects.length) rfl
    (fun ref _ => modify_length manager ref _)

@[simp] theorem drawn_ended (manager : SessionManager) (request : Request) :
    (manager.ended request).drawn = manager.drawn :=
  ended_keeps (fun next => next.drawn = manager.drawn) rfl (fun _ _ => rfl)

theorem Registered.ended {manager : SessionManager} (registered : Registered manager)
    (request : Request) : Registered (manager.ended request) :=
  ended_keeps Registered registered (fun ref _ =>
    registered.modify ref (fun session => session.invalidate manager.now) (fun _ => rfl))

theorem Registered.create {manager : SessionManager} (registered : Registered manager) :
    Registered (SessionManager.create uuid crawlerAgents manager request).1 := by
  rw [create_eq]
  exact (registered.ended request).createInternal uuid crawlerAgents request

theorem Registered.get {manager : SessionManager} (registered : Registered manager) :
    Registered (SessionManager.get uuid crawlerAgents manager request).1 := by
  unfold SessionManager.get
  split
  · exact registered.modify _ _ (fun _ => rfl)
  · exact registered.createInternal uuid crawlerAgents request

theorem registered_renamed {manager next : SessionManager} (registered : Registered manager)
    {cookie id : Bytes} {ref : Nat} (found : manager.resolve cookie = some ref)
    (objects : next.objects = (manager.modify ref (fun session => { session with id })).objects)
    (gone : next.resolve cookie = none)
    (entries : ∀ query other, next.resolve query = some other →
      (query = id ∧ other = ref) ∨ manager.resolve query = some other) : Registered next := by
  intro query other resolved
  rw [objects, modify_objects]
  rcases entries query other resolved with ⟨rfl, rfl⟩ | old
  · obtain ⟨session, live, _⟩ := registered cookie other found
    rw [if_pos rfl, live]
    exact ⟨_, rfl, rfl⟩
  · have differ : ref ≠ other := by
      rintro rfl
      rw [registered.unique old found, gone] at resolved
      cases resolved
    rw [if_neg differ]
    exact registered query other old

theorem moveEntry_spec {manager moved : SessionManager} {held : List Nat} {cookie id : Bytes}
    {ref : Nat} (done : manager.moveEntry held cookie id ref = .ok moved) :
    moved.objects = manager.objects ∧ moved.drawn = manager.drawn ∧ moved.resolve cookie = none ∧
      ∀ query other, moved.resolve query = some other →
        (query = id ∧ other = ref) ∨ manager.resolve query = some other := by
  unfold moveEntry at done
  split at done
  · next free =>
      cases done
      refine ⟨rfl, rfl, by simp [resolve], ?_⟩
      intro query other resolved
      simp only [resolve, find?_erase, find?_insert] at resolved
      split at resolved
      · cases resolved
      · split at resolved
        · next here =>
            subst here
            have none : manager.sessions.find? id = none := by simpa [resolve] using free
            rw [none] at resolved
            cases resolved
            exact Or.inl ⟨rfl, rfl⟩
        · exact Or.inr resolved
  · split at done
    · cases done
      refine ⟨rfl, rfl, by simp [resolve], ?_⟩
      intro query other resolved
      simp only [resolve, find?_erase] at resolved
      split at resolved
      · cases resolved
      · exact Or.inr resolved
    · split at done
      · cases done
      · cases done
        refine ⟨rfl, rfl, by simp [resolve], ?_⟩
        intro query other resolved
        simp only [resolve, find?_erase] at resolved
        split at resolved
        · cases resolved
        · split at resolved
          · cases resolved
          · exact Or.inr resolved

theorem moveEntry_clock {manager moved : SessionManager} {held : List Nat} {cookie id : Bytes}
    {ref : Nat} (done : manager.moveEntry held cookie id ref = .ok moved) :
    moved.now = manager.now ∧ moved.maxInactiveInterval = manager.maxInactiveInterval := by
  unfold moveEntry at done
  split at done
  · cases done
    exact ⟨rfl, rfl⟩
  · split at done
    · cases done
      exact ⟨rfl, rfl⟩
    · split at done
      · cases done
      · cases done
        exact ⟨rfl, rfl⟩

theorem moveEntry_error {manager : SessionManager} {held : List Nat} {cookie id : Bytes} {ref : Nat}
    {exn : Exn} (failed : manager.moveEntry held cookie id ref = .error exn) :
    id = cookie ∧ ref ∉ held := by
  unfold moveEntry at failed
  split at failed
  · cases failed
  · split at failed
    · cases failed
    · next loose =>
        split at failed
        · next same => exact ⟨same, by simpa using loose⟩
        · cases failed

theorem Registered.changeId {manager : SessionManager} (registered : Registered manager)
    (held : List Nat) :
    Registered (SessionManager.changeId uuid crawlerAgents manager held request).1 := by
  unfold SessionManager.changeId
  split
  · exact registered
  · next ref named =>
      have found := (named_eq named).2
      have drawn := registered.getNewId uuid crawlerAgents request
      simp only
      split
      · next exn failed =>
          -- an entry that cannot be moved keeps its id
          have same := (moveEntry_error failed).1
          intro query other resolved
          simp only [resolve_modify, resolve_getNewId] at resolved
          obtain ⟨session, live, bears⟩ := registered query other resolved
          rw [modify_objects, objects_getNewId, live]
          split
          · next here =>
              rw [here] at found
              exact ⟨_, rfl, same.trans (registered.unique found resolved)⟩
          · exact ⟨session, rfl, bears⟩
      · next moved done =>
          obtain ⟨objects, _, gone, entries⟩ := moveEntry_spec done
          refine registered_renamed drawn ?_ objects gone entries
          rw [resolve_getNewId]
          exact found

end Generator

end SessionManager

namespace Request

variable (uuid : Nat → Bytes) (crawlerAgents : Bytes → Bool)

theorem getSession_held {request : Request} {ref : Nat} (held : request.session = some ref)
    (manager : SessionManager) : request.getSession uuid crawlerAgents manager = (manager, request) := by
  simp only [getSession, held]

theorem getSession_named {request : Request} {manager : SessionManager} {ref : Nat}
    (free : request.session = none) (named : manager.named request = some ref) :
    request.getSession uuid crawlerAgents manager =
      (manager.modify ref (fun session => { session with lastAccessed := manager.now }),
        { request with session := some ref }) := by
  simp only [getSession, free, SessionManager.get, named]

end Request

end FastcgiContainer
