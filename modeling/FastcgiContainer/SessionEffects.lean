import FastcgiContainer.SessionRegistry

/-! What `createInternal`, `get`, `create` and `changeId` do to the registry: exactly,
where the id they register is free, and the entry they end with in any case. -/

namespace FastcgiContainer

open Word (Bytes)

namespace SessionManager

structure Created (manager next : SessionManager) (id : Bytes) : Prop where
  resolves : ∀ query, next.resolve query =
    if query = id then some manager.objects.length else manager.resolve query
  objects : ∃ session, next.objects = manager.objects ++ [session] ∧ session.id = id ∧
    session.attributes = .empty ∧ session.subject = none

structure Renamed (manager next : SessionManager) (cookie id : Bytes) (ref : Nat) : Prop where
  resolves : ∀ query, next.resolve query =
    if query = cookie then none else if query = id then some ref else manager.resolve query
  objects : next.objects = (manager.modify ref (fun session => { session with id })).objects

theorem Created.old {manager next : SessionManager} {id : Bytes} (created : Created manager next id)
    {ref : Nat} {session : Session} (live : manager.objects[ref]? = some session) :
    next.objects[ref]? = some session := by
  obtain ⟨made, objects, _⟩ := created.objects
  rw [objects, List.getElem?_append_left (List.getElem?_eq_some_iff.mp live).1]
  exact live

theorem Created.new {manager next : SessionManager} {id : Bytes} (created : Created manager next id) :
    ∃ session, next.objects[manager.objects.length]? = some session ∧ session.id = id ∧
      session.attributes = .empty ∧ session.subject = none := by
  obtain ⟨made, objects, facts⟩ := created.objects
  refine ⟨made, ?_, facts⟩
  rw [objects, List.getElem?_append_right (le_refl _), Nat.sub_self]
  rfl

theorem Created.registered {manager next : SessionManager} {id : Bytes}
    (created : Created manager next id) (registered : Registered manager) : Registered next := by
  intro query ref found
  rw [created.resolves] at found
  split at found
  · next same =>
      cases found
      obtain ⟨session, live, bears, _⟩ := created.new
      exact ⟨session, live, bears.trans same.symm⟩
  · obtain ⟨session, live, bears⟩ := registered query ref found
    exact ⟨session, created.old live, bears⟩

theorem Renamed.registered {manager next : SessionManager} {cookie id : Bytes} {ref : Nat}
    (renamed : Renamed manager next cookie id ref) (registered : Registered manager)
    (known : manager.resolve cookie = some ref) : Registered next := by
  apply registered_renamed registered known renamed.objects
  · rw [renamed.resolves, if_pos rfl]
  · intro query other found
    rw [renamed.resolves] at found
    split at found
    · cases found
    · split at found
      · next same =>
          cases found
          exact Or.inl ⟨same, rfl⟩
      · exact Or.inr found

theorem resolve_insert_free {manager : SessionManager} {id : Bytes} (ref : Nat)
    (free : manager.resolve id = none) (query : Bytes) :
    { manager with sessions := manager.sessions.insert id ref }.resolve query =
      if query = id then some ref else manager.resolve query := by
  simp only [resolve, find?_insert]
  by_cases here : id = query
  · subst here
    rw [resolve] at free
    simp [free]
  · rw [if_neg here, if_neg (fun same => here same.symm)]

theorem modify_last {α : Type} (items : List α) (item : α) (change : α → α) :
    (items ++ [item]).modify items.length change = items ++ [change item] := by
  induction items with
  | nil => rfl
  | cons head rest ih => simp [ih]

theorem created_modify {manager base : SessionManager} {id : Bytes}
    (same : ∀ query, base.resolve query = manager.resolve query)
    (objects : base.objects = manager.objects) (vacant : base.resolve id = none)
    (change : Session → Session) (keeps : ∀ session, (change session).id = session.id ∧
      (change session).attributes = session.attributes ∧ (change session).subject = session.subject) :
    Created manager (modify { (base.newSession id).1 with
      sessions := base.sessions.insert id base.objects.length } base.objects.length change) id := by
  constructor
  · intro query
    have found := resolve_insert_free base.objects.length vacant query
    rw [same, objects] at found
    rw [objects]
    exact found
  · refine ⟨change (Session.create id base.now), ?_, (keeps _).1, (keeps _).2.1, (keeps _).2.2⟩
    simp only [modify, SessionManager.newSession, modify_last]
    rw [objects]

section Generator

variable (uuid : Nat → Bytes) (crawlerAgents : Bytes → Bool) (request : Request)

def newId (manager : SessionManager) : Bytes := (getNewId uuid crawlerAgents manager request).2

@[simp] theorem newId_modify (manager : SessionManager) (ref : Nat) (change : Session → Session) :
    newId uuid crawlerAgents request (manager.modify ref change) =
      newId uuid crawlerAgents request manager := by
  unfold newId getNewId
  split <;> rfl

@[simp] theorem newId_ended (manager : SessionManager) (other : Request) :
    newId uuid crawlerAgents request (manager.ended other) =
      newId uuid crawlerAgents request manager :=
  ended_keeps (fun next => newId uuid crawlerAgents request next =
    newId uuid crawlerAgents request manager) rfl (fun _ _ => newId_modify ..)

theorem insertNew_free {manager : SessionManager} {id : Bytes} (free : manager.resolve id = none)
    (fuel : Nat) : insertNew uuid crawlerAgents request fuel manager id =
      ({ (manager.newSession id).1 with sessions := manager.sessions.insert id manager.objects.length },
        manager.objects.length) := by
  unfold insertNew
  simp only [resolve_newSession, free, Option.isNone_none, if_true]
  rfl

theorem createInternal_free {manager : SessionManager}
    (free : manager.resolve (newId uuid crawlerAgents request manager) = none) :
    (createInternal uuid crawlerAgents manager request).2 = manager.objects.length ∧
      Created manager (createInternal uuid crawlerAgents manager request).1
        (newId uuid crawlerAgents request manager) := by
  have same := resolve_getNewId uuid crawlerAgents request manager
  have objects := objects_getNewId uuid crawlerAgents request manager
  simp only [newId] at free ⊢
  unfold createInternal
  generalize getNewId uuid crawlerAgents manager request = drawn at same objects free
  obtain ⟨base, id⟩ := drawn
  simp only at same objects free ⊢
  have vacant : base.resolve id = none := (same id).trans free
  split
  · rw [insertNew_free uuid crawlerAgents request vacant]
    constructor
    · exact congrArg List.length objects
    · exact created_modify same objects vacant _ (fun _ => ⟨rfl, rfl, rfl⟩)
  · rw [vacant]
    constructor
    · exact congrArg List.length objects
    · exact created_modify same objects vacant _ (fun _ => ⟨rfl, rfl, rfl⟩)

theorem createInternal_crawler {manager : SessionManager} {ref : Nat}
    (bot : isBot crawlerAgents request = true)
    (known : manager.resolve crawlerAgentSessionId = some ref) :
    createInternal uuid crawlerAgents manager request =
      (manager.modify ref (fun session => { session with lastAccessed := manager.now }), ref) := by
  have fixed : getNewId uuid crawlerAgents manager request = (manager, crawlerAgentSessionId) := by
    simp [getNewId, bot]
  simp only [createInternal, fixed, ne_eq, not_true_eq_false, if_false, known]

theorem changeId_free {manager : SessionManager} {ref : Nat} (held : List Nat)
    (named : manager.named request = some ref)
    (free : manager.resolve (newId uuid crawlerAgents request manager) = none) :
    Renamed manager (changeId uuid crawlerAgents manager held request).1
        (request.getCookie sessionCookieName) (newId uuid crawlerAgents request manager) ref ∧
      (changeId uuid crawlerAgents manager held request).2 =
        request.setCookie (sessionCookie request (newId uuid crawlerAgents request manager)) := by
  have same := resolve_getNewId uuid crawlerAgents request manager
  have objects := objects_getNewId uuid crawlerAgents request manager
  simp only [newId] at free ⊢
  unfold changeId
  rw [named]
  simp only
  generalize getNewId uuid crawlerAgents manager request = drawn at same objects free
  obtain ⟨base, id⟩ := drawn
  simp only at same objects free ⊢
  have vacant : (base.modify ref (fun session => { session with id })).resolve id = none := by
    rw [resolve_modify, same, free]
  have moved : (base.modify ref (fun session => { session with id })).moveEntry held
      (request.getCookie sessionCookieName) id ref =
      .ok { base.modify ref (fun session => { session with id }) with
        sessions := ((base.modify ref (fun session => { session with id })).sessions.insert id
          ref).erase (request.getCookie sessionCookieName) } := by
    simp only [moveEntry, vacant, Option.isNone_none, if_true]
  rw [moved]
  refine ⟨⟨?_, ?_⟩, rfl⟩
  · intro query
    have inserted := resolve_insert_free ref vacant query
    rw [resolve_modify, same] at inserted
    simp only [resolve, find?_erase]
    by_cases here : query = request.getCookie sessionCookieName
    · rw [if_pos here, if_pos here.symm]
    · rw [if_neg here, if_neg (fun turned => here turned.symm)]
      exact inserted
  · simp only [modify, objects]

theorem changeId_gone {manager : SessionManager} {ref : Nat} (held : List Nat)
    (named : manager.named request = some ref) :
    (∃ exn, (changeId uuid crawlerAgents manager held request).2 = .error exn) ∨
      ((changeId uuid crawlerAgents manager held request).1.resolve
          (request.getCookie sessionCookieName) = none ∧
        (changeId uuid crawlerAgents manager held request).2 =
          request.setCookie (sessionCookie request (newId uuid crawlerAgents request manager))) := by
  unfold changeId
  rw [named]
  simp only
  split
  · next exn failed => exact Or.inl ⟨exn, rfl⟩
  · next moved done => exact Or.inr ⟨(moveEntry_spec done).2.2.1, rfl⟩

def dropped (manager : SessionManager) (id : Bytes) : SessionManager :=
  { (getNewId uuid crawlerAgents (manager.newSession id).1 request).1 with
    sessions := manager.sessions.erase id }

theorem insertNew_taken {manager : SessionManager} {id : Bytes} (taken : manager.resolve id ≠ none)
    (fuel : Nat) : insertNew uuid crawlerAgents request (fuel + 1) manager id =
      insertNew uuid crawlerAgents request fuel (dropped uuid crawlerAgents request manager id)
        (newId uuid crawlerAgents request (manager.newSession id).1) := by
  have same : (getNewId uuid crawlerAgents (manager.newSession id).1 request).1.sessions =
      manager.sessions := by
    unfold getNewId
    split <;> rfl
  rw [insertNew]
  simp only [resolve_newSession, Option.isNone_iff_eq_none, taken, if_false, same]
  rfl

/-- The loop always ends with an entry for the session that it returns: each turn
takes one entry from the map, so there is a free id before the turns run out. -/
theorem insertNew_registered (fuel : Nat) (manager : SessionManager) (id : Bytes)
    (enough : manager.sessions.entries.length ≤ fuel) :
    ∃ session, (insertNew uuid crawlerAgents request fuel manager id).1.objects[
        (insertNew uuid crawlerAgents request fuel manager id).2]? = some session ∧
      (insertNew uuid crawlerAgents request fuel manager id).1.resolve session.id =
        some (insertNew uuid crawlerAgents request fuel manager id).2 := by
  induction fuel generalizing manager id with
  | zero =>
      have free : manager.resolve id = none := by
        have empty := List.eq_nil_of_length_eq_zero (Nat.le_zero.mp enough)
        simp [resolve, OrderedMap.find?, OrderedMap.lookup, empty]
      rw [insertNew_free uuid crawlerAgents request free]
      refine ⟨_, newSession_object manager id, ?_⟩
      exact (resolve_insert_free _ ((resolve_newSession manager id id).trans free) id).trans (if_pos rfl)
  | succ fuel ih =>
      by_cases free : manager.resolve id = none
      · rw [insertNew_free uuid crawlerAgents request free]
        refine ⟨_, newSession_object manager id, ?_⟩
        exact (resolve_insert_free _ ((resolve_newSession manager id id).trans free) id).trans
          (if_pos rfl)
      · rw [insertNew_taken uuid crawlerAgents request free]
        apply ih
        have fewer := OrderedMap.erase_length stringLess_exact manager.sessions id
          (Option.isSome_iff_ne_none.mpr free)
        exact Nat.le_of_lt_succ (Nat.lt_of_lt_of_le fewer enough)

theorem insertNew_object (fuel : Nat) (manager : SessionManager) (id : Bytes) :
    ∃ other, (insertNew uuid crawlerAgents request fuel manager id).1.objects[
      (insertNew uuid crawlerAgents request fuel manager id).2]? =
        some (Session.create other manager.now) := by
  induction fuel generalizing manager id with
  | zero =>
      refine ⟨id, ?_⟩
      unfold insertNew
      simp only
      split
      · exact newSession_object manager id
      · exact newSession_object manager id
  | succ fuel ih =>
      by_cases free : manager.resolve id = none
      · rw [insertNew_free uuid crawlerAgents request free]
        exact ⟨id, newSession_object manager id⟩
      · rw [insertNew_taken uuid crawlerAgents request free]
        obtain ⟨other, made⟩ := ih (dropped uuid crawlerAgents request manager id)
          (newId uuid crawlerAgents request (manager.newSession id).1)
        refine ⟨other, made.trans ?_⟩
        simp only [dropped, getNewId]
        split <;> rfl

theorem insertNew_keeps (human : isBot crawlerAgents request = false) (fuel : Nat)
    (manager : SessionManager) (id key : Bytes) (differs : id ≠ key)
    (never : ∀ index, manager.drawn ≤ index → uuid index ≠ key) :
    (insertNew uuid crawlerAgents request fuel manager id).1.resolve key = manager.resolve key := by
  induction fuel generalizing manager id with
  | zero =>
      unfold insertNew
      simp only
      split
      · simp only [resolve, find?_insert, if_neg differs]
        rfl
      · rfl
  | succ fuel ih =>
      by_cases free : manager.resolve id = none
      · rw [insertNew_free uuid crawlerAgents request free]
        simp only [resolve, find?_insert, if_neg differs]
      · rw [insertNew_taken uuid crawlerAgents request free, ih]
        · simp only [dropped, resolve, find?_erase, if_neg differs]
        · simp only [newId, getNewId, human, Bool.not_false, if_true]
          exact never _ (le_refl _)
        · intro index later
          apply never
          simp only [dropped, getNewId, human, Bool.not_false, if_true] at later
          exact Nat.le_of_succ_le later

/-- The session that `createInternal` returns is registered under its id. -/
theorem createInternal_registered {manager : SessionManager} (registered : Registered manager) :
    ∃ session, (createInternal uuid crawlerAgents manager request).1.objects[
        (createInternal uuid crawlerAgents manager request).2]? = some session ∧
      (createInternal uuid crawlerAgents manager request).1.resolve session.id =
        some (createInternal uuid crawlerAgents manager request).2 := by
  have drawn := registered.getNewId uuid crawlerAgents request
  unfold createInternal
  generalize SessionManager.getNewId uuid crawlerAgents manager request = pair at drawn
  obtain ⟨base, id⟩ := pair
  simp only at drawn ⊢
  split
  · obtain ⟨session, live, found⟩ := insertNew_registered uuid crawlerAgents request
      base.sessions.entries.length base id (le_refl _)
    rw [modify_itself, live]
    exact ⟨_, rfl, found⟩
  · cases known : base.resolve id with
    | some ref =>
        obtain ⟨session, live, same⟩ := drawn id ref known
        simp only [modify_objects, if_true, live, resolve_modify]
        refine ⟨_, rfl, ?_⟩
        rw [same]
        exact known
    | none =>
        have found := resolve_insert_free base.objects.length known id
        rw [if_pos rfl] at found
        simp only [modify_objects, if_true, resolve_modify]
        rw [newSession_object base id]
        exact ⟨_, rfl, found⟩

theorem createInternal_keeps {manager : SessionManager} {key : Bytes} {ref : Nat}
    (found : manager.resolve key = some ref)
    (never : isBot crawlerAgents request = false →
      ∀ index, manager.drawn ≤ index → uuid index ≠ key) :
    (createInternal uuid crawlerAgents manager request).1.resolve key = some ref := by
  cases bot : isBot crawlerAgents request with
  | true =>
      cases known : manager.resolve crawlerAgentSessionId with
      | some shared =>
          rw [createInternal_crawler uuid crawlerAgents request bot known]
          exact found
      | none =>
          have fixed : newId uuid crawlerAgents request manager = crawlerAgentSessionId := by
            simp [newId, getNewId, bot]
          have made := (createInternal_free uuid crawlerAgents request (by rw [fixed, known])).2
          rw [made.resolves, if_neg]
          · exact found
          · rintro rfl
            rw [fixed, known] at found
            cases found
  | false =>
      by_cases free : manager.resolve (newId uuid crawlerAgents request manager) = none
      · rw [(createInternal_free uuid crawlerAgents request free).2.resolves, if_neg]
        · exact found
        · rintro rfl
          rw [free] at found
          cases found
      · have drawn : getNewId uuid crawlerAgents manager request =
            ({ manager with drawn := manager.drawn + 1 }, uuid manager.drawn) := by
          simp [getNewId, bot]
        have differs := never bot manager.drawn (le_refl _)
        unfold createInternal
        simp only [drawn]
        split
        · rw [resolve_modify, insertNew_keeps uuid crawlerAgents request bot _ _ _ _ differs]
          · exact found
          · intro index later
            exact never bot index (Nat.le_of_succ_le later)
        · split
          · exact found
          · next missing =>
              simp only [newId, drawn] at free
              exact absurd missing free

end Generator

end SessionManager

end FastcgiContainer
