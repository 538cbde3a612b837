import FastcgiContainer.SessionCookie

/-! Session fixation. An id that was sent by or to a client before a request does not
lead to the session in which this request has logged in. -/

namespace FastcgiContainer

open Word (Bytes)
open SessionManager (Registered Created Renamed isBot sessionCookieName newId)

namespace SessionManager

section Generator

variable (uuid : Nat → Bytes) (crawlerAgents : Bytes → Bool) (request : Request)

theorem insertNew_drawn (fuel : Nat) (manager : SessionManager) (id : Bytes) :
    manager.drawn ≤ (insertNew uuid crawlerAgents request fuel manager id).1.drawn := by
  induction fuel generalizing manager id with
  | zero =>
      unfold insertNew
      simp only
      split
      · exact le_refl _
      · exact le_refl _
  | succ fuel ih =>
      by_cases free : manager.resolve id = none
      · rw [insertNew_free uuid crawlerAgents request free]
        exact le_refl _
      · rw [insertNew_taken uuid crawlerAgents request free]
        refine le_trans ?_ (ih _ _)
        simp only [dropped, getNewId]
        split
        · exact Nat.le_succ _
        · exact le_refl _

theorem newId_human (human : isBot crawlerAgents request = false) (manager : SessionManager) :
    getNewId uuid crawlerAgents manager request =
      ({ manager with drawn := manager.drawn + 1 }, uuid manager.drawn) := by
  simp [getNewId, human]

theorem createInternal_drawn (human : isBot crawlerAgents request = false)
    (manager : SessionManager) :
    manager.drawn < (createInternal uuid crawlerAgents manager request).1.drawn := by
  unfold createInternal
  simp only [newId_human uuid crawlerAgents request human]
  split
  · exact insertNew_drawn uuid crawlerAgents request _ { manager with drawn := manager.drawn + 1 } _
  · split
    · exact Nat.lt_succ_self _
    · exact Nat.lt_succ_self _

theorem changeId_drawn (human : isBot crawlerAgents request = false) (manager : SessionManager)
    (held : List Nat) :
    (manager.named request = none →
      changeId uuid crawlerAgents manager held request = (manager, .ok request)) ∧
    (manager.named request ≠ none →
      (changeId uuid crawlerAgents manager held request).1.drawn = manager.drawn + 1) := by
  unfold changeId
  split
  · next named => exact ⟨fun _ => rfl, fun present => absurd named present⟩
  · next ref named =>
      constructor
      · intro missing
        cases named.symm.trans missing
      · intro _
        simp only [newId_human uuid crawlerAgents request human]
        split
        · rfl
        · next moved done => exact (moveEntry_spec done).2.1

theorem changeId_grows (manager : SessionManager) (held : List Nat) :
    manager.drawn ≤ (changeId uuid crawlerAgents manager held request).1.drawn := by
  have drawn : manager.drawn ≤ (getNewId uuid crawlerAgents manager request).1.drawn := by
    unfold getNewId
    split
    · exact Nat.le_succ _
    · exact le_refl _
  unfold changeId
  split
  · exact le_refl _
  · simp only
    split
    · exact drawn
    · next moved done =>
        rw [(moveEntry_spec done).2.1]
        exact drawn

end Generator

end SessionManager

namespace Request

/-- What is kept while a request is handled: `known` are the ids that were registered
or presented, `sent` those that went to or came from a client before the request or
with it. -/
structure Safe (crawlerAgents : Bytes → Bool) (known sent : List Bytes) (manager : SessionManager)
    (request : Request) : Prop where
  registered : Registered manager
  listed : ∀ id ref, manager.resolve id = some ref → id ∈ known
  included : ∀ id ∈ sent, id ∈ known
  human : isBot crawlerAgents request = false
  presented : ∀ id, request.cookies.find? sessionCookieName = some id → id ∈ sent
  told : ∀ cookie, request.outCookies.find? sessionCookieName = some cookie → cookie.value ∈ known
  held : ∀ ref, request.session = some ref → ∃ id, manager.resolve id = some ref ∧
    (id ∉ sent ∨ request.cookies.find? sessionCookieName = some id)

section Generator

variable (uuid : Nat → Bytes) (crawlerAgents : Bytes → Bool) (authenticator : Authenticator)
  {known sent : List Bytes}

structure Widens (known wider : List Bytes) (manager : SessionManager) : Prop where
  old : ∀ id ∈ known, id ∈ wider
  registered : ∀ id ref, manager.resolve id = some ref → id ∈ wider

theorem newId_eq {request : Request} (human : isBot crawlerAgents request = false)
    (manager : SessionManager) : newId uuid crawlerAgents request manager = uuid manager.drawn := by
  simp [newId, SessionManager.getNewId, human]

theorem Safe.created {manager : SessionManager} {request : Request}
    (safe : Safe crawlerAgents known sent manager request) (fresh : uuid manager.drawn ∉ known) :
    (SessionManager.createInternal uuid crawlerAgents manager request).2 = manager.objects.length ∧
      Created manager (SessionManager.createInternal uuid crawlerAgents manager request).1
        (uuid manager.drawn) := by
  rw [← newId_eq uuid crawlerAgents safe.human manager] at fresh ⊢
  apply SessionManager.createInternal_free uuid crawlerAgents request
  cases found : manager.resolve (newId uuid crawlerAgents request manager) with
  | none => rfl
  | some ref => exact absurd (safe.listed _ ref found) fresh

theorem Safe.still_resolves {manager next : SessionManager} {request : Request}
    (safe : Safe crawlerAgents known sent manager request) (fresh : uuid manager.drawn ∉ known)
    (created : Created manager next (uuid manager.drawn)) {id : Bytes} {ref : Nat}
    (found : manager.resolve id = some ref) : next.resolve id = some ref := by
  rw [created.resolves, if_neg]
  · exact found
  · rintro rfl
    exact fresh (safe.listed _ _ found)

theorem Safe.informed {manager next : SessionManager} {request after : Request} {wider : List Bytes}
    {id : Bytes} {ref : Nat} (safe : Safe crawlerAgents known sent manager request)
    (widens : Widens known wider next) (client : SameClient request after)
    (registered : Registered next) (here : next.resolve id = some ref)
    (told : after.outCookies = request.outCookies ∨ after.outCookies = (request.told id).outCookies)
    (held : ∀ ref, after.session = some ref → ∃ id, next.resolve id = some ref ∧
      (id ∉ sent ∨ request.cookies.find? sessionCookieName = some id)) :
    Safe crawlerAgents wider sent next after := by
  refine ⟨registered, widens.registered, ?_, ?_, ?_, ?_, ?_⟩
  · intro id member
    exact widens.old id (safe.included id member)
  · rw [← safe.human]
    simp only [isBot, getHeader, client.headers]
  · intro id cookie
    rw [client.cookies] at cookie
    exact safe.presented id cookie
  · intro cookie queued
    rcases told with same | new
    · rw [same] at queued
      exact widens.old _ (safe.told cookie queued)
    · rw [new, Request.told, find?_assign, if_pos rfl] at queued
      cases queued
      exact widens.registered _ _ here
  · rw [client.cookies]
    exact held

theorem Safe.grown {manager next : SessionManager} {request after : Request} {wider : List Bytes}
    (safe : Safe crawlerAgents known sent manager request) (fresh : uuid manager.drawn ∉ known)
    (created : Created manager next (uuid manager.drawn)) (widens : Widens known wider next)
    (client : SameClient request after)
    (told : after.outCookies = request.outCookies ∨
      after.outCookies = (request.told (uuid manager.drawn)).outCookies)
    (session : ∀ ref, after.session = some ref →
      ref = manager.objects.length ∨ request.session = some ref) :
    Safe crawlerAgents wider sent next after := by
  have here : next.resolve (uuid manager.drawn) = some manager.objects.length :=
    (created.resolves _).trans (if_pos rfl)
  apply safe.informed crawlerAgents widens client (created.registered safe.registered) here told
  intro ref holds
  rcases session ref holds with rfl | old
  · exact ⟨_, here, Or.inl (fun member => fresh (safe.included _ member))⟩
  · obtain ⟨id, found, origin⟩ := safe.held ref old
    exact ⟨id, safe.still_resolves uuid crawlerAgents fresh created found, origin⟩

theorem Safe.modify {manager : SessionManager} {request : Request}
    (safe : Safe crawlerAgents known sent manager request) (ref : Nat) (change : Session → Session)
    (keeps : ∀ session, (change session).id = session.id) :
    Safe crawlerAgents known sent (manager.modify ref change) request :=
  ⟨safe.registered.modify ref change keeps, safe.listed, safe.included, safe.human, safe.presented,
    safe.told, safe.held⟩

theorem Safe.widen {manager : SessionManager} {request : Request} {wider : List Bytes}
    (safe : Safe crawlerAgents known sent manager request) (widens : Widens known wider manager) :
    Safe crawlerAgents wider sent manager request :=
  ⟨safe.registered, widens.registered, fun id member => widens.old id (safe.included id member),
    safe.human, safe.presented, fun cookie queued => widens.old _ (safe.told cookie queued), safe.held⟩

theorem createWithCookie_created {manager : SessionManager} {request : Request} {id : Bytes}
    (made : (SessionManager.createInternal uuid crawlerAgents manager request).2 =
      manager.objects.length)
    (created : Created manager (SessionManager.createInternal uuid crawlerAgents manager request).1 id) :
    SessionManager.createWithCookie uuid crawlerAgents manager request =
      ((SessionManager.createInternal uuid crawlerAgents manager request).1,
        if request.headersSent then
          .error (cookieRefused (SessionManager.sessionCookie request id))
        else .ok (manager.objects.length, request.told id)) := by
  obtain ⟨session, live, bears, _⟩ := created.new
  simp only [SessionManager.createWithCookie, made, live, Option.map_some, Option.getD_some, bears,
    setCookie]
  by_cases sent : request.headersSent = true
  · rw [if_pos sent, if_pos sent]
    rfl
  · rw [if_neg sent, if_neg sent]
    rfl

theorem getSession_created {manager : SessionManager} {request : Request}
    (held : request.session = none) (named : manager.named request = none) :
    (request.getSession uuid crawlerAgents manager).1 =
      (SessionManager.createInternal uuid crawlerAgents manager request).1 := by
  simp only [getSession, held, SessionManager.get, named]
  split
  · next done => rw [(createWithCookie_request uuid crawlerAgents done).1]
  · next done => exact (congrArg Prod.fst done).symm

theorem getSession_safe {manager : SessionManager} {request : Request} {wider : List Bytes}
    (safe : Safe crawlerAgents known sent manager request)
    (fresh : (request.getSession uuid crawlerAgents manager).1.drawn ≠ manager.drawn →
      uuid manager.drawn ∉ known)
    (widens : Widens known wider (request.getSession uuid crawlerAgents manager).1) :
    Safe crawlerAgents wider sent (request.getSession uuid crawlerAgents manager).1
      (request.getSession uuid crawlerAgents manager).2 := by
  cases held : request.session with
  | some ref =>
      rw [getSession_held uuid crawlerAgents held] at widens ⊢
      exact safe.widen crawlerAgents widens
  | none =>
      cases named : manager.named request with
      | some ref =>
          rw [getSession_named uuid crawlerAgents held named] at widens ⊢
          have touched := (safe.modify crawlerAgents ref
            (fun session => { session with lastAccessed := manager.now }) (fun _ => rfl)).widen
            crawlerAgents widens
          refine ⟨touched.registered, touched.listed, touched.included, touched.human,
            touched.presented, touched.told, ?_⟩
          intro other same
          cases same
          obtain ⟨present, found⟩ := SessionManager.named_eq named
          obtain ⟨id, cookie⟩ := Option.isSome_iff_exists.mp present
          rw [getCookie, cookie] at found
          exact ⟨id, found, Or.inr cookie⟩
      | none =>
          have drawn := SessionManager.createInternal_drawn uuid crawlerAgents request safe.human manager
          have got := getSession_created uuid crawlerAgents held named
          rw [got] at fresh widens
          have new := fresh (Nat.ne_of_gt drawn)
          obtain ⟨made, created⟩ := safe.created uuid crawlerAgents new
          have done := createWithCookie_created uuid crawlerAgents made created
          rw [got]
          apply safe.grown uuid crawlerAgents new created widens
          · exact (getSession_kept uuid crawlerAgents request manager).1
          · simp only [getSession, held, SessionManager.get, named, done]
            cases request.headersSent with
            | false => exact Or.inr rfl
            | true => exact Or.inl rfl
          · intro ref
            simp only [getSession, held, SessionManager.get, named, done]
            cases request.headersSent with
            | false =>
                intro same
                cases same
                exact Or.inl rfl
            | true =>
                intro same
                cases held.symm.trans same

theorem takeSession_drawn (request : Request) (others : List Nat) (manager : SessionManager)
    (next : Option Nat) : (request.takeSession others manager next).1.drawn = manager.drawn := by
  unfold takeSession
  split
  · rfl
  · unfold SessionManager.release
    split
    · rfl
    · split <;> rfl

theorem Safe.ended {manager : SessionManager} {request : Request}
    (safe : Safe crawlerAgents known sent manager request) :
    Safe crawlerAgents known sent (manager.ended request) request := by
  apply SessionManager.ended_keeps (fun next => Safe crawlerAgents known sent next request) safe
  intro ref _
  exact safe.modify crawlerAgents ref (fun session => session.invalidate manager.now) (fun _ => rfl)

theorem Safe.takeSession_created {manager next : SessionManager} {request after : Request}
    (safe : Safe crawlerAgents known sent manager request) (fresh : uuid manager.drawn ∉ known)
    (created : Created manager next (uuid manager.drawn)) (same : after.session = request.session)
    (session : Option Nat) : after.takeSession [] next session = (next, { after with session }) := by
  cases holds : request.session with
  | none =>
      have none : after.session = none := same.trans holds
      simp only [takeSession, none]
  | some old =>
      obtain ⟨id, found, _⟩ := safe.held old holds
      exact takeSession_registered [] id (same.trans holds)
        (safe.still_resolves uuid crawlerAgents fresh created found) session

theorem createSession_safe {manager : SessionManager} {request : Request} {wider : List Bytes}
    (safe : Safe crawlerAgents known sent manager request)
    (fresh : (request.createSession uuid crawlerAgents [] manager).1.drawn ≠ manager.drawn →
      uuid manager.drawn ∉ known)
    (widens : Widens known wider (request.createSession uuid crawlerAgents [] manager).1) :
    Safe crawlerAgents wider sent (request.createSession uuid crawlerAgents [] manager).1
      (request.createSession uuid crawlerAgents [] manager).2 := by
  have steady := safe.ended crawlerAgents
  have drawn := SessionManager.drawn_ended manager request
  have created := SessionManager.create_eq uuid crawlerAgents request manager
  generalize manager.ended request = base at steady drawn created
  have grows := SessionManager.createInternal_drawn uuid crawlerAgents request safe.human base
  have later : manager.drawn < (request.createSession uuid crawlerAgents [] manager).1.drawn := by
    rw [← drawn]
    unfold createSession
    rw [created]
    split
    · next done =>
        rw [(createWithCookie_request uuid crawlerAgents done).1] at grows
        rw [takeSession_drawn]
        exact grows
    · next done =>
        obtain ⟨rfl, _⟩ := Prod.mk.inj done
        rw [takeSession_drawn]
        exact grows
  have new := fresh (Nat.ne_of_gt later)
  rw [← drawn] at new
  obtain ⟨made, fits⟩ := steady.created uuid crawlerAgents new
  have done := createWithCookie_created uuid crawlerAgents made fits
  by_cases late : request.headersSent = true
  · have got : request.createSession uuid crawlerAgents [] manager =
        ((SessionManager.createInternal uuid crawlerAgents base request).1,
          { request with session := none }) := by
      simp only [createSession, created, done]
      rw [if_pos late]
      exact steady.takeSession_created uuid crawlerAgents new fits rfl none
    rw [got] at widens ⊢
    apply steady.grown uuid crawlerAgents new fits widens
    · exact ⟨rfl, rfl⟩
    · exact Or.inl rfl
    · intro ref same
      cases same
  · have got : request.createSession uuid crawlerAgents [] manager =
        ((SessionManager.createInternal uuid crawlerAgents base request).1,
          { request.told (uuid base.drawn) with session := some base.objects.length }) := by
      simp only [createSession, created, done]
      rw [if_neg late]
      exact @Safe.takeSession_created uuid crawlerAgents known sent base _ request
        (request.told (uuid base.drawn)) steady new fits rfl (some base.objects.length)
    rw [got] at widens ⊢
    apply steady.grown uuid crawlerAgents new fits widens
    · exact ⟨rfl, rfl⟩
    · exact Or.inr rfl
    · intro ref same
      cases same
      exact Or.inl rfl

theorem Safe.moved {manager next : SessionManager} {request after : Request} {wider : List Bytes}
    {ref : Nat} (safe : Safe crawlerAgents known sent manager request)
    (fresh : uuid manager.drawn ∉ known) (named : manager.named request = some ref)
    (renamed : Renamed manager next (request.getCookie sessionCookieName) (uuid manager.drawn) ref)
    (widens : Widens known wider next) (client : SameClient request after)
    (session : after.session = request.session)
    (told : after.outCookies = request.outCookies ∨
      after.outCookies = (request.told (uuid manager.drawn)).outCookies) :
    Safe crawlerAgents wider sent next after ∧
      ∀ other, request.session = some other → ∃ id, next.resolve id = some other ∧ id ∉ sent := by
  obtain ⟨present, known⟩ := SessionManager.named_eq named
  obtain ⟨own, cookie⟩ := Option.isSome_iff_exists.mp present
  have same : request.getCookie sessionCookieName = own := by rw [getCookie, cookie]; rfl
  rw [same] at renamed known
  have apart : uuid manager.drawn ≠ own := by
    intro twin
    exact fresh (twin ▸ safe.listed own ref known)
  have here : next.resolve (uuid manager.drawn) = some ref := by
    rw [renamed.resolves, if_neg apart, if_pos rfl]
  have fixed : ∀ other, request.session = some other →
      ∃ id, next.resolve id = some other ∧ id ∉ sent := by
    intro other holds
    by_cases turned : other = ref
    · exact ⟨_, turned ▸ here, fun member => fresh (safe.included _ member)⟩
    · obtain ⟨id, found, origin⟩ := safe.held other holds
      have elsewhere : id ≠ own := by
        rintro rfl
        exact turned (Option.some.inj (found.symm.trans known))
      have old : id ≠ uuid manager.drawn := by
        rintro rfl
        exact fresh (safe.listed _ _ found)
      refine ⟨id, ?_, ?_⟩
      · rw [renamed.resolves, if_neg elsewhere, if_neg old]
        exact found
      · rcases origin with unsent | presented
        · exact unsent
        · rw [cookie] at presented
          exact absurd (Option.some.inj presented).symm elsewhere
  refine ⟨?_, fixed⟩
  apply safe.informed crawlerAgents widens client (renamed.registered safe.registered known) here told
  intro other holds
  obtain ⟨id, found, unsent⟩ := fixed other (session.symm.trans holds)
  exact ⟨id, found, Or.inl unsent⟩

theorem changeId_safe {manager : SessionManager} {request : Request} {wider : List Bytes}
    (safe : Safe crawlerAgents known sent manager request) (references : List Nat)
    (fresh : (SessionManager.changeId uuid crawlerAgents manager references request).1.drawn ≠
      manager.drawn → uuid manager.drawn ∉ known)
    (widens : Widens known wider
      (SessionManager.changeId uuid crawlerAgents manager references request).1) :
    Safe crawlerAgents wider sent
        (SessionManager.changeId uuid crawlerAgents manager references request).1 request ∧
      (∀ next, (SessionManager.changeId uuid crawlerAgents manager references request).2 = .ok next →
        Safe crawlerAgents wider sent
          (SessionManager.changeId uuid crawlerAgents manager references request).1 next) ∧
      ∀ other, request.session = some other → ∃ id,
        (SessionManager.changeId uuid crawlerAgents manager references request).1.resolve id =
          some other ∧ id ∉ sent := by
  obtain ⟨idle, moves⟩ := SessionManager.changeId_drawn uuid crawlerAgents request safe.human manager
    references
  cases named : manager.named request with
  | none =>
      rw [idle named] at widens ⊢
      have same := safe.widen crawlerAgents widens
      refine ⟨same, ?_, ?_⟩
      · intro next done
        cases done
        exact same
      · intro other holds
        obtain ⟨id, found, unsent | presented⟩ := safe.held other holds
        · exact ⟨id, found, unsent⟩
        · have present : request.hasCookie sessionCookieName = true := by
            rw [hasCookie, presented]
            rfl
          rw [SessionManager.named, if_pos present, getCookie, presented] at named
          cases found.symm.trans named
  | some ref =>
      have drawn := moves (by rw [named]; exact Option.some_ne_none ref)
      have new := fresh (by rw [drawn]; exact Nat.succ_ne_self _)
      have free : manager.resolve (newId uuid crawlerAgents request manager) = none := by
        rw [newId_eq uuid crawlerAgents safe.human]
        cases found : manager.resolve (uuid manager.drawn) with
        | none => rfl
        | some other => exact absurd (safe.listed _ _ found) new
      obtain ⟨renamed, outcome⟩ := SessionManager.changeId_free uuid crawlerAgents request references
        named free
      rw [newId_eq uuid crawlerAgents safe.human] at renamed outcome
      obtain ⟨stays, fixed⟩ := safe.moved uuid crawlerAgents new named renamed widens
        (SameClient.refl request) rfl (Or.inl rfl)
      refine ⟨stays, ?_, fixed⟩
      intro next done
      rw [outcome] at done
      have kept := setCookie_kept done
      unfold setCookie at done
      split at done
      · cases done
      · cases done
        exact (safe.moved uuid crawlerAgents new named renamed widens kept.1 rfl (Or.inr rfl)).1

/-- `getSession` looks a session up, or makes one for a request without. -/
theorem getSession_cases (request : Request) (manager : SessionManager) :
    ((request.getSession uuid crawlerAgents manager).1.drawn = manager.drawn ∧
      ∀ id, (request.getSession uuid crawlerAgents manager).1.resolve id = manager.resolve id) ∨
    (manager.named request = none ∧ (request.getSession uuid crawlerAgents manager).1 =
      (SessionManager.createInternal uuid crawlerAgents manager request).1) := by
  cases held : request.session with
  | some ref =>
      simp only [getSession, held]
      exact Or.inl ⟨trivial, fun _ => trivial⟩
  | none =>
      cases named : manager.named request with
      | some ref =>
          simp only [getSession, held, SessionManager.get, named]
          exact Or.inl ⟨rfl, fun _ => rfl⟩
      | none => exact Or.inr ⟨rfl, getSession_created uuid crawlerAgents held named⟩

theorem Safe.same {manager : SessionManager} {request after : Request}
    (safe : Safe crawlerAgents known sent manager request) (client : SameClient request after)
    (queued : after.outCookies = request.outCookies) (session : after.session = request.session) :
    Safe crawlerAgents known sent manager after := by
  refine ⟨safe.registered, safe.listed, safe.included, ?_, ?_, ?_, ?_⟩
  · rw [← safe.human]
    simp only [isBot, getHeader, client.headers]
  · rw [client.cookies]
    exact safe.presented
  · rw [queued]
    exact safe.told
  · rw [session, client.cookies]
    exact safe.held

def registeredIds (manager : SessionManager) : List Bytes := manager.sessions.entries.map Prod.fst

theorem widens_registered (known : List Bytes) (manager : SessionManager) :
    Widens known (registeredIds manager ++ known) manager := by
  constructor
  · intro id member
    exact List.mem_append_right _ member
  · intro id ref found
    apply List.mem_append_left
    exact List.mem_map.mpr ⟨(id, ref), (OrderedMap.find?_eq_some stringLess_exact _ _ _).mp found, rfl⟩

theorem named_after_creation {manager : SessionManager} {request : Request}
    (safe : Safe crawlerAgents known sent manager request) (fresh : uuid manager.drawn ∉ known)
    (named : manager.named request = none)
    (made : (request.getSession uuid crawlerAgents manager).1 =
      (SessionManager.createInternal uuid crawlerAgents manager request).1) :
    (request.getSession uuid crawlerAgents manager).1.named
      (request.getSession uuid crawlerAgents manager).2 = none := by
  have client := (getSession_kept uuid crawlerAgents request manager).1
  obtain ⟨_, created⟩ := safe.created uuid crawlerAgents fresh
  rw [made]
  unfold SessionManager.named hasCookie getCookie at named ⊢
  rw [client.cookies]
  cases cookie : request.cookies.find? sessionCookieName with
  | none => rfl
  | some id =>
      rw [cookie] at named
      have differs : id ≠ uuid manager.drawn := by
        rintro rfl
        exact fresh (safe.included _ (safe.presented _ cookie))
      exact (created.resolves id).trans ((if_neg differs).trans named)

/-- `getSession` and then `changeId`. At most one of them draws an id. -/
theorem getSession_changeId_safe {manager : SessionManager} {request : Request} {wider : List Bytes}
    (safe : Safe crawlerAgents known sent manager request) (ref : Nat) (change : Session → Session)
    (keeps : ∀ session, (change session).id = session.id) (references : List Nat)
    (final : SessionManager × Except Exn Request)
    (done : SessionManager.changeId uuid crawlerAgents
      ((request.getSession uuid crawlerAgents manager).1.modify ref change) references
      (request.getSession uuid crawlerAgents manager).2 = final)
    (fresh : final.1.drawn ≠ manager.drawn → uuid manager.drawn ∉ known)
    (widens : Widens known wider final.1) :
    Safe crawlerAgents wider sent final.1 (request.getSession uuid crawlerAgents manager).2 ∧
      (∀ next, final.2 = .ok next → Safe crawlerAgents wider sent final.1 next) ∧
      ∀ other, (request.getSession uuid crawlerAgents manager).2.session = some other →
        ∃ id, final.1.resolve id = some other ∧ id ∉ sent := by
  have human : isBot crawlerAgents (request.getSession uuid crawlerAgents manager).2 = false := by
    rw [← safe.human]
    simp only [isBot, getHeader, (getSession_kept uuid crawlerAgents request manager).1.headers]
  obtain ⟨idle, _⟩ := SessionManager.changeId_drawn uuid crawlerAgents
    (request.getSession uuid crawlerAgents manager).2 human
    ((request.getSession uuid crawlerAgents manager).1.modify ref change) references
  rcases getSession_cases uuid crawlerAgents request manager with ⟨quiet, same⟩ | ⟨named, made⟩
  · have got : Safe crawlerAgents known sent (request.getSession uuid crawlerAgents manager).1
        (request.getSession uuid crawlerAgents manager).2 := by
      apply getSession_safe uuid crawlerAgents safe
      · intro differs
        exact absurd quiet differs
      · refine ⟨fun _ member => member, ?_⟩
        intro id other found
        rw [same] at found
        exact safe.listed id other found
    rw [← done] at fresh widens ⊢
    apply changeId_safe uuid crawlerAgents (got.modify crawlerAgents ref change keeps) references _
      widens
    intro differs
    have start : ((request.getSession uuid crawlerAgents manager).1.modify ref change).drawn =
        manager.drawn := quiet
    rw [start] at differs ⊢
    exact fresh differs
  · have drawn := SessionManager.createInternal_drawn uuid crawlerAgents request safe.human manager
    rw [← made] at drawn
    have later : manager.drawn < final.1.drawn := by
      rw [← done]
      exact Nat.lt_of_lt_of_le drawn (SessionManager.changeId_grows uuid crawlerAgents
        (request.getSession uuid crawlerAgents manager).2
        ((request.getSession uuid crawlerAgents manager).1.modify ref change) references)
    have new := fresh (Nat.ne_of_gt later)
    have none := named_after_creation uuid crawlerAgents safe new named made
    have ended : final = (((request.getSession uuid crawlerAgents manager).1.modify ref change),
        .ok (request.getSession uuid crawlerAgents manager).2) := done.symm.trans (idle none)
    rw [ended] at widens ⊢
    have got : Safe crawlerAgents wider sent (request.getSession uuid crawlerAgents manager).1
        (request.getSession uuid crawlerAgents manager).2 := by
      apply getSession_safe uuid crawlerAgents safe (fun _ => new)
      exact ⟨widens.old, widens.registered⟩
    have changed := changeId_safe uuid crawlerAgents (got.modify crawlerAgents ref change keeps)
      references (by
        intro differs
        rw [idle none] at differs
        exact absurd rfl differs) (by
        rw [idle none]
        exact ⟨fun _ member => member, widens.registered⟩)
    rw [idle none] at changed
    exact changed

theorem changeId_objects (manager : SessionManager) (references : List Nat) (request : Request)
    {ref : Nat} {session : Session} (live : manager.objects[ref]? = some session) :
    ∃ kept, (SessionManager.changeId uuid crawlerAgents manager references request).1.objects[ref]? =
        some kept ∧ kept.attributes = session.attributes ∧ kept.subject = session.subject := by
  unfold SessionManager.changeId
  split
  · exact ⟨session, live, rfl, rfl⟩
  · next other named =>
      have renamed : ∀ id, ∃ kept, ((SessionManager.getNewId uuid crawlerAgents manager
          request).1.modify other (fun session => { session with id })).objects[ref]? = some kept ∧
          kept.attributes = session.attributes ∧ kept.subject = session.subject := by
        intro id
        rw [SessionManager.modify_objects, SessionManager.objects_getNewId, live]
        split
        · exact ⟨_, rfl, rfl, rfl⟩
        · exact ⟨session, rfl, rfl, rfl⟩
      simp only
      split
      · exact renamed _
      · next moved done =>
          rw [(SessionManager.moveEntry_spec done).1]
          exact renamed _

theorem getSession_attributes {manager : SessionManager} {request : Request}
    (safe : Safe crawlerAgents known sent manager request)
    (fresh : (request.getSession uuid crawlerAgents manager).1.drawn ≠ manager.drawn →
      uuid manager.drawn ∉ known) {ref : Nat}
    (holds : (request.getSession uuid crawlerAgents manager).2.session = some ref) :
    ∃ session, (request.getSession uuid crawlerAgents manager).1.objects[ref]? = some session ∧
      (∀ old, manager.objects[ref]? = some old → session.attributes = old.attributes) ∧
      (manager.objects[ref]? = none → session.attributes = .empty) := by
  have known : ∀ id, manager.resolve id = some ref → ∀ next : SessionManager,
      (∀ old, manager.objects[ref]? = some old →
        ∃ kept, next.objects[ref]? = some kept ∧ kept.attributes = old.attributes) →
      ∃ session, next.objects[ref]? = some session ∧
        (∀ old, manager.objects[ref]? = some old → session.attributes = old.attributes) ∧
        (manager.objects[ref]? = none → session.attributes = .empty) := by
    intro id found next keeps
    obtain ⟨old, live, _⟩ := safe.registered id ref found
    obtain ⟨kept, there, same⟩ := keeps old live
    refine ⟨kept, there, ?_, ?_⟩
    · intro other again
      rw [live] at again
      cases again
      exact same
    · intro missing
      cases live.symm.trans missing
  cases held : request.session with
  | some other =>
      have idle : request.getSession uuid crawlerAgents manager = (manager, request) := by
        simp only [getSession, held]
      rw [idle] at holds ⊢
      obtain ⟨id, found, _⟩ := safe.held ref holds
      exact known id found manager (fun old live => ⟨old, live, rfl⟩)
  | none =>
      cases named : manager.named request with
      | some other =>
          have got : request.getSession uuid crawlerAgents manager =
              (manager.modify other (fun session => { session with lastAccessed := manager.now }),
                { request with session := some other }) := by
            simp only [getSession, held, SessionManager.get, named]
          rw [got] at holds ⊢
          cases holds
          apply known _ (SessionManager.named_eq named).2
          intro old live
          rw [SessionManager.modify_itself, live]
          exact ⟨_, rfl, rfl⟩
      | none =>
          have drawn := SessionManager.createInternal_drawn uuid crawlerAgents request safe.human manager
          have got := getSession_created uuid crawlerAgents held named
          rw [got] at fresh ⊢
          obtain ⟨place, created⟩ := safe.created uuid crawlerAgents (fresh (Nat.ne_of_gt drawn))
          have done := createWithCookie_created uuid crawlerAgents place created
          simp only [getSession, held, SessionManager.get, named, done] at holds
          by_cases late : request.headersSent = true
          · rw [if_pos late] at holds
            cases held.symm.trans holds
          · rw [if_neg late] at holds
            cases holds
            obtain ⟨session, live, _, empty, _⟩ := created.new
            refine ⟨session, live, ?_, fun _ => empty⟩
            intro old there
            rw [List.getElem?_eq_none (le_refl _)] at there
            cases there

theorem changeSession_safe {manager : SessionManager} {request : Request} {wider : List Bytes}
    (safe : Safe crawlerAgents known sent manager request) (change : Session → Session)
    (keeps : ∀ session, (change session).id = session.id)
    (widens : Widens known wider (request.changeSession manager change)) :
    Safe crawlerAgents wider sent (request.changeSession manager change) request := by
  unfold changeSession at widens ⊢
  split at widens
  · exact safe.widen crawlerAgents widens
  · exact (safe.modify crawlerAgents _ change keeps).widen crawlerAgents widens

theorem storeSubject_safe {manager : SessionManager} {request : Request} (wider : List Bytes)
    (safe : Safe crawlerAgents known sent manager request) (subject : Subject)
    (final : SessionManager × Except Exn Request)
    (done : authenticator.storeSubject uuid crawlerAgents
      (request.getSession uuid crawlerAgents manager).2 []
      (request.getSession uuid crawlerAgents manager).1 subject = final)
    (fresh : final.1.drawn ≠ manager.drawn → uuid manager.drawn ∉ known)
    (widens : Widens known wider final.1) :
    Safe crawlerAgents wider sent final.1 (request.getSession uuid crawlerAgents manager).2 ∧
      ∀ next, final.2 = .ok next → Safe crawlerAgents wider sent final.1 next := by
  have plain : ∀ ref, final = ((request.getSession uuid crawlerAgents manager).1.modify ref
        (fun session => { session with subject := some subject }),
        .ok (request.getSession uuid crawlerAgents manager).2) →
      Safe crawlerAgents wider sent final.1 (request.getSession uuid crawlerAgents manager).2 := by
    intro ref same
    rw [same] at fresh widens ⊢
    exact (getSession_safe uuid crawlerAgents safe fresh ⟨widens.old, widens.registered⟩).modify
      crawlerAgents ref _ (fun _ => rfl)
  unfold Authenticator.storeSubject at done
  split at done
  · rw [← done] at fresh widens ⊢
    have got := getSession_safe uuid crawlerAgents safe fresh widens
    refine ⟨got, ?_⟩
    intro next same
    cases same
    exact got
  · next ref holds =>
      simp only at done
      split at done
      · obtain ⟨first, second, _⟩ := getSession_changeId_safe uuid crawlerAgents safe ref
          (fun session => { session with subject := some subject }) (fun _ => rfl) _ final done fresh
          widens
        exact ⟨first, second⟩
      · have got := plain ref done.symm
        refine ⟨got, ?_⟩
        intro next same
        rw [← done] at same
        cases same
        exact got

theorem perform_safe {manager : SessionManager} {request : Request} {wider : List Bytes} (call : Call)
    (safe : Safe crawlerAgents known sent manager request)
    (fresh : (request.perform uuid crawlerAgents authenticator [] manager call).1.drawn ≠
      manager.drawn → uuid manager.drawn ∉ known)
    (widens : Widens known wider
      (request.perform uuid crawlerAgents authenticator [] manager call).1) :
    Safe crawlerAgents wider sent
      (request.perform uuid crawlerAgents authenticator [] manager call).1
      (request.perform uuid crawlerAgents authenticator [] manager call).2 := by
  cases call with
  | getSession => exact getSession_safe uuid crawlerAgents safe fresh widens
  | createSession => exact createSession_safe uuid crawlerAgents safe fresh widens
  | changeSessionId =>
      simp only [perform, changeSessionId] at fresh widens ⊢
      have changed := @changeId_safe uuid crawlerAgents known sent manager request wider safe
        ([] ++ request.session.toList)
      generalize SessionManager.changeId uuid crawlerAgents manager ([] ++ request.session.toList)
        request = result at fresh widens changed ⊢
      obtain ⟨after, outcome⟩ := result
      cases outcome with
      | error exn => exact (changed fresh widens).1
      | ok next => exact (changed fresh widens).2.1 next rfl
  | isAuthenticated =>
      rcases isAuthenticated_cases uuid crawlerAgents request manager with
        ⟨_, same⟩ | ⟨_, after, client, session, queued⟩
      · simp only [perform, same] at fresh widens ⊢
        exact safe.widen crawlerAgents widens
      · simp only [perform, after] at fresh widens ⊢
        have got := getSession_safe uuid crawlerAgents safe fresh widens
        have kept := (getSession_kept uuid crawlerAgents request manager).1
        apply got.same crawlerAgents _ queued session
        exact ⟨client.cookies.trans kept.cookies.symm, client.headers.trans kept.headers.symm⟩
  | setSubject subject =>
      have stored := storeSubject_safe uuid crawlerAgents authenticator wider safe subject _ rfl
      simp only [perform, Authenticator.setSubject] at fresh widens ⊢
      generalize authenticator.storeSubject uuid crawlerAgents
        (request.getSession uuid crawlerAgents manager).2 []
        (request.getSession uuid crawlerAgents manager).1 subject = result at fresh widens stored ⊢
      obtain ⟨after, outcome⟩ := result
      cases outcome with
      | error exn => exact (stored fresh widens).1
      | ok next =>
          simp only at fresh widens ⊢
          cases assigned : next.setSubject subject with
          | error exn =>
              simp only [assigned] at fresh widens ⊢
              exact (stored fresh widens).2 next rfl
          | ok last =>
              simp only [assigned] at fresh widens ⊢
              obtain ⟨client, session, queued⟩ := setSubject_kept assigned
              exact ((stored fresh widens).2 next rfl).same crawlerAgents client queued session
  | setRequestSubject subject =>
      simp only [perform] at fresh widens ⊢
      cases assigned : request.setSubject subject with
      | error exn =>
          simp only [assigned] at widens ⊢
          exact safe.widen crawlerAgents widens
      | ok next =>
          simp only [assigned] at widens ⊢
          obtain ⟨client, session, queued⟩ := setSubject_kept assigned
          exact (safe.same crawlerAgents client queued session).widen crawlerAgents widens
  | setAttribute name value =>
      exact changeSession_safe crawlerAgents safe _ (fun _ => rfl) widens
  | removeAttribute name => exact changeSession_safe crawlerAgents safe _ (fun _ => rfl) widens
  | invalidateSession => exact changeSession_safe crawlerAgents safe _ (fun _ => rfl) widens
  | sendHeaders =>
      have late : Safe crawlerAgents known sent manager { request with headersSent := true } :=
        safe.same crawlerAgents ⟨rfl, rfl⟩ rfl rfl
      exact late.widen crawlerAgents widens

end Generator

end Request

/-- Requests that are handled one after another. -/
structure Visits where
  manager : SessionManager
  /-- The ids that were registered, or presented in a cookie. -/
  known : List Bytes
  /-- The ids that were sent by or to a client before the current request, and with it. -/
  sent : List Bytes
  current : Option Request

namespace Visits

open Request (Safe registeredIds)

def presentedId (request : Request) : List Bytes :=
  (request.cookies.find? sessionCookieName).toList

def toldId (request : Request) : List Bytes :=
  ((request.outCookies.find? sessionCookieName).map Cookie.value).toList

section Generator

variable (uuid : Nat → Bytes) (crawlerAgents : Bytes → Bool) (authenticator : Authenticator)

def afterCall (visits : Visits) (request : Request) (call : Call) : Visits :=
  let result := request.perform uuid crawlerAgents authenticator [] visits.manager call
  { visits with
    manager := result.1, known := registeredIds result.1 ++ visits.known, current := some result.2 }

/-- Any number of requests, none of them a crawler's, one after another. An id that a
call draws is none that was registered or presented before. -/
inductive Served : Visits → Prop
  | start (now maxInactiveInterval : Int) : Served ⟨.start now maxInactiveInterval, [], [], none⟩
  | arrive {visits : Visits} (request : Request) : Served visits → visits.current = none →
      isBot crawlerAgents request = false →
      Served { visits with
        known := presentedId request ++ visits.known
        sent := presentedId request ++ visits.sent
        current := some { request with
          session := none, subject := none, headersSent := false, outCookies := .empty } }
  | call {visits : Visits} (request : Request) (call : Call) : Served visits →
      visits.current = some request →
      ((visits.afterCall uuid crawlerAgents authenticator request call).manager.drawn ≠
        visits.manager.drawn → uuid visits.manager.drawn ∉ visits.known) →
      Served (visits.afterCall uuid crawlerAgents authenticator request call)
  | finish {visits : Visits} (request : Request) : Served visits → visits.current = some request →
      Served { visits with
        manager := (request.takeSession [] visits.manager none).1
        sent := toldId request ++ visits.sent
        current := none }
  | elapse {visits : Visits} (time : Nat) : Served visits →
      Served { visits with
        manager := { visits.manager with now := visits.manager.now + time } }
  | checkSessionTimeout {visits : Visits} : Served visits → visits.current = none →
      Served { visits with manager := visits.manager.checkSessionTimeout }

/-- What holds whenever no request, or one request, is handled. -/
structure Guarded (visits : Visits) : Prop where
  registered : Registered visits.manager
  listed : ∀ id ref, visits.manager.resolve id = some ref → id ∈ visits.known
  included : ∀ id ∈ visits.sent, id ∈ visits.known
  current : ∀ request, visits.current = some request →
    Safe crawlerAgents visits.known visits.sent visits.manager request

theorem guarded_of_served {visits : Visits}
    (served : Served uuid crawlerAgents authenticator visits) : Guarded crawlerAgents visits := by
  induction served with
  | start now maxInactiveInterval =>
      refine ⟨SessionManager.registered_start _ _, ?_, ?_, ?_⟩
      · intro id ref found
        cases found
      · intro id member
        cases member
      · intro request same
        cases same
  | @arrive visits request _ idle human ih =>
      have listed : ∀ id ref, visits.manager.resolve id = some ref →
          id ∈ presentedId request ++ visits.known := by
        intro id ref found
        exact List.mem_append_right _ (ih.listed id ref found)
      have included : ∀ id ∈ presentedId request ++ visits.sent,
          id ∈ presentedId request ++ visits.known := by
        intro id member
        rcases List.mem_append.mp member with own | old
        · exact List.mem_append_left _ own
        · exact List.mem_append_right _ (ih.included id old)
      refine ⟨ih.registered, listed, included, ?_⟩
      intro other same
      cases same
      refine ⟨ih.registered, listed, included, human, ?_, ?_, ?_⟩
      · intro id cookie
        apply List.mem_append_left
        have present : request.cookies.find? sessionCookieName = some id := cookie
        rw [presentedId, present]
        exact List.mem_singleton.mpr rfl
      · intro cookie queued
        cases queued
      · intro ref held
        cases held
  | @call visits request call _ here fresh ih =>
      have safe := Request.perform_safe uuid crawlerAgents authenticator call (ih.current request here)
        fresh (Request.widens_registered visits.known _)
      refine ⟨safe.registered, safe.listed, safe.included, ?_⟩
      intro other same
      cases same
      exact safe
  | @finish visits request _ here ih =>
      have safe := ih.current request here
      -- the session of the request is registered, so it is given up without a trace
      have quiet : (request.takeSession [] visits.manager none).1 = visits.manager := by
        cases held : request.session with
        | none => simp only [Request.takeSession, held]
        | some ref =>
            obtain ⟨id, found, _⟩ := safe.held ref held
            rw [Request.takeSession_registered [] id held found]
      rw [quiet]
      refine ⟨ih.registered, ih.listed, ?_, ?_⟩
      · intro id member
        rcases List.mem_append.mp member with told | old
        · rw [toldId, Option.mem_toList, Option.map_eq_some_iff] at told
          obtain ⟨cookie, queued, rfl⟩ := told
          exact safe.told cookie queued
        · exact ih.included id old
      · intro other same
        cases same
  | @elapse visits time _ ih =>
      refine ⟨ih.registered, ih.listed, ih.included, ?_⟩
      intro request here
      have safe := ih.current request here
      exact ⟨safe.registered, safe.listed, safe.included, safe.human, safe.presented, safe.told,
        safe.held⟩
  | @checkSessionTimeout visits _ idle ih =>
      refine ⟨ih.registered.checkSessionTimeout, ?_, ih.included, ?_⟩
      · intro id ref found
        exact ih.listed id ref (OrderedMap.find?_filter stringLess_exact _ _ _ _ found)
      · intro request here
        cases idle.symm.trans here

theorem getSession_early {manager : SessionManager} {request : Request}
    (registered : Registered manager) (early : request.headersSent = false) :
    ∃ ref, (request.getSession uuid crawlerAgents manager).2.session = some ref := by
  cases held : request.session with
  | some ref => exact ⟨ref, by simp only [Request.getSession, held]⟩
  | none =>
      cases named : manager.named request with
      | some ref =>
          exact ⟨ref, by simp only [Request.getSession, held, SessionManager.get, named]⟩
      | none =>
          obtain ⟨id, _, made⟩ := Request.createWithCookie_early uuid crawlerAgents registered early
          refine ⟨(SessionManager.createInternal uuid crawlerAgents manager request).2, ?_⟩
          simp only [Request.getSession, held, SessionManager.get, named, made]

/-- After a login no id that was sent before the request or with it leads to its
session, which is registered under its own id only and is otherwise as it was. -/
theorem login_changes_session_id (visits : Visits)
    (served : Served uuid crawlerAgents authenticator visits) (request : Request)
    (here : visits.current = some request) (early : request.headersSent = false)
    (changes : authenticator.changeSessionIdOnAuthentication = true) (subject : Subject)
    (known : subject.isAnonymous = false) (after : Visits)
    (done : after = visits.afterCall uuid crawlerAgents authenticator request (.setSubject subject))
    (fresh : after.manager.drawn ≠ visits.manager.drawn →
      uuid visits.manager.drawn ∉ visits.known) :
    ∃ ref session, after.current.bind Request.session = some ref ∧
      after.manager.objects[ref]? = some session ∧
      (∀ id ∈ visits.sent, after.manager.resolve id ≠ some ref) ∧
      (∀ id, after.manager.resolve id = some ref ↔ id = session.id) ∧
      session.subject = some subject ∧
      (∀ old, visits.manager.objects[ref]? = some old → session.attributes = old.attributes) ∧
      (visits.manager.objects[ref]? = none → session.attributes = .empty) := by
  have safe := (guarded_of_served uuid crawlerAgents authenticator served).current request here
  obtain ⟨ref, holds⟩ := getSession_early uuid crawlerAgents safe.registered early
  let change : Session → Session := fun session => { session with subject := some subject }
  let got := request.getSession uuid crawlerAgents visits.manager
  -- the subject is stored, and then the session is renamed
  have stored : authenticator.storeSubject uuid crawlerAgents got.2 [] got.1 subject =
      SessionManager.changeId uuid crawlerAgents (got.1.modify ref change)
        ([] ++ got.2.session.toList) got.2 := by
    have first : got.2.session = some ref := holds
    simp only [Authenticator.storeSubject, first, known, changes, Bool.not_false, Bool.and_self,
      if_true, Request.changeSessionId, change]
  have manager : after.manager = (SessionManager.changeId uuid crawlerAgents
      (got.1.modify ref change) ([] ++ got.2.session.toList) got.2).1 := by
    rw [done, ← stored]
    exact Request.setSubject_manager uuid crawlerAgents authenticator request [] visits.manager subject
  have current : after.current.bind Request.session = some ref := by
    rw [done]
    exact (Request.setSubject_session uuid crawlerAgents authenticator request [] visits.manager
      subject).2.trans holds
  rw [manager] at fresh
  obtain ⟨stays, _, fixed⟩ := Request.getSession_changeId_safe uuid crawlerAgents safe ref change
    (fun _ => rfl) _ _ rfl fresh (Request.widens_registered visits.known _)
  obtain ⟨id, found, unsent⟩ := fixed ref holds
  have began : got.1.drawn ≠ visits.manager.drawn → uuid visits.manager.drawn ∉ visits.known := by
    intro differs
    rcases Request.getSession_cases uuid crawlerAgents request visits.manager with ⟨quiet, _⟩ | ⟨_, made⟩
    · exact absurd quiet differs
    · have drawn := SessionManager.createInternal_drawn uuid crawlerAgents request safe.human
        visits.manager
      rw [← made] at drawn
      have grows := SessionManager.changeId_grows uuid crawlerAgents got.2 (got.1.modify ref change)
        ([] ++ got.2.session.toList)
      exact fresh (Nat.ne_of_gt (Nat.lt_of_lt_of_le drawn grows))
  obtain ⟨before, there, attributes⟩ := Request.getSession_attributes uuid crawlerAgents safe began holds
  have changed : (got.1.modify ref change).objects[ref]? = some (change before) := by
    rw [SessionManager.modify_itself]
    exact congrArg (Option.map change) there
  obtain ⟨session, live, sameAttributes, sameSubject⟩ := Request.changeId_objects uuid crawlerAgents
    (got.1.modify ref change) ([] ++ got.2.session.toList) got.2 changed
  obtain ⟨own, lives, bears⟩ := stays.registered id ref found
  have twin : own = session := Option.some.inj (lives.symm.trans live)
  rw [twin] at bears
  refine ⟨ref, session, current, ?_, ?_, ?_, sameSubject, ?_, ?_⟩
  · rw [manager]
    exact live
  · intro other member resolved
    rw [manager] at resolved
    exact unsent (stays.registered.unique resolved found ▸ member)
  · intro other
    rw [manager]
    constructor
    · intro resolved
      exact (stays.registered.unique resolved found).trans bears.symm
    · intro same
      rw [same, bears]
      exact found
  · intro old existed
    exact sameAttributes.trans (attributes.1 old existed)
  · intro missing
    exact sameAttributes.trans (attributes.2 missing)

end Generator

section Sample

open World (sampleIds sampleCrawlers sampleAuthenticator sampleSubject sampleBrowser)

/-- A browser has got a session and comes back with its cookie to log in. -/
theorem login_changes_session_id_return :
    ∃ visits after : Visits, ∃ ref, Served sampleIds sampleCrawlers sampleAuthenticator visits ∧
      visits.sent = [sampleIds 0, sampleIds 0] ∧ visits.manager.resolve (sampleIds 0) = some ref ∧
      after.current.bind Request.session = some ref ∧
      after.manager.resolve (sampleIds 0) ≠ some ref := by
  have started : Served sampleIds sampleCrawlers sampleAuthenticator ⟨.start 0 30, [], [], none⟩ :=
    Served.start 0 30
  have came := Served.arrive (sampleBrowser none) started rfl (by decide +kernel)
  have called := Served.call _ .getSession came rfl (fun _ => by decide +kernel)
  have left := Served.finish _ called rfl
  have back := Served.arrive (sampleBrowser (some (sampleIds 0))) left rfl (by decide +kernel)
  obtain ⟨ref, session, current, _, unsent, _⟩ := login_changes_session_id sampleIds sampleCrawlers
    sampleAuthenticator _ back _ rfl rfl rfl sampleSubject rfl _ rfl (fun _ => by decide +kernel)
  have first : ref = 0 := Option.some.inj (current.symm.trans (by decide +kernel))
  subst first
  refine ⟨_, _, 0, back, ?_, ?_, current, ?_⟩
  · decide +kernel
  · decide +kernel
  · exact unsent _ (by decide +kernel)

end Sample

end Visits

end FastcgiContainer
