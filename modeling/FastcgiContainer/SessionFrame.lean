import FastcgiContainer.SessionFailures

/-! Sessions of other clients. The deleter of a session erases whatever is registered
under its id; as long as no id is given to two sessions at a time, that is nothing. -/

namespace FastcgiContainer

open Word (Bytes)

namespace SessionManager

/-- Sessions under other ids than the spared one stay, with their contents. -/
def Keeps (spared : Option Bytes) (manager next : SessionManager) : Prop :=
  ∀ id ref session, spared ≠ some id → manager.resolve id = some ref →
    manager.objects[ref]? = some session →
    next.resolve id = some ref ∧ ∃ kept, next.objects[ref]? = some kept ∧
      kept.attributes = session.attributes ∧ kept.subject = session.subject

/-- A session that is held has its own entry, or its id has none. -/
def Settled (manager : SessionManager) (held : Nat → Prop) : Prop :=
  ∀ ref session, held ref → manager.objects[ref]? = some session →
    manager.resolve session.id = some ref ∨ manager.resolve session.id = none

def Undisputed (manager : SessionManager) (held : Nat → Prop) (id : Bytes) : Prop :=
  ∀ ref session, manager.objects[ref]? = some session →
    (held ref ∨ ∃ key, manager.resolve key = some ref) → session.id ≠ id

theorem Keeps.refl (spared : Option Bytes) (manager : SessionManager) :
    Keeps spared manager manager := by
  intro id ref session _ found live
  exact ⟨found, session, live, rfl, rfl⟩

theorem Keeps.trans {spared : Option Bytes} {first second third : SessionManager}
    (left : Keeps spared first second) (right : Keeps spared second third) :
    Keeps spared first third := by
  intro id ref session other found live
  obtain ⟨again, kept, there, attributes, subject⟩ := left id ref session other found live
  obtain ⟨last, final, here, sameAttributes, sameSubject⟩ := right id ref kept other again there
  exact ⟨last, final, here, sameAttributes.trans attributes, sameSubject.trans subject⟩

theorem Keeps.same {spared : Option Bytes} {manager next : SessionManager}
    (resolves : ∀ id, next.resolve id = manager.resolve id) (objects : next.objects = manager.objects) :
    Keeps spared manager next := by
  intro id ref session _ found live
  rw [resolves, objects]
  exact ⟨found, session, live, rfl, rfl⟩

theorem Keeps.modify (spared : Option Bytes) (manager : SessionManager) (ref : Nat)
    (change : Session → Session) (attributes : ∀ session, (change session).attributes =
      session.attributes) (subject : ∀ session, (change session).subject = session.subject) :
    Keeps spared manager (manager.modify ref change) := by
  intro id other session _ found live
  refine ⟨found, ?_⟩
  rw [modify_objects, live]
  split
  · exact ⟨_, rfl, attributes session, subject session⟩
  · exact ⟨session, rfl, rfl, rfl⟩

theorem Keeps.modify_spared {manager : SessionManager} (registered : Registered manager) {ref : Nat}
    {cookie : Bytes} (found : manager.resolve cookie = some ref) (change : Session → Session) :
    Keeps (some cookie) manager (manager.modify ref change) := by
  intro id other session differs known live
  have apart : ref ≠ other := by
    rintro rfl
    exact differs (congrArg some (registered.unique found known))
  refine ⟨known, session, ?_, rfl, rfl⟩
  rw [modify_objects, if_neg apart]
  exact live

theorem Created.keeps {manager next : SessionManager} {id : Bytes} (spared : Option Bytes)
    (created : Created manager next id) (free : manager.resolve id = none) :
    Keeps spared manager next := by
  intro other ref session _ found live
  have differs : other ≠ id := by
    rintro rfl
    rw [free] at found
    cases found
  rw [created.resolves, if_neg differs]
  exact ⟨found, session, created.old live, rfl, rfl⟩

theorem Renamed.keeps {manager next : SessionManager} {cookie id : Bytes} {ref : Nat}
    (registered : Registered manager) (renamed : Renamed manager next cookie id ref)
    (known : manager.resolve cookie = some ref) (free : manager.resolve id = none) :
    Keeps (some cookie) manager next := by
  intro other current session differs found live
  have apart : ref ≠ current := by
    rintro rfl
    exact differs (congrArg some (registered.unique known found))
  have taken : other ≠ id := by
    rintro rfl
    rw [free] at found
    cases found
  have moved : other ≠ cookie := fun same => differs (congrArg some same.symm)
  rw [renamed.resolves, if_neg moved, if_neg taken, renamed.objects, modify_objects, if_neg apart]
  exact ⟨found, session, live, rfl, rfl⟩

theorem Undisputed.free {manager : SessionManager} {held : Nat → Prop} {id : Bytes}
    (registered : Registered manager) (undisputed : Undisputed manager held id) :
    manager.resolve id = none := by
  cases found : manager.resolve id with
  | none => rfl
  | some ref =>
      obtain ⟨session, live, bears⟩ := registered id ref found
      exact absurd bears (undisputed ref session live (Or.inr ⟨id, found⟩))

theorem Undisputed.modify {manager : SessionManager} {held : Nat → Prop} {id : Bytes}
    (undisputed : Undisputed manager held id) (ref : Nat) (change : Session → Session)
    (keeps : ∀ session, (change session).id = session.id) :
    Undisputed (manager.modify ref change) held id := by
  intro other session live member
  rw [modify_objects] at live
  split at live
  · obtain ⟨old, before, rfl⟩ := Option.map_eq_some_iff.mp live
    rw [keeps old]
    exact undisputed other old before member
  · exact undisputed other session live member

theorem Settled.fewer {manager : SessionManager} {held fewer : Nat → Prop}
    (settled : Settled manager held) (inside : ∀ ref, fewer ref → held ref) :
    Settled manager fewer := by
  intro ref session member live
  exact settled ref session (inside ref member) live

theorem Settled.more {manager : SessionManager} {held more : Nat → Prop}
    (settled : Settled manager held) (registered : Registered manager)
    (inside : ∀ ref, more ref → held ref ∨ ∃ id, manager.resolve id = some ref) :
    Settled manager more := by
  intro ref session member live
  rcases inside ref member with old | ⟨id, found⟩
  · exact settled ref session old live
  · obtain ⟨other, there, bears⟩ := registered id ref found
    rw [live] at there
    cases there
    rw [bears]
    exact Or.inl found

theorem Settled.modify {manager : SessionManager} {held : Nat → Prop}
    (settled : Settled manager held) (ref : Nat) (change : Session → Session)
    (keeps : ∀ session, (change session).id = session.id) :
    Settled (manager.modify ref change) held := by
  intro other session member live
  rw [modify_objects] at live
  split at live
  · obtain ⟨old, before, rfl⟩ := Option.map_eq_some_iff.mp live
    rw [keeps old]
    exact settled other old member before
  · exact settled other session member live

theorem Settled.checkSessionTimeout {manager : SessionManager} {held : Nat → Prop}
    (settled : Settled manager held) : Settled manager.checkSessionTimeout held := by
  intro ref session member live
  cases found : manager.checkSessionTimeout.resolve session.id with
  | none => exact Or.inr rfl
  | some other =>
      have before : manager.resolve session.id = some other :=
        OrderedMap.find?_filter stringLess_exact _ _ _ _ found
      rcases settled ref session member live with same | none
      · exact Or.inl (before.symm.trans same)
      · cases none.symm.trans before

theorem Created.settled {manager next : SessionManager} {held : Nat → Prop} {id : Bytes}
    (created : Created manager next id) (settled : Settled manager held)
    (undisputed : Undisputed manager held id) :
    Settled next (fun ref => held ref ∨ ref = manager.objects.length) := by
  intro ref session member live
  rw [created.resolves]
  by_cases new : ref = manager.objects.length
  · obtain ⟨made, there, bears, _⟩ := created.new
    rw [new, there] at live
    cases live
    rw [if_pos bears, new]
    exact Or.inl rfl
  · have holds : held ref := member.resolve_right new
    obtain ⟨made, objects, _⟩ := created.objects
    have inside : ref < manager.objects.length := by
      have size := (List.getElem?_eq_some_iff.mp live).1
      rw [objects, List.length_append, List.length_singleton] at size
      exact Nat.lt_of_le_of_ne (Nat.le_of_lt_succ size) new
    rw [objects, List.getElem?_append_left inside] at live
    rw [if_neg (undisputed ref session live (Or.inl holds))]
    exact settled ref session holds live

theorem Renamed.settled {manager next : SessionManager} {held : Nat → Prop} {cookie id : Bytes}
    {ref : Nat} (renamed : Renamed manager next cookie id ref) (settled : Settled manager held)
    (undisputed : Undisputed manager held id) : Settled next held := by
  intro other session member live
  rw [renamed.objects, modify_objects] at live
  rw [renamed.resolves]
  split at live
  · next same =>
      obtain ⟨old, _, rfl⟩ := Option.map_eq_some_iff.mp live
      by_cases back : id = cookie
      · exact Or.inr (if_pos back)
      · rw [if_neg back, if_pos rfl, same]
        exact Or.inl rfl
  · by_cases moved : session.id = cookie
    · exact Or.inr (if_pos moved)
    · rw [if_neg moved, if_neg (undisputed other session live (Or.inl member))]
      exact settled other session member live

theorem release_same {manager : SessionManager} {kept : Nat → Prop} (settled : Settled manager kept)
    {ref : Nat} (member : kept ref) (held : List Nat) :
    (∀ id, (manager.release held ref).resolve id = manager.resolve id) ∧
      (manager.release held ref).objects = manager.objects := by
  unfold release
  split
  · exact ⟨fun _ => rfl, rfl⟩
  · next loose =>
      split
      · exact ⟨fun _ => rfl, rfl⟩
      · next session live =>
          refine ⟨?_, rfl⟩
          intro id
          have orphan : manager.resolve session.id = none := by
            rcases settled ref session member live with own | none
            · have present : manager.sessions.entries.any (fun entry => entry.2 == ref) = true := by
                rw [List.any_eq_true]
                exact ⟨(session.id, ref),
                  (OrderedMap.find?_eq_some stringLess_exact _ _ _).mp own, by simp⟩
              rw [present, Bool.or_true] at loose
              exact absurd rfl loose
            · exact none
          simp only [resolve, find?_erase]
          split
          · next same =>
              rw [← same]
              exact orphan.symm
          · rfl

theorem Settled.same {manager next : SessionManager} {held : Nat → Prop}
    (settled : Settled manager held) (resolves : ∀ id, next.resolve id = manager.resolve id)
    (objects : next.objects = manager.objects) : Settled next held := by
  intro ref session member live
  rw [objects] at live
  rw [resolves]
  exact settled ref session member live

section Generator

variable (uuid : Nat → Bytes) (crawlerAgents : Bytes → Bool) (request : Request)

def FreshCreate (manager : SessionManager) (held : Nat → Prop) : Prop :=
  SharesSession uuid crawlerAgents request manager ∨
    Undisputed manager held (newId uuid crawlerAgents request manager)

def FreshChange (manager : SessionManager) (held : Nat → Prop) : Prop :=
  manager.named request ≠ none → Undisputed manager held (newId uuid crawlerAgents request manager)

theorem FreshCreate.modify {manager : SessionManager} {held : Nat → Prop}
    (fresh : FreshCreate uuid crawlerAgents request manager held) (ref : Nat)
    (change : Session → Session) (keeps : ∀ session, (change session).id = session.id) :
    FreshCreate uuid crawlerAgents request (manager.modify ref change) held := by
  rcases fresh with shares | undisputed
  · refine Or.inl ⟨?_, shares.2⟩
    rw [newId_modify]
    exact shares.1
  · refine Or.inr ?_
    rw [newId_modify]
    exact undisputed.modify ref change keeps

theorem FreshChange.modify {manager : SessionManager} {held : Nat → Prop}
    (fresh : FreshChange uuid crawlerAgents request manager held) (ref : Nat)
    (change : Session → Session) (keeps : ∀ session, (change session).id = session.id) :
    FreshChange uuid crawlerAgents request (manager.modify ref change) held := by
  intro named
  rw [newId_modify]
  exact (fresh named).modify ref change keeps

theorem createInternal_isolated {manager : SessionManager} {held : Nat → Prop}
    (spared : Option Bytes) (registered : Registered manager) (settled : Settled manager held)
    (fresh : FreshCreate uuid crawlerAgents request manager held) :
    Settled (createInternal uuid crawlerAgents manager request).1
        (fun ref => held ref ∨ ref = (createInternal uuid crawlerAgents manager request).2) ∧
      Keeps spared manager (createInternal uuid crawlerAgents manager request).1 := by
  rcases fresh with shares | undisputed
  · obtain ⟨ref, known, shared⟩ := createInternal_known uuid crawlerAgents request shares
    have same := resolve_getNewId uuid crawlerAgents request manager
    have objects := objects_getNewId uuid crawlerAgents request manager
    rw [shared]
    constructor
    · have wider : Settled manager (fun other => held other ∨ other = ref) := by
        apply settled.more registered
        rintro other (old | new)
        · exact Or.inl old
        · exact Or.inr ⟨crawlerAgentSessionId, new ▸ known⟩
      exact (wider.same same objects).modify ref _ (fun _ => rfl)
    · exact (Keeps.same same objects).trans
        (Keeps.modify spared _ ref _ (fun _ => rfl) (fun _ => rfl))
  · have free := undisputed.free registered
    obtain ⟨ref, created⟩ := createInternal_free uuid crawlerAgents request free
    rw [ref]
    exact ⟨created.settled settled undisputed, created.keeps spared free⟩

theorem changeId_isolated {manager : SessionManager} {held : Nat → Prop} (references : List Nat)
    (registered : Registered manager) (settled : Settled manager held)
    (fresh : FreshChange uuid crawlerAgents request manager held) :
    Settled (changeId uuid crawlerAgents manager references request).1 held ∧
      Keeps (request.cookies.find? sessionCookieName) manager
        (changeId uuid crawlerAgents manager references request).1 := by
  cases named : manager.named request with
  | none =>
      have idle : changeId uuid crawlerAgents manager references request = (manager, .ok request) := by
        simp only [changeId, named]
      rw [idle]
      exact ⟨settled, Keeps.refl _ manager⟩
  | some ref =>
      have undisputed := fresh (by rw [named]; exact Option.some_ne_none ref)
      have free := undisputed.free registered
      obtain ⟨present, known⟩ := named_eq named
      have renamed := (changeId_free uuid crawlerAgents request references named free).1
      refine ⟨renamed.settled settled undisputed, ?_⟩
      obtain ⟨id, cookie⟩ := Option.isSome_iff_exists.mp present
      have own : request.getCookie sessionCookieName = id := by rw [Request.getCookie, cookie]; rfl
      rw [cookie, ← own]
      exact renamed.keeps registered known free

end Generator

end SessionManager

namespace Request

open SessionManager (Registered Settled Keeps FreshCreate FreshChange sessionCookieName)

def Holds (others : List Nat) (request : Request) (ref : Nat) : Prop :=
  ref ∈ others ∨ request.session = some ref

section Generator

variable (uuid : Nat → Bytes) (crawlerAgents : Bytes → Bool) (authenticator : Authenticator)
  (others : List Nat)

def FreshGet (manager : SessionManager) (request : Request) : Prop :=
  request.session = none → manager.named request = none →
    FreshCreate uuid crawlerAgents request manager (Holds others request)

def FreshCall (manager : SessionManager) (request : Request) : Call → Prop
  | .getSession => FreshGet uuid crawlerAgents others manager request
  | .createSession => FreshCreate uuid crawlerAgents request manager (Holds others request)
  | .changeSessionId => FreshChange uuid crawlerAgents request manager (Holds others request)
  | .isAuthenticated => FreshGet uuid crawlerAgents others manager request
  | .setSubject _ =>
      FreshGet uuid crawlerAgents others manager request ∧
        FreshChange uuid crawlerAgents (request.getSession uuid crawlerAgents manager).2
          (request.getSession uuid crawlerAgents manager).1
          (Holds others (request.getSession uuid crawlerAgents manager).2)
  | _ => True

theorem getSession_isolated {manager : SessionManager} {request : Request}
    (registered : Registered manager) (settled : Settled manager (Holds others request))
    (fresh : FreshGet uuid crawlerAgents others manager request) :
    Settled (request.getSession uuid crawlerAgents manager).1
        (Holds others (request.getSession uuid crawlerAgents manager).2) ∧
      Keeps (request.cookies.find? sessionCookieName) manager
        (request.getSession uuid crawlerAgents manager).1 := by
  cases held : request.session with
  | some ref =>
      rw [getSession_held uuid crawlerAgents held]
      exact ⟨settled, Keeps.refl _ manager⟩
  | none =>
      cases named : manager.named request with
      | some ref =>
          rw [getSession_named uuid crawlerAgents held named]
          have wider : Settled manager (Holds others { request with session := some ref }) := by
            apply settled.more registered
            rintro other (old | new)
            · exact Or.inl (Or.inl old)
            · cases new
              exact Or.inr ⟨_, (SessionManager.named_eq named).2⟩
          exact ⟨wider.modify ref _ (fun _ => rfl),
            Keeps.modify _ manager ref _ (fun _ => rfl) (fun _ => rfl)⟩
      | none =>
          obtain ⟨made, keeps⟩ := SessionManager.createInternal_isolated uuid crawlerAgents request
            (request.cookies.find? sessionCookieName) registered settled (fresh held named)
          unfold getSession
          simp only [held, SessionManager.get, named]
          split
          · next after ref next done =>
              have created := (createWithCookie_request uuid crawlerAgents done).1
              rw [created] at made keeps
              refine ⟨made.fewer ?_, keeps⟩
              rintro other (old | new)
              · exact Or.inl (Or.inl old)
              · cases new
                exact Or.inr rfl
          · next after exn done =>
              obtain ⟨rfl, _⟩ := Prod.mk.inj done
              exact ⟨made.fewer (fun other member => Or.inl member), keeps⟩

theorem takeSession_isolated {manager : SessionManager} (request : Request) {kept : Nat → Prop}
    (settled : Settled manager kept) (inside : ∀ ref, Holds others request ref → kept ref)
    (next : Option Nat) (spared : Option Bytes) (present : ∀ ref, next = some ref → kept ref) :
    Settled (request.takeSession others manager next).1
        (Holds others (request.takeSession others manager next).2) ∧
      Keeps spared manager (request.takeSession others manager next).1 := by
  have holds : ∀ ref, Holds others { request with session := next } ref → kept ref := by
    rintro ref (old | new)
    · exact inside ref (Or.inl old)
    · exact present ref new
  unfold takeSession
  split
  · exact ⟨settled.fewer holds, Keeps.refl _ manager⟩
  · next old held =>
      obtain ⟨resolves, objects⟩ := SessionManager.release_same settled (inside old (Or.inr held))
        (others ++ next.toList)
      exact ⟨(settled.fewer holds).same resolves objects, Keeps.same resolves objects⟩

theorem createSession_isolated {manager : SessionManager} {request : Request}
    (registered : Registered manager) (settled : Settled manager (Holds others request))
    (fresh : FreshCreate uuid crawlerAgents request manager (Holds others request)) :
    Settled (request.createSession uuid crawlerAgents others manager).1
        (Holds others (request.createSession uuid crawlerAgents others manager).2) ∧
      Keeps (request.cookies.find? sessionCookieName) manager
        (request.createSession uuid crawlerAgents others manager).1 := by
  have steady : Settled (manager.ended request) (Holds others request) :=
    SessionManager.ended_keeps (fun next => Settled next (Holds others request)) settled
      (fun ref _ => settled.modify ref _ (fun _ => rfl))
  have new : FreshCreate uuid crawlerAgents request (manager.ended request) (Holds others request) := by
    apply SessionManager.ended_keeps
      (fun next => FreshCreate uuid crawlerAgents request next (Holds others request)) fresh
    intro ref _
    exact fresh.modify uuid crawlerAgents request ref _ (fun _ => rfl)
  have spares : Keeps (request.cookies.find? sessionCookieName) manager (manager.ended request) := by
    apply SessionManager.ended_keeps
      (fun next => Keeps (request.cookies.find? sessionCookieName) manager next) (Keeps.refl _ manager)
    intro ref named
    obtain ⟨present, known⟩ := SessionManager.named_eq named
    obtain ⟨id, cookie⟩ := Option.isSome_iff_exists.mp present
    rw [getCookie, cookie] at known
    rw [cookie]
    exact Keeps.modify_spared registered known _
  obtain ⟨made, keeps⟩ := SessionManager.createInternal_isolated uuid crawlerAgents request
    (request.cookies.find? sessionCookieName) (registered.ended request) steady new
  unfold createSession
  rw [SessionManager.create_eq]
  split
  · next after ref next done =>
      obtain ⟨internal, _, session, _⟩ := createWithCookie_request uuid crawlerAgents done
      rw [internal] at made keeps
      have taken := takeSession_isolated others next made (by
        rintro other (old | held)
        · exact Or.inl (Or.inl old)
        · exact Or.inl (Or.inr (session.symm.trans held))) (some ref)
        (request.cookies.find? sessionCookieName) (fun other same => Or.inr (Option.some.inj same).symm)
      exact ⟨taken.1, (spares.trans keeps).trans taken.2⟩
  · next after exn done =>
      obtain ⟨rfl, _⟩ := Prod.mk.inj done
      have taken := takeSession_isolated others request made (fun other member => Or.inl member) none
        (request.cookies.find? sessionCookieName) (fun other same => by cases same)
      exact ⟨taken.1, (spares.trans keeps).trans taken.2⟩

theorem changeSession_settled {manager : SessionManager} {request : Request} {held : Nat → Prop}
    (settled : Settled manager held) (change : Session → Session)
    (keeps : ∀ session, (change session).id = session.id) :
    Settled (request.changeSession manager change) held := by
  unfold changeSession
  split
  · exact settled
  · exact settled.modify _ change keeps

theorem storeSubject_settled {manager : SessionManager} {request : Request} {held : Nat → Prop}
    (registered : Registered manager) (settled : Settled manager held)
    (fresh : FreshChange uuid crawlerAgents request manager held) (subject : Subject) :
    Settled (authenticator.storeSubject uuid crawlerAgents request others manager subject).1 held := by
  unfold Authenticator.storeSubject
  split
  · exact settled
  · next ref _ =>
      simp only
      split
      · apply And.left (SessionManager.changeId_isolated uuid crawlerAgents request _ _ _ _)
        · exact registered.modify ref _ (fun _ => rfl)
        · exact settled.modify ref _ (fun _ => rfl)
        · exact fresh.modify uuid crawlerAgents request ref _ (fun _ => rfl)
      · exact settled.modify ref _ (fun _ => rfl)

theorem perform_settled {manager : SessionManager} {request : Request} (call : Call)
    (registered : Registered manager) (settled : Settled manager (Holds others request))
    (fresh : FreshCall uuid crawlerAgents others manager request call) :
    Settled (request.perform uuid crawlerAgents authenticator others manager call).1
      (Holds others (request.perform uuid crawlerAgents authenticator others manager call).2) := by
  have moved : ∀ {next : Request}, next.session = request.session →
      ∀ {after : SessionManager}, Settled after (Holds others request) →
        Settled after (Holds others next) := by
    intro next session after settled
    apply settled.fewer
    intro ref member
    exact member.imp_right (fun held => session.symm.trans held)
  cases call with
  | getSession => exact (getSession_isolated uuid crawlerAgents others registered settled fresh).1
  | createSession => exact (createSession_isolated uuid crawlerAgents others registered settled fresh).1
  | changeSessionId =>
      have changed := (SessionManager.changeId_isolated uuid crawlerAgents request
        (others ++ request.session.toList) registered settled fresh).1
      simp only [perform, changeSessionId]
      split
      · next after next done =>
          rw [done] at changed
          exact moved (changeId_kept uuid crawlerAgents done).2.1 changed
      · next done =>
          rw [done] at changed
          exact changed
  | isAuthenticated =>
      obtain ⟨got, _⟩ := getSession_isolated uuid crawlerAgents others registered settled fresh
      rcases isAuthenticated_cases uuid crawlerAgents request manager with
        ⟨_, same⟩ | ⟨_, after, _, session, _⟩
      · simp only [perform, same]
        exact settled
      · simp only [perform, after]
        apply got.fewer
        intro ref member
        exact member.imp_right (fun held => session.symm.trans held)
  | setSubject subject =>
      obtain ⟨got, _⟩ := getSession_isolated uuid crawlerAgents others registered settled fresh.1
      have valid := registered_getSession uuid crawlerAgents request registered
      have stored := storeSubject_settled uuid crawlerAgents authenticator others valid got fresh.2
        subject
      have session := (setSubject_session uuid crawlerAgents authenticator request others manager
        subject).2
      simp only [perform, setSubject_manager]
      apply stored.fewer
      intro ref member
      exact member.imp_right (fun held => session.symm.trans held)
  | setRequestSubject subject =>
      simp only [perform]
      split
      · next next done => exact moved (setSubject_kept done).2.1 settled
      · exact settled
  | setAttribute name value => exact changeSession_settled settled _ (fun _ => rfl)
  | removeAttribute name => exact changeSession_settled settled _ (fun _ => rfl)
  | invalidateSession => exact changeSession_settled settled _ (fun _ => rfl)
  | sendHeaders => exact settled

end Generator

end Request

namespace World

open SessionManager (Registered Settled Keeps sessionCookieName)
open Request (Holds FreshCall)

def Held (world : World) (ref : Nat) : Prop :=
  ∃ (index : Nat) (request : Request), world.requests[index]? = some request ∧
    request.session = some ref

theorem holds_iff {world : World} {index : Nat} {request : Request}
    (arrived : world.requests[index]? = some request) (ref : Nat) :
    Holds (world.others index) request ref ↔ world.Held ref := by
  simp only [Holds, others, List.mem_filterMap, List.mem_eraseIdx_iff_getElem?]
  constructor
  · rintro (⟨other, ⟨place, _, there⟩, held⟩ | held)
    · exact ⟨place, other, there, held⟩
    · exact ⟨index, request, arrived, held⟩
  · rintro ⟨place, other, there, held⟩
    by_cases same : place = index
    · subst same
      rw [arrived] at there
      cases there
      exact Or.inr held
    · exact Or.inl ⟨other, ⟨place, same, there⟩, held⟩

theorem held_update {world : World} {index : Nat} {result : SessionManager × Request} {ref : Nat}
    (held : (world.update index result).Held ref) : Holds (world.others index) result.2 ref := by
  obtain ⟨place, other, there, holds⟩ := held
  simp only [update, List.getElem?_set] at there
  split at there
  · split at there
    · cases there
      exact Or.inr holds
    · cases there
  · next differs =>
      refine Or.inl ?_
      simp only [others, List.mem_filterMap, List.mem_eraseIdx_iff_getElem?]
      exact ⟨other, ⟨place, fun same => differs same.symm, there⟩, holds⟩

section Generator

variable (uuid : Nat → Bytes) (crawlerAgents : Bytes → Bool) (authenticator : Authenticator)

def FreshAction (world : World) : Action → Prop
  | .call index call => ∀ request, world.requests[index]? = some request →
      FreshCall uuid crawlerAgents (world.others index) world.manager request call
  | _ => True

/-- A run in which every id that is given to a session is new at that moment. -/
def FreshLater (world next : World) : Prop :=
  Relation.ReflTransGen (fun world next => ∃ action,
    FreshAction uuid crawlerAgents world action ∧
      next = step uuid crawlerAgents authenticator world action) world next

theorem settled_step {world : World} (registered : Registered world.manager)
    (settled : Settled world.manager world.Held) (action : Action)
    (fresh : FreshAction uuid crawlerAgents world action) :
    Registered (world.step uuid crawlerAgents authenticator action).manager ∧
      Settled (world.step uuid crawlerAgents authenticator action).manager
        (world.step uuid crawlerAgents authenticator action).Held := by
  have around : ∀ {index : Nat} {request : Request}, world.requests[index]? = some request →
      Settled world.manager (Holds (world.others index) request) := by
    intro index request arrived
    exact settled.fewer (fun ref => (holds_iff arrived ref).mp)
  cases action with
  | arrive request =>
      refine ⟨registered, settled.fewer ?_⟩
      rintro ref ⟨index, other, arrived, held⟩
      simp only [World.step, List.getElem?_append] at arrived
      split at arrived
      · exact ⟨index, other, arrived, held⟩
      · rw [List.getElem?_singleton] at arrived
        split at arrived
        · cases arrived
          cases held
        · cases arrived
  | call index call =>
      simp only [World.step]
      split
      · exact ⟨registered, settled⟩
      · next request arrived =>
          refine ⟨Request.registered_perform uuid crawlerAgents authenticator request _ registered call,
            ?_⟩
          exact (Request.perform_settled uuid crawlerAgents authenticator (world.others index) call
            registered (around arrived) (fresh request arrived)).fewer (fun ref => held_update)
  | finish index =>
      simp only [World.step]
      split
      · exact ⟨registered, settled⟩
      · next request arrived =>
          refine ⟨Request.registered_takeSession request _ registered none, ?_⟩
          have taken := (Request.takeSession_isolated (world.others index) request (around arrived)
            (fun ref member => member) none none (fun ref same => by cases same)).1
          exact taken.fewer (fun ref => held_update)
  | elapse time => exact ⟨registered, settled⟩
  | checkSessionTimeout => exact ⟨registered.checkSessionTimeout, settled.checkSessionTimeout⟩

theorem settled_of_fresh {now maxInactiveInterval : Int} {world : World}
    (reached : FreshLater uuid crawlerAgents authenticator (start now maxInactiveInterval) world) :
    Registered world.manager ∧ Settled world.manager world.Held := by
  induction reached with
  | refl =>
      refine ⟨SessionManager.registered_start _ _, ?_⟩
      rintro ref session ⟨index, request, arrived, _⟩
      cases arrived
  | tail _ moved ih =>
      obtain ⟨action, fresh, rfl⟩ := moved
      exact settled_step uuid crawlerAgents authenticator ih.1 ih.2 action fresh

/-- The actions of a request by which sessions are looked up, made, renamed and
given up. -/
def sessionActions (index : Nat) : List Action :=
  [.call index .getSession, .call index .createSession, .call index .changeSessionId, .finish index]

/-- In a run in which ids are new, a request leaves the sessions of all others alone. -/
theorem request_keeps_other_sessions (now maxInactiveInterval : Int) (world : World)
    (reached : FreshLater uuid crawlerAgents authenticator (start now maxInactiveInterval) world)
    (index : Nat) (request : Request) (arrived : world.requests[index]? = some request)
    (action : Action) (own : action ∈ sessionActions index)
    (fresh : FreshAction uuid crawlerAgents world action) :
    Keeps (request.cookies.find? sessionCookieName) world.manager
      (world.step uuid crawlerAgents authenticator action).manager := by
  obtain ⟨registered, settled⟩ := settled_of_fresh uuid crawlerAgents authenticator reached
  have around : Settled world.manager (Holds (world.others index) request) :=
    settled.fewer (fun ref => (holds_iff arrived ref).mp)
  simp only [sessionActions, List.mem_cons, List.not_mem_nil, or_false] at own
  rcases own with rfl | rfl | rfl | rfl
  · simp only [World.step, arrived]
    exact (Request.getSession_isolated uuid crawlerAgents _ registered around
      (fresh request arrived)).2
  · simp only [World.step, arrived]
    exact (Request.createSession_isolated uuid crawlerAgents _ registered around
      (fresh request arrived)).2
  · simp only [World.step, arrived, update, Request.perform, Request.changeSessionId]
    have changed := (SessionManager.changeId_isolated uuid crawlerAgents request
      (world.others index ++ request.session.toList) registered around (fresh request arrived)).2
    split
    · next done =>
        rw [done] at changed
        exact changed
    · next done =>
        rw [done] at changed
        exact changed
  · simp only [World.step, arrived]
    exact (Request.takeSession_isolated (world.others index) request around
      (fun ref member => member) none _ (fun ref same => by cases same)).2

end Generator

section Sample

def sampleVisits (uuid : Nat → Bytes) : World :=
  [.arrive (sampleBrowser none), .call 0 .getSession, .finish 0, .arrive (sampleBrowser none)].foldl
    (step uuid sampleCrawlers sampleAuthenticator) (start 0 30)

/-- An id that is drawn twice costs its first owner the session. -/
theorem repeated_id_destroys_session :
    Later (fun _ => sampleIds 0) sampleCrawlers sampleAuthenticator (start 0 30)
        (sampleVisits (fun _ => sampleIds 0)) ∧
      ((sampleVisits (fun _ => sampleIds 0)).requests[1]?).map (fun request =>
        (SessionManager.isBot sampleCrawlers request, request.hasCookie sessionCookieName)) =
          some (false, false) ∧
      (sampleVisits (fun _ => sampleIds 0)).manager.resolve (sampleIds 0) = some 0 ∧
      ((sampleVisits (fun _ => sampleIds 0)).step (fun _ => sampleIds 0) sampleCrawlers
        sampleAuthenticator (.call 1 .getSession)).manager.resolve (sampleIds 0) ≠ some 0 := by
  refine ⟨later_run _ _ _ _ _, ?_, ?_, ?_⟩
  · decide +kernel
  · decide +kernel
  · decide +kernel

theorem undisputed_of_all {manager : SessionManager} {held : Nat → Prop} {id : Bytes}
    (differ : ∀ session ∈ manager.objects, session.id ≠ id) :
    SessionManager.Undisputed manager held id :=
  fun _ session live _ => differ session (List.mem_of_getElem? live)

theorem request_keeps_other_sessions_visits :
    Keeps none (sampleVisits sampleIds).manager
      ((sampleVisits sampleIds).step sampleIds sampleCrawlers sampleAuthenticator
        (.call 1 .getSession)).manager := by
  have visit : ∀ world : World, ∀ index request,
      world.requests[index]? = some request →
      (∀ session ∈ world.manager.objects,
        session.id ≠ SessionManager.newId sampleIds sampleCrawlers request world.manager) →
      FreshAction sampleIds sampleCrawlers world (.call index .getSession) := by
    intro world index request arrived differ other there
    rw [arrived] at there
    cases there
    exact fun _ _ => Or.inr (undisputed_of_all differ)
  have first := visit ((start 0 30).step sampleIds sampleCrawlers sampleAuthenticator
    (.arrive (sampleBrowser none))) 0 _ rfl (by decide +kernel)
  have second := visit (sampleVisits sampleIds) 1 (sampleBrowser none) rfl (by decide +kernel)
  have reached : FreshLater sampleIds sampleCrawlers sampleAuthenticator (start 0 30)
      (sampleVisits sampleIds) := by
    apply Relation.ReflTransGen.tail _ ⟨.arrive (sampleBrowser none), trivial, rfl⟩
    apply Relation.ReflTransGen.tail _ ⟨.finish 0, trivial, rfl⟩
    apply Relation.ReflTransGen.tail _ ⟨.call 0 .getSession, first, rfl⟩
    exact Relation.ReflTransGen.single ⟨.arrive (sampleBrowser none), trivial, rfl⟩
  exact request_keeps_other_sessions sampleIds sampleCrawlers sampleAuthenticator 0 30
    (sampleVisits sampleIds) reached 1 (sampleBrowser none) rfl (.call 1 .getSession)
    (by simp [sessionActions]) second

end Sample

end World

end FastcgiContainer
