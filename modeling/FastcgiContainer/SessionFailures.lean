import FastcgiContainer.SessionEffects
import FastcgiContainer.SessionOwnership

/-! Session operations of a request whose headers were sent. The registry is changed
before the cookie is refused, so a failure leaves its mark on it. -/

namespace FastcgiContainer

open Word (Bytes)

namespace SessionManager

def Unchanged (manager next : SessionManager) : Prop := ∀ id, next.resolve id = manager.resolve id

/-- The operation has ended with the exception of `Request::setCookie`. -/
def Refused {α : Type} (outcome : Except Exn α) : Prop :=
  ∃ cookie, outcome = .error (Request.cookieRefused cookie)

section Generator

variable (uuid : Nat → Bytes) (crawlerAgents : Bytes → Bool) (request : Request)

/-- The request gets the session of the crawlers, which is there. -/
def SharesSession (manager : SessionManager) : Prop :=
  newId uuid crawlerAgents request manager = crawlerAgentSessionId ∧
    (manager.resolve crawlerAgentSessionId).isSome = true

theorem createInternal_known {manager : SessionManager}
    (shares : SharesSession uuid crawlerAgents request manager) :
    ∃ ref, manager.resolve crawlerAgentSessionId = some ref ∧
      createInternal uuid crawlerAgents manager request =
        ((getNewId uuid crawlerAgents manager request).1.modify ref (fun session =>
          { session with lastAccessed := (getNewId uuid crawlerAgents manager request).1.now }),
          ref) := by
  obtain ⟨fixed, present⟩ := shares
  obtain ⟨ref, known⟩ := Option.isSome_iff_exists.mp present
  refine ⟨ref, known, ?_⟩
  have same := resolve_getNewId uuid crawlerAgents request manager
  unfold newId at fixed
  unfold createInternal
  simp only [fixed, ne_eq, not_true_eq_false, if_false, same, known]

theorem createInternal_shares {manager : SessionManager}
    (shares : SharesSession uuid crawlerAgents request manager) :
    Unchanged manager (createInternal uuid crawlerAgents manager request).1 := by
  obtain ⟨ref, _, shared⟩ := createInternal_known uuid crawlerAgents request shares
  intro id
  rw [shared, resolve_modify, resolve_getNewId]

theorem unshared_free {manager : SessionManager}
    (alone : ¬ SharesSession uuid crawlerAgents request manager)
    (fixed : newId uuid crawlerAgents request manager = crawlerAgentSessionId) :
    manager.resolve (newId uuid crawlerAgents request manager) = none := by
  rw [fixed]
  cases known : manager.resolve crawlerAgentSessionId with
  | none => rfl
  | some ref => exact absurd ⟨fixed, by rw [known]; rfl⟩ alone

theorem createInternal_empty {manager : SessionManager}
    (alone : ¬ SharesSession uuid crawlerAgents request manager) :
    ∃ session, (createInternal uuid crawlerAgents manager request).1.objects[
        (createInternal uuid crawlerAgents manager request).2]? = some session ∧
      session.attributes = .empty ∧ session.subject = none := by
  by_cases fixed : newId uuid crawlerAgents request manager = crawlerAgentSessionId
  · obtain ⟨ref, created⟩ := createInternal_free uuid crawlerAgents request
      (unshared_free uuid crawlerAgents request alone fixed)
    obtain ⟨session, live, _, empty⟩ := created.new
    rw [ref]
    exact ⟨session, live, empty⟩
  · unfold newId at fixed
    obtain ⟨other, object⟩ := insertNew_object uuid crawlerAgents request
      (getNewId uuid crawlerAgents manager request).1.sessions.entries.length
      (getNewId uuid crawlerAgents manager request).1 (getNewId uuid crawlerAgents manager request).2
    unfold createInternal
    simp only
    rw [if_pos (Ne.symm fixed), modify_itself, object]
    exact ⟨_, rfl, rfl, rfl⟩

theorem createInternal_new {manager : SessionManager} (registered : Registered manager)
    (alone : ¬ SharesSession uuid crawlerAgents request manager) :
    manager.objects.length ≤ (createInternal uuid crawlerAgents manager request).2 := by
  by_cases fixed : newId uuid crawlerAgents request manager = crawlerAgentSessionId
  · have free := unshared_free uuid crawlerAgents request alone fixed
    exact (createInternal_free uuid crawlerAgents request free).1.ge
  · have drawn := registered.getNewId uuid crawlerAgents request
    have made := insertNew_makes uuid crawlerAgents request
      (SessionManager.getNewId uuid crawlerAgents manager request).1.sessions.entries.length _
      (SessionManager.getNewId uuid crawlerAgents manager request).2 drawn
    have size := made.new
    rw [objects_getNewId] at size
    unfold newId at fixed
    unfold createInternal
    simp only
    rw [if_pos (Ne.symm fixed)]
    exact size

theorem createInternal_unchanged {manager : SessionManager} (registered : Registered manager) :
    Unchanged manager (createInternal uuid crawlerAgents manager request).1 ↔
      SharesSession uuid crawlerAgents request manager := by
  constructor
  · intro unchanged
    by_contra alone
    have new := createInternal_new uuid crawlerAgents request registered alone
    obtain ⟨session, _, found⟩ := createInternal_registered uuid crawlerAgents request registered
    rw [unchanged] at found
    obtain ⟨old, live, _⟩ := registered _ _ found
    have inside := (List.getElem?_eq_some_iff.mp live).1
    exact absurd inside (Nat.not_lt.mpr new)
  · exact createInternal_shares uuid crawlerAgents request

theorem createWithCookie_refused (manager : SessionManager) :
    Refused (createWithCookie uuid crawlerAgents manager request).2 ↔
      request.headersSent = true := by
  unfold createWithCookie
  simp only [Request.setCookie]
  cases sent : request.headersSent with
  | false =>
      simp only [Bool.false_eq_true, if_false, iff_false]
      rintro ⟨cookie, refused⟩
      cases refused
  | true =>
      simp only [if_true, iff_true]
      exact ⟨_, rfl⟩

theorem createWithCookie_unchanged {manager : SessionManager} (registered : Registered manager) :
    (Refused (createWithCookie uuid crawlerAgents manager request).2 →
      Unchanged manager (createWithCookie uuid crawlerAgents manager request).1) ↔
    (request.headersSent = false ∨ SharesSession uuid crawlerAgents request manager) := by
  rw [createWithCookie_refused, ← createInternal_unchanged uuid crawlerAgents request registered,
    ← Bool.not_eq_true, Decidable.imp_iff_not_or]
  rfl

theorem get_unchanged {manager : SessionManager} (registered : Registered manager) :
    (Refused (get uuid crawlerAgents manager request).2 →
      Unchanged manager (get uuid crawlerAgents manager request).1) ↔
    (request.headersSent = false ∨ manager.named request ≠ none ∨
      SharesSession uuid crawlerAgents request manager) := by
  unfold get
  cases named : manager.named request with
  | some ref =>
      simp only [ne_eq, reduceCtorEq, not_false_eq_true, true_or, or_true, iff_true]
      rintro ⟨cookie, refused⟩
      cases refused
  | none =>
      simp only [ne_eq, not_true_eq_false, false_or]
      exact createWithCookie_unchanged uuid crawlerAgents request registered

theorem create_unchanged {manager : SessionManager} (registered : Registered manager) :
    (Refused (create uuid crawlerAgents manager request).2 →
      Unchanged manager (create uuid crawlerAgents manager request).1) ↔
    (request.headersSent = false ∨ SharesSession uuid crawlerAgents request manager) := by
  rw [create_eq]
  have made := createWithCookie_unchanged uuid crawlerAgents request (registered.ended request)
  simp only [SharesSession, Unchanged, newId_ended, resolve_ended] at made
  exact made

theorem moveEntry_undefined {manager : SessionManager} {held : List Nat} {cookie id : Bytes} {ref : Nat}
    {exn : Exn} (failed : manager.moveEntry held cookie id ref = .error exn) :
    ¬ Refused (.error exn : Except Exn Request) := by
  unfold moveEntry at failed
  rintro ⟨other, same⟩
  cases same
  split at failed
  · cases failed
  · split at failed
    · cases failed
    · split at failed
      · cases failed
      · cases failed

theorem changeId_unchanged {manager : SessionManager} (held : List Nat) :
    (Refused (changeId uuid crawlerAgents manager held request).2 →
      Unchanged manager (changeId uuid crawlerAgents manager held request).1) ↔
    (request.headersSent = false ∨ manager.named request = none ∨
      (newId uuid crawlerAgents request manager = request.getCookie sessionCookieName ∧
        ∀ ref ∈ held, manager.named request ≠ some ref)) := by
  cases named : manager.named request with
  | none =>
      simp only [true_or, or_true, iff_true]
      rintro ⟨cookie, refused⟩
      unfold changeId at refused
      rw [named] at refused
      cases refused
  | some ref =>
      have known := (named_eq named).2
      unfold changeId newId
      rw [named]
      simp only [reduceCtorEq, false_or]
      have same := resolve_getNewId uuid crawlerAgents request manager
      generalize getNewId uuid crawlerAgents manager request = drawn at same
      obtain ⟨base, id⟩ := drawn
      simp only at same ⊢
      split
      · next exn failed =>
          -- the behaviour of the source is undefined here, and the cookie is not reached
          obtain ⟨twin, free⟩ := moveEntry_error failed
          constructor
          · intro _
            refine Or.inr ⟨twin, ?_⟩
            intro other member same
            cases same
            exact free member
          · intro _ refused
            exact absurd refused (moveEntry_undefined failed)
      · next moved done =>
          have changed : ¬ Unchanged manager moved := by
            intro unchanged
            have gone := (moveEntry_spec done).2.2.1
            rw [unchanged, known] at gone
            cases gone
          have split : ¬ (id = request.getCookie sessionCookieName ∧
              ∀ other ∈ held, some ref ≠ some other) := by
            rintro ⟨rfl, free⟩
            have loose : ref ∉ held := fun member => free ref member rfl
            simp only [moveEntry, resolve_modify, same, known, Option.isNone_some, Bool.false_eq_true,
              if_false, List.contains_eq_mem, loose, decide_false, if_true] at done
            cases done
          simp only [split, or_false]
          simp only [Request.setCookie]
          cases sent : request.headersSent with
          | false =>
              simp only [iff_true]
              rintro ⟨cookie, refused⟩
              cases refused
          | true =>
              simp only [if_true, Bool.true_eq_false, iff_false]
              intro claim
              exact changed (claim ⟨_, rfl⟩)

/-- When a failure of the three operations leaves the registry as it was. -/
theorem failure_leaves_sessions (manager : SessionManager) (registered : Registered manager)
    (held : List Nat) :
    ((Refused (get uuid crawlerAgents manager request).2 →
        Unchanged manager (get uuid crawlerAgents manager request).1) ↔
      (request.headersSent = false ∨ manager.named request ≠ none ∨
        SharesSession uuid crawlerAgents request manager)) ∧
    ((Refused (create uuid crawlerAgents manager request).2 →
        Unchanged manager (create uuid crawlerAgents manager request).1) ↔
      (request.headersSent = false ∨ SharesSession uuid crawlerAgents request manager)) ∧
    ((Refused (changeId uuid crawlerAgents manager held request).2 →
        Unchanged manager (changeId uuid crawlerAgents manager held request).1) ↔
      (request.headersSent = false ∨ manager.named request = none ∨
        (newId uuid crawlerAgents request manager = request.getCookie sessionCookieName ∧
          ∀ ref ∈ held, manager.named request ≠ some ref))) :=
  ⟨get_unchanged uuid crawlerAgents request registered,
    create_unchanged uuid crawlerAgents request registered,
    changeId_unchanged uuid crawlerAgents request held⟩

end Generator

section Sample

open World (sampleIds sampleCrawlers sampleBrowser sampleManager)

def sampleLate (cookie : Option Bytes) : Request :=
  { sampleBrowser cookie with headersSent := true }

theorem failed_operations_change_sessions :
    (Refused (get sampleIds sampleCrawlers (start 0 30) (sampleLate none)).2 ∧
      (start 0 30).resolve (sampleIds 0) = none ∧
      (get sampleIds sampleCrawlers (start 0 30) (sampleLate none)).1.resolve (sampleIds 0) =
        some 0) ∧
    (Refused (create sampleIds sampleCrawlers (start 0 30) (sampleLate none)).2 ∧
      (create sampleIds sampleCrawlers (start 0 30) (sampleLate none)).1.resolve (sampleIds 0) =
        some 0) ∧
    (Refused
        (changeId sampleIds sampleCrawlers sampleManager [] (sampleLate (some (sampleIds 0)))).2 ∧
      sampleManager.resolve (sampleIds 0) = some 0 ∧
      (changeId sampleIds sampleCrawlers sampleManager [] (sampleLate (some (sampleIds 0)))).1.resolve
        (sampleIds 0) = none) := by
  refine ⟨⟨?_, ?_, ?_⟩, ⟨?_, ?_⟩, ?_, ?_, ?_⟩
  · exact ⟨_, rfl⟩
  · decide +kernel
  · decide +kernel
  · exact ⟨_, rfl⟩
  · decide +kernel
  · exact ⟨_, rfl⟩
  · decide +kernel
  · decide +kernel

theorem failure_leaves_sessions_late :
    ¬ (Refused (get sampleIds sampleCrawlers (start 0 30) (sampleLate none)).2 →
      Unchanged (start 0 30) (get sampleIds sampleCrawlers (start 0 30) (sampleLate none)).1) := by
  intro claim
  rcases (failure_leaves_sessions sampleIds sampleCrawlers (sampleLate none) (start 0 30)
    (registered_start 0 30) []).1.mp claim with early | named | shares
  · cases early
  · exact named rfl
  · exact absurd shares.2 (by decide +kernel)

end Sample

end SessionManager

end FastcgiContainer
