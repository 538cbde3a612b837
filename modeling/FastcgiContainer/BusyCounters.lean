import FastcgiContainer.Custody

/-! The busy counters of the endpoints: they say how many threads prepare or serve a request,
and the assertion that guards them never fails. -/

namespace FastcgiContainer

namespace EndpointThread

def busy : EndpointThread → Bool
  | preparing _ => true
  | serving _ _ => true
  | leaving counter _ => counter.incremented
  | _ => false

def Marked : EndpointThread → Prop
  | preparing counter => counter.incremented = true
  | accepting counter => counter.incremented = false
  | serving counter _ => counter.incremented = true
  | _ => True

end EndpointThread

namespace EndpointThreads

structure Counted (threads : EndpointThreads) : Prop where
  count : threads.endpoint.busyCount = threads.threads.countP EndpointThread.busy
  marked : ∀ place ∈ threads.threads, place.Marked
  number : threads.threads.length = threads.endpoint.threads

variable {threads : EndpointThreads} (counted : threads.Counted) {thread : Nat} {old : EndpointThread}
  (here : threads.threads[thread]? = some old)

include counted here

theorem Counted.move {endpoint : Endpoint} {place : EndpointThread} (marked : place.Marked)
    (count : endpoint.busyCount + old.busy.toNat = threads.endpoint.busyCount + place.busy.toNat)
    (number : endpoint.threads = threads.endpoint.threads) :
    (FCGIServer.move threads thread endpoint place).Counted := by
  refine ⟨?_, ?_, ?_⟩
  · have moved := countP_set EndpointThread.busy threads.threads thread old place here
    have before := counted.count
    simp only [FCGIServer.move]
    omega
  · intro other member
    rcases List.mem_or_eq_of_mem_set member with member | rfl
    · exact counted.marked other member
    · exact marked
  · simp only [FCGIServer.move, List.length_set]
    exact counted.number.trans number.symm

theorem Counted.decrement {counter : Endpoint.ScopedBusyCounter} (busy : old.busy = counter.incremented) :
    ∃ endpoint : Endpoint, counter.decrement threads.endpoint = .ok (⟨false⟩, endpoint) ∧
      endpoint.busyCount + counter.incremented.toNat = threads.endpoint.busyCount ∧
      endpoint.threads = threads.endpoint.threads := by
  obtain ⟨incremented⟩ := counter
  cases incremented with
  | false => exact ⟨threads.endpoint, rfl, by simp, rfl⟩
  | true =>
      have positive : 0 < threads.threads.countP EndpointThread.busy :=
        List.countP_pos_iff.mpr ⟨old, List.mem_of_getElem? here, busy⟩
      have counts : threads.endpoint.busyCount > 0 := by
        have before := counted.count
        omega
      refine ⟨{ threads.endpoint with busyCount := threads.endpoint.busyCount - 1 }, ?_, by simp, rfl⟩
      simp only [Endpoint.ScopedBusyCounter.decrement, if_true, Endpoint.decrementBusyCounter, counts]
      rfl

end EndpointThreads

namespace FCGIServer

open Endpoint (ScopedBusyCounter)

variable {γ η φ : Type}

section Threads

variable {threads : EndpointThreads} (counted : threads.Counted) (thread : Nat)

include counted

theorem begin_counted (stopped : Bool) : (begin stopped threads thread).Counted := by
  unfold begin
  split
  · next here =>
      split
      · exact counted.move here trivial (by simp [EndpointThread.busy]) rfl
      · exact counted.move here rfl (by simp [Endpoint.incrementBusyCounter, EndpointThread.busy]) rfl
  · exact counted

theorem prepare_counted (succeeds : Bool) : ∃ next, prepare threads thread succeeds = .ok next ∧ next.Counted := by
  unfold prepare
  split
  · next counter here =>
      have marked : counter.incremented = true := counted.marked _ (List.mem_of_getElem? here)
      split
      · obtain ⟨endpoint, done, count, number⟩ := counted.decrement here marked.symm
        rw [done]
        refine ⟨_, rfl, counted.move here rfl ?_ number⟩
        simpa [EndpointThread.busy, marked] using count
      · refine ⟨_, rfl, counted.move here trivial ?_ rfl⟩
        simp [EndpointThread.busy, marked]
  · exact ⟨_, rfl, counted⟩

theorem accepted_counted (stopped succeeds : Bool) (request : Nat) :
    (accepted stopped threads thread succeeds request).1.Counted := by
  unfold accepted
  split
  · next counter here =>
      have marked : counter.incremented = false := counted.marked _ (List.mem_of_getElem? here)
      split
      · exact counted.move here trivial (by simp [EndpointThread.busy, marked]) rfl
      · split
        · exact counted.move here trivial (by simp [EndpointThread.busy, marked]) rfl
        · simp only [ScopedBusyCounter.increment, marked, Bool.false_eq_true, if_false]
          exact counted.move here rfl (by simp [EndpointThread.busy, Endpoint.incrementBusyCounter]) rfl
  · exact counted

theorem served_counted (counter : ScopedBusyCounter) (request : Nat)
    (serves : servedBy threads thread = some (counter, request)) :
    (move threads thread threads.endpoint (.leaving counter false)).Counted := by
  unfold servedBy at serves
  split at serves
  · next here =>
      cases serves
      have marked : counter.incremented = true := counted.marked _ (List.mem_of_getElem? here)
      exact counted.move here trivial (by simp [EndpointThread.busy, marked]) rfl
  · cases serves

theorem leave_counted : ∃ next, leave threads thread = .ok next ∧ next.Counted := by
  unfold leave
  split
  · next counter returns here =>
      obtain ⟨endpoint, done, count, number⟩ := counted.decrement here rfl
      rw [done]
      refine ⟨_, rfl, counted.move here ?_ ?_ number⟩
      · cases returns <;> exact trivial
      · have idle : (if returns then EndpointThread.returned else .idle).busy = false := by
          cases returns <;> rfl
        rw [idle, Bool.toNat_false, Nat.cast_zero, add_zero]
        exact count
  · exact ⟨_, rfl, counted⟩

end Threads

theorem step_counted (server : FCGIServer γ η φ) (counted : ∀ threads ∈ server.endpoints, threads.Counted)
    (action : Action γ η φ) :
    ∃ next, server.step action = .ok next ∧ ∀ threads ∈ next.endpoints, threads.Counted := by
  have replaced : ∀ (endpoint : Nat) (after : EndpointThreads), after.Counted →
      ∀ threads ∈ (server.setEndpoint endpoint after).endpoints, threads.Counted := by
    intro endpoint after good threads member
    rcases List.mem_or_eq_of_mem_set member with member | rfl
    · exact counted threads member
    · exact good
  cases action with
  | begin endpoint thread =>
      simp only [step]
      split
      · exact ⟨_, rfl, counted⟩
      · next here =>
          exact ⟨_, rfl, replaced _ _ (begin_counted (counted _ (List.mem_of_getElem? here)) thread server.stopped)⟩
  | prepare endpoint thread succeeds =>
      simp only [step]
      split
      · exact ⟨_, rfl, counted⟩
      · next here =>
          obtain ⟨after, done, good⟩ := prepare_counted (counted _ (List.mem_of_getElem? here)) thread succeeds
          rw [done]
          exact ⟨_, rfl, replaced _ _ good⟩
  | accept endpoint thread succeeds =>
      simp only [step]
      split
      · exact ⟨_, rfl, counted⟩
      · next threads here =>
          have good := accepted_counted (counted _ (List.mem_of_getElem? here)) thread server.stopped succeeds
            server.container.requests.length
          cases outcome : accepted server.stopped threads thread succeeds server.container.requests.length with
          | mk after came =>
              rw [outcome] at good
              cases came <;> exact ⟨_, rfl, replaced _ _ good⟩
  | serve endpoint thread incoming now copying =>
      simp only [step]
      split
      · exact ⟨_, rfl, counted⟩
      · next here =>
          split
          · exact ⟨_, rfl, counted⟩
          · next counter request serves =>
              exact ⟨_, rfl, replaced _ _
                (served_counted (counted _ (List.mem_of_getElem? here)) thread counter request serves)⟩
  | leave endpoint thread =>
      simp only [step]
      split
      · exact ⟨_, rfl, counted⟩
      · next here =>
          obtain ⟨after, done, good⟩ := leave_counted (counted _ (List.mem_of_getElem? here)) thread
          rw [done]
          exact ⟨_, rfl, replaced _ _ good⟩
  | replay image heap now copying => exact ⟨_, rfl, counted⟩
  | acquire pool index copied => exact ⟨_, rfl, counted⟩
  | handle pool index now later components copying => exact ⟨_, rfl, counted⟩
  | stop => exact ⟨_, rfl, counted⟩
  | stopPool pool => exact ⟨_, rfl, counted⟩

theorem run_counted (server : FCGIServer γ η φ) (counted : ∀ threads ∈ server.endpoints, threads.Counted)
    (actions : List (Action γ η φ)) :
    ∃ last, server.run actions = .ok last ∧ ∀ threads ∈ last.endpoints, threads.Counted := by
  induction actions generalizing server with
  | nil => exact ⟨server, rfl, counted⟩
  | cons action rest ih =>
      obtain ⟨next, stepped, good⟩ := step_counted server counted action
      obtain ⟨last, ran, ends⟩ := ih next good
      refine ⟨last, ?_, ends⟩
      rw [run, List.foldlM_cons, stepped]
      exact ran

/-- In every order of the steps of all threads the counter of an endpoint is the number of its
threads that prepare or serve a request, up to the narrowing of the number that is shown, and
the assertion in `decrementBusyCounter` holds. -/
theorem busy_counters_are_exact (globals : HandlerSet η φ × Globals.ThreadPoolMap (QueuedTask η φ))
    (endpoints : List (Nat × Bool)) (actions : List (Action γ η φ)) :
    ∃ server, (start globals endpoints).run actions = .ok server ∧ ∀ threads ∈ server.endpoints,
      threads.endpoint.busyCount = threads.threads.countP EndpointThread.busy ∧
        threads.endpoint.busyCount ≤ threads.endpoint.threads ∧
        threads.endpoint.getBusyCounter = threads.threads.countP EndpointThread.busy % 65536 := by
  have counted : ∀ threads ∈ (start (γ := γ) globals endpoints).endpoints, threads.Counted := by
    intro threads member
    obtain ⟨endpoint, -, rfl⟩ := List.mem_map.mp member
    refine ⟨?_, ?_, by simp⟩
    · simp [List.countP_replicate, EndpointThread.busy]
    · intro place idle
      rw [(List.mem_replicate.mp idle).2]
      exact trivial
  obtain ⟨server, ran, ends⟩ := run_counted _ counted actions
  refine ⟨server, ran, fun threads member => ?_⟩
  have good := ends threads member
  have most := List.countP_le_length (p := EndpointThread.busy) (l := threads.threads)
  refine ⟨good.count, ?_, ?_⟩
  · rw [good.count, ← good.number]
    exact_mod_cast most
  · rw [Endpoint.getBusyCounter, good.count]
    omega

end FCGIServer

end FastcgiContainer
