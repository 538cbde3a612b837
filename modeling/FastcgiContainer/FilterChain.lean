import Mathlib.Tactic

/-! The execution of the filters and handlers of a task. The chain is a vector of closures
that find each other by their index in the vector; it acts as the nested calls would. -/

namespace FastcgiContainer.FilterChain

/-- A call that may throw. What it did before it threw stays. -/
abbrev Action (σ ε : Type) := σ → σ × Option ε

def andThen {σ ε : Type} (first second : Action σ ε) : Action σ ε := fun state =>
  match first state with
  | (state, some exn) => (state, some exn)
  | (state, none) => second state

/-- A task while it is executed: what filters and handlers act on, and the handlers, which
may be found late. -/
structure Running (σ η : Type) where
  world : σ
  handlers : List η

/-- What the filters and handlers of a container do. A filter is given the next function and
may call it as often as it likes. -/
structure Behaviour (σ ε η φ : Type) where
  isProcessed : σ → Bool
  handleRequest : η → Action σ ε
  doFilter : φ → Action (Running σ η) ε → Action (Running σ η) ε
  futureHandlers : Option (σ → σ × Except ε (List η))

variable {σ ε η φ : Type} (behaviour : Behaviour σ ε η φ)

def handleEach : List η → Action σ ε
  | [], world => (world, none)
  | i :: rest, world =>
      if behaviour.isProcessed world then (world, none)
      else
        match behaviour.handleRequest i world with
        | (world, some exn) => (world, some exn)
        | (world, none) => handleEach rest world

def handleAll (running : Running σ η) : Running σ η × Option ε :=
  let (world, result) := handleEach behaviour running.handlers running.world
  ({ running with world := world }, result)

def handlers : Action (Running σ η) ε := fun running =>
  match running.handlers.isEmpty, behaviour.futureHandlers with
  | true, some futureHandlers =>
      match futureHandlers running.world with
      | (world, .error exn) => ({ running with world := world }, some exn)
      | (world, .ok found) => handleAll behaviour ⟨world, found⟩
  | _, _ => handleAll behaviour running

/-- What a closure has captured, apart from the vector and the handlers. -/
structure Closure (φ : Type) where
  filter : φ
  next : Nat

/-- The vector of closures. Each names the place behind its own. -/
structure Closures (φ : Type) where
  elements : List (Closure φ)
  linked : ∀ index (inside : index < elements.length), (elements.get ⟨index, inside⟩).next = index + 1

def pushFilters : List φ → List (Closure φ) → Nat → List (Closure φ)
  | [], filters, _ => filters
  | i :: rest, filters, next => pushFilters rest (filters ++ [⟨i, next + 1⟩]) (next + 1)

theorem pushFilters_eq (list : List φ) (filters : List (Closure φ)) (next : Nat) :
    pushFilters list filters next =
      filters ++ list.mapIdx (fun index filter => ⟨filter, next + index + 1⟩) := by
  induction list generalizing filters next with
  | nil => simp [pushFilters]
  | cons filter rest ih =>
      have places : (fun index filter => (⟨filter, next + 1 + index + 1⟩ : Closure φ)) =
          fun index filter => ⟨filter, next + (index + 1) + 1⟩ := by
        funext index filter
        rw [Nat.add_assoc next 1 index, Nat.add_comm 1 index]
      rw [pushFilters, ih, List.mapIdx_cons, List.append_assoc, places]
      rfl

def closures (list : List φ) : Closures φ where
  elements := pushFilters list [] 0
  linked := by
    intro index inside
    simp [pushFilters_eq]

section Call

variable (filters : Closures φ) (handlers : Action (Running σ η) ε)

/-- A closure decides when it is called whether it is the last one. -/
def call (index : Nat) (inside : index < filters.elements.length) : Action (Running σ η) ε :=
  let closure := filters.elements.get ⟨index, inside⟩
  if more : closure.next < filters.elements.length then
    behaviour.doFilter closure.filter (call closure.next more)
  else behaviour.doFilter closure.filter handlers
termination_by filters.elements.length - index
decreasing_by
  have link := filters.linked index inside
  have above : closure.next = index + 1 := link
  omega

end Call

def execute (filters : List φ) : Action (Running σ η) ε :=
  let chain := closures filters
  if some : chain.elements.length > 0 then call behaviour chain (handlers behaviour) 0 some
  else handlers behaviour

/-- Filters around an action, the first of them outermost. -/
def nested (filters : List φ) (inner : Action (Running σ η) ε) : Action (Running σ η) ε :=
  filters.foldr behaviour.doFilter inner

/-- What a turn of the loop over the handlers means: unless the request is processed, the
handler runs, and then the others. -/
def unlessProcessed (first rest : Action σ ε) : Action σ ε := fun world =>
  if behaviour.isProcessed world then (world, none) else andThen first rest world

def inOrder (list : List η) : Action σ ε :=
  list.foldr (fun handler rest => unlessProcessed behaviour (behaviour.handleRequest handler) rest)
    (fun world => (world, none))

def knownHandlers : Action (Running σ η) ε := fun running =>
  ({ running with world := (inOrder behaviour running.handlers running.world).1 },
    (inOrder behaviour running.handlers running.world).2)

def findHandlers (futureHandlers : σ → σ × Except ε (List η)) : Action (Running σ η) ε := fun running =>
  match futureHandlers running.world with
  | (world, .error exn) => (⟨world, running.handlers⟩, some exn)
  | (world, .ok found) => (⟨world, found⟩, none)

/-- What stands in the innermost place: if there are no handlers they are looked for, and then
they run. -/
def innermost : Action (Running σ η) ε := fun running =>
  match behaviour.futureHandlers with
  | some futureHandlers =>
      if running.handlers = [] then andThen (findHandlers futureHandlers) (knownHandlers behaviour) running
      else knownHandlers behaviour running
  | none => knownHandlers behaviour running

theorem handleEach_eq (list : List η) : handleEach behaviour list = inOrder behaviour list := by
  induction list with
  | nil => rfl
  | cons handler rest ih =>
      funext world
      have turn : inOrder behaviour (handler :: rest) world =
          unlessProcessed behaviour (behaviour.handleRequest handler) (inOrder behaviour rest) world := rfl
      rw [turn, handleEach, ih]
      unfold unlessProcessed andThen
      rfl

theorem handleAll_eq : handleAll behaviour = knownHandlers behaviour := by
  funext running
  rw [handleAll, handleEach_eq]
  rfl

theorem handlers_eq : handlers behaviour = innermost behaviour := by
  funext running
  unfold handlers innermost
  rw [handleAll_eq]
  cases behaviour.futureHandlers with
  | none => cases running.handlers <;> rfl
  | some futureHandlers =>
      cases none : running.handlers with
      | nil =>
          simp only [List.isEmpty_nil, if_true, andThen, findHandlers]
          rcases futureHandlers running.world with ⟨world, exn | found⟩ <;> simp [none]
      | cons handler rest => simp

theorem call_eq (list : List φ) (inner : Action (Running σ η) ε) (index : Nat)
    (inside : index < (closures list).elements.length) :
    call behaviour (closures list) inner index inside = nested behaviour (list.drop index) inner := by
  have size : (closures list).elements.length = list.length := by simp [closures, pushFilters_eq]
  induction remaining : list.length - index generalizing index with
  | zero => omega
  | succ remaining ih =>
      have here : index < list.length := by omega
      have link := (closures list).linked index inside
      have filter : ((closures list).elements.get ⟨index, inside⟩).filter = list.get ⟨index, here⟩ := by
        simp [closures, pushFilters_eq]
      have first : list.drop index = list.get ⟨index, here⟩ :: list.drop (index + 1) :=
        List.drop_eq_getElem_cons here
      have outer : nested behaviour (list.drop index) inner = behaviour.doFilter (list.get ⟨index, here⟩)
          (nested behaviour (list.drop (index + 1)) inner) := by
        rw [first]
        rfl
      rw [call, outer]
      simp only [filter, link]
      split
      · next more =>
          rw [ih _ (by rw [link]; exact more) (by rw [link]; omega), link]
      · next last =>
          rw [List.drop_eq_nil_of_le (by omega)]
          rfl

theorem execute_nested (filters : List φ) :
    execute behaviour filters = nested behaviour filters (handlers behaviour) := by
  unfold execute
  simp only
  split
  · rw [call_eq, List.drop_zero]
  · next none =>
      have empty : filters = [] := by
        apply List.eq_nil_of_length_eq_zero
        simpa [closures, pushFilters_eq] using none
      rw [empty]
      rfl

/-- The chain of a task acts as its filters nested around its handlers. -/
theorem chain_nests_filters (filters : List φ) :
    execute behaviour filters = nested behaviour filters (innermost behaviour) := by
  rw [execute_nested, handlers_eq]

end FastcgiContainer.FilterChain
