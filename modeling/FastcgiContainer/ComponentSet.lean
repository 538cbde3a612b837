import FastcgiContainer.StringUtils
import FastcgiContainer.StringBuffer

/-! `ComponentSet`: the components of the container and the order in which they are loaded.
The `onLoad` of a component may look for other components, which loads these first; so
`sendOnLoad` is entered again while it is running. -/

namespace FastcgiContainer

open Word (Bytes)

inductive Thrown where
  | exception (what : String)
  | unknown
  deriving DecidableEq, Repr

/-- The body of an `onLoad`. What follows a look-up may depend on its answer: nothing, or
the type of the component that was found. -/
inductive OnLoad where
  | done
  | fail (exn : Thrown)
  | find (name : Bytes) (rest : Option String → OnLoad)

structure Component where
  type : String
  onLoad : OnLoad

structure ComponentContainer where
  component : Component
  isLoadingStarted : Bool

inductive LoadEvent where
  | called (name : Bytes)
  | completed (name : Bytes)
  | returned (name : Bytes)
  deriving DecidableEq, Repr

inductive UnloadEvent where
  | called (name : Bytes)
  | printed (text : String)
  deriving DecidableEq, Repr

/-- `events` records the calls of `onLoad`, their ends, and the look-ups that found a
component. -/
structure ComponentSet where
  components : OrderedMap Bytes ComponentContainer stringLess
  loadingStack : List Bytes
  events : List LoadEvent

structure ComponentConfig where
  name : Bytes
  type : String
  componentXPath : Bytes

/-- The factories of the loaded modules, and what each of them creates for a context. -/
abbrev Loader := String → Option (Bytes → Except Thrown OnLoad)

namespace ComponentSet

/-- What a call leaves; nothing if it takes more nested calls than were allowed. -/
abbrev Result (α : Type) := Option (ComponentSet × Except Thrown α)

def empty : ComponentSet := ⟨.empty, [], []⟩

/-- Exceptions are thrown again as `std::runtime_error`. -/
def rethrow : Thrown → Thrown
  | .exception what => .exception what
  | .unknown => .exception "Unknown exception caught"

def add (loader : Loader) (set : ComponentSet) (entry : ComponentConfig) : Except Thrown ComponentSet :=
  match loader entry.type with
  | none => .error (.exception ("Cannot find component factory for type: " ++ entry.type))
  | some createComponent =>
      match createComponent entry.componentXPath with
      | .error exn => .error (rethrow exn)
      | .ok onLoad =>
          .ok { set with
            components := set.components.insert entry.name ⟨⟨entry.type, onLoad⟩, false⟩ }

def isComponentLoaded (set : ComponentSet) (name : Bytes) : Bool := set.loadingStack.contains name

def log (set : ComponentSet) (event : LoadEvent) : ComponentSet :=
  { set with events := set.events ++ [event] }

def startLoading (set : ComponentSet) (name : Bytes) (cont : ComponentContainer) : ComponentSet :=
  { set with
    components := set.components.assign name { cont with isLoadingStarted := true }
    events := set.events ++ [.called name] }

def pushLoaded (set : ComponentSet) (name : Bytes) : ComponentSet :=
  { set with
    loadingStack := set.loadingStack ++ [name]
    events := set.events ++ [.completed name] }

section Send

variable (send : ComponentSet → Bytes → Result Unit)

def find (set : ComponentSet) (name : Bytes) : Result (Option String) :=
  match set.components.find? name with
  | none => some (set, .ok none)
  | some cont =>
      if set.isComponentLoaded name then some (set.log (.returned name), .ok (some cont.component.type))
      else
        match send set name with
        | none => none
        | some (set, .error exn) => some (set, .error exn)
        | some (set, .ok ()) => some (set.log (.returned name), .ok (some cont.component.type))

/-- The component lets exceptions of `find` pass. -/
def runOnLoad : OnLoad → ComponentSet → Result Unit
  | .done, set => some (set, .ok ())
  | .fail exn, set => some (set, .error exn)
  | .find name rest, set =>
      match find send set name with
      | none => none
      | some (set, .error exn) => some (set, .error exn)
      | some (set, .ok found) => runOnLoad (rest found) set

def sendToAll : List Bytes → ComponentSet → Result Unit
  | [], set => some (set, .ok ())
  | name :: rest, set =>
      match send set name with
      | none => none
      | some (set, .error exn) => some (set, .error exn)
      | some (set, .ok ()) => sendToAll rest set

end Send

/-- The first argument bounds the nested calls. The name is one of `components`. -/
def sendOnLoad : Nat → ComponentSet → Bytes → Result Unit
  | 0, _, _ => none
  | depth + 1, set, name =>
      if set.isComponentLoaded name then some (set, .ok ())
      else
        match set.components.find? name with
        | none => some (set, .ok ())
        | some cont =>
            if cont.isLoadingStarted then
              some (set, .error (.exception "Cyclic component dependence found"))
            else
              match runOnLoad (sendOnLoad depth) cont.component.onLoad (set.startLoading name cont) with
              | none => none
              | some (set, .error exn) => some (set, .error (rethrow exn))
              | some (set, .ok ()) => some (set.pushLoaded name, .ok ())

def sendOnLoadToComponents (depth : Nat) (set : ComponentSet) : Result Unit :=
  sendToAll (sendOnLoad depth) (set.components.entries.map Prod.fst) set

def addAll (loader : Loader) : List ComponentConfig → ComponentSet → ComponentSet × Except Thrown Unit
  | [], set => (set, .ok ())
  | entry :: rest, set =>
      match set.add loader entry with
      | .error exn => (set, .error exn)
      | .ok set => addAll loader rest set

def init (loader : Loader) (config : List ComponentConfig) (depth : Nat) : Result Unit :=
  match addAll loader config empty with
  | (set, .error exn) => some (set, .error exn)
  | (set, .ok ()) => set.sendOnLoadToComponents depth

/-- A call of `onUnload`. What it throws is printed and forgotten. -/
def sendOnUnload (onUnload : Bytes → Except Thrown Unit) (name : Bytes) : List UnloadEvent :=
  match onUnload name with
  | .ok () => [.called name]
  | .error (.exception what) => [.called name, .printed what]
  | .error .unknown => [.called name, .printed "Unknown exception caught"]

def sendOnUnloadToComponents (onUnload : Bytes → Except Thrown Unit) (set : ComponentSet) :
    List UnloadEvent :=
  set.loadingStack.flatMap (sendOnUnload onUnload)

end ComponentSet

end FastcgiContainer
