import FastcgiContainer.AuthenticatorFilter
import FastcgiContainer.Environment

/-! `HandlerSet`: the handlers and filters of the configuration, and which of them a request
is meant for. -/

namespace FastcgiContainer

open Word (Bytes)

namespace Request

def getHost (request : Request) : Bytes := request.getHeader (ascii "host")

def getServerAddr (request : Request) : Bytes := request.getEnvVariable (ascii "SERVER_ADDR")

/-- The number is narrowed to `unsigned short`. -/
def getServerPort (request : Request) : Except Exn Nat :=
  let res := request.getEnvVariable (ascii "SERVER_PORT")
  if res.isEmpty then .ok 80
  else do
    let port ← stoi res
    .ok (port % 65536).toNat

end Request

/-- A compiled expression: the strings that it matches as a whole. -/
abbrev Regex := Bytes → Bool

/-- The class of a filter, with the key under which it is kept. -/
inductive Selector where
  | url (urlPrefix : Bytes)
  | host
  | port
  | address
  | referer
  | param (name : Bytes)
  deriving DecidableEq, Repr

structure RequestFilter where
  selector : Selector
  regex : Regex

namespace RequestFilter

/-- `std::regex` may refuse an expression. -/
def create (compile : Bytes → Except Exn Regex) (selector : Selector) (regex : Bytes) :
    Except Exn RequestFilter := do
  let compiled ← compile (if regex.isEmpty then ascii ".*" else regex)
  .ok ⟨selector, compiled⟩

def checkUrl (regex : Regex) (urlPrefix url : Bytes) : Bool :=
  if !urlPrefix.isEmpty && StringUtils.beginsWith url urlPrefix then regex (url.drop urlPrefix.length)
  else regex url

def check (filter : RequestFilter) (request : Request) : Except Exn Bool :=
  match filter.selector with
  | .url urlPrefix => .ok (checkUrl filter.regex urlPrefix request.getScriptName)
  | .host => .ok (filter.regex request.getHost)
  | .port => do
      let port ← request.getServerPort
      .ok (filter.regex (decimal port))
  | .address => .ok (filter.regex request.getServerAddr)
  | .referer =>
      .ok (request.hasHeader (ascii "Referer") && filter.regex (request.getHeader (ascii "Referer")))
  | .param name => .ok (request.hasArg name && filter.regex (request.getArg name))

end RequestFilter

structure HandlerDescription (η : Type) where
  selectors : List RequestFilter
  handlers : List η
  poolName : Bytes
  id : Bytes

structure FilterDescription (φ : Type) where
  selectors : List RequestFilter
  handlers : List φ
  id : Bytes

structure HandlerSet (η φ : Type) where
  filters : List (FilterDescription φ)
  handlers : List (HandlerDescription η)
  defaultPoolName : Bytes

/-- What `asString` makes of an attribute or of a text, if it is there. -/
abbrev ConfigValue := Option (Except Exn Bytes)

namespace ConfigValue

def asString (value : ConfigValue) (key : Bytes) : Except Exn Bytes :=
  value.getD (.error (.runtimeError ("nonexistent config param: " ++ quoted key)))

def asStringOr (value : ConfigValue) (defval : Bytes) : Bytes :=
  match value with
  | some (.ok text) => text
  | _ => defval

end ConfigValue

structure ParamElement where
  name : ConfigValue
  value : ConfigValue

structure HandlerElement where
  pool : ConfigValue
  id : ConfigValue
  url : ConfigValue
  host : ConfigValue
  port : ConfigValue
  address : ConfigValue
  referer : ConfigValue
  params : List ParamElement
  components : List ConfigValue

structure HandlersConfig where
  urlPrefix : ConfigValue
  defaultPool : ConfigValue
  handlers : List HandlerElement
  filters : List HandlerElement

/-- A component, as what it can be cast to. -/
structure ComponentCasts (η φ : Type) where
  handler : Option η
  filter : Option φ

namespace HandlerSet

variable {η φ : Type}

def subKeys {α : Type} (key : Bytes) (elements : List α) : List (Bytes × α) :=
  elements.mapIdx (fun index element => (key ++ ascii "[" ++ decimal (index + 1) ++ ascii "]", element))

section Init

variable (compile : Bytes → Except Exn Regex)

/-- An attribute that is missing or empty makes no filter. -/
def addSelector (selectors : List RequestFilter) (selector : Selector) (filter : Bytes) :
    Except Exn (List RequestFilter) :=
  if filter.isEmpty then .ok selectors
  else do
    let created ← RequestFilter.create compile selector filter
    .ok (selectors ++ [created])

def addParam (selectors : List RequestFilter) (it : ParamElement) : Except Exn (List RequestFilter) :=
  let name := it.name.asStringOr []
  if name.isEmpty then .ok selectors else addSelector compile selectors (.param name) (it.value.asStringOr [])

def initSelectors (urlPrefix : Bytes) (k : HandlerElement) : Except Exn (List RequestFilter) := do
  let selectors ← addSelector compile [] (.url urlPrefix) (k.url.asStringOr [])
  let selectors ← addSelector compile selectors .host (k.host.asStringOr [])
  let selectors ← addSelector compile selectors .port (k.port.asStringOr [])
  let selectors ← addSelector compile selectors .address (k.address.asStringOr [])
  let selectors ← addSelector compile selectors .referer (k.referer.asStringOr [])
  k.params.foldlM (addParam compile) selectors

variable (find : Bytes → Except Exn (Option (ComponentCasts η φ)))

def findComponent {α : Type} (cast : ComponentCasts η φ → Option α) (interface : String)
    (c : Bytes × ConfigValue) : Except Exn α := do
  let componentName ← c.2.asString (c.1 ++ ascii "/@name")
  match ← find componentName with
  | none => .error (.runtimeError ("Cannot find component: " ++ quoted componentName))
  | some component =>
      match cast component with
      | none => .error (.runtimeError
          ("Component " ++ quoted componentName ++ " does not implement interface " ++ interface))
      | some handler => .ok handler

def initHandler (defaultPoolName urlPrefix : Bytes) (k : Bytes × HandlerElement) :
    Except Exn (HandlerDescription η) := do
  let selectors ← initSelectors compile urlPrefix k.2
  let handlers ← (subKeys (k.1 ++ ascii "/component") k.2.components).mapM
    (findComponent find ComponentCasts.handler "Handler")
  .ok ⟨selectors, handlers, k.2.pool.asStringOr defaultPoolName, k.2.id.asStringOr []⟩

def initFilter (urlPrefix : Bytes) (k : Bytes × HandlerElement) : Except Exn (FilterDescription φ) := do
  let selectors ← initSelectors compile urlPrefix k.2
  let handlers ← (subKeys (k.1 ++ ascii "/component") k.2.components).mapM
    (findComponent find ComponentCasts.filter "Filter")
  .ok ⟨selectors, handlers, k.2.id.asStringOr []⟩

/-- Handlers with the attribute `url` come first. -/
def init (config : HandlersConfig) : Except Exn (HandlerSet η φ) := do
  let urlPrefix := config.urlPrefix.asStringOr []
  let defaultPoolName := config.defaultPool.asStringOr []
  let withUrl ← (subKeys (ascii "/fastcgi/handlers/handler[count(@url)=1]")
    (config.handlers.filter (fun k => k.url.isSome))).mapM (initHandler compile find defaultPoolName urlPrefix)
  let others ← (subKeys (ascii "/fastcgi/handlers/handler[not(@url)]")
    (config.handlers.filter (fun k => k.url.isNone))).mapM (initHandler compile find defaultPoolName urlPrefix)
  let filters ← (subKeys (ascii "/fastcgi/handlers/filter") config.filters).mapM
    (initFilter compile find urlPrefix)
  .ok ⟨filters, withUrl ++ others, defaultPoolName⟩

end Init

/-- The loop over the selectors, up to the first that does not match. -/
def matched (request : Request) : List RequestFilter → Except Exn Bool
  | [] => .ok true
  | f :: rest => do
      if ← f.check request then matched request rest else .ok false

def findMatching (request : Request) : List (HandlerDescription η) → Except Exn (Option (HandlerDescription η))
  | [] => .ok none
  | i :: rest => do
      if ← matched request i.selectors then .ok (some i) else findMatching request rest

def findURIHandler (set : HandlerSet η φ) (request : Request) : Except Exn (Option (HandlerDescription η)) :=
  findMatching request set.handlers

def collectFilters (request : Request) : List (FilterDescription φ) → List φ → Except Exn (List φ)
  | [], v => .ok v
  | i :: rest, v => do
      if ← matched request i.selectors then collectFilters request rest (v ++ i.handlers)
      else collectFilters request rest v

def findURIFilters (set : HandlerSet η φ) (request : Request) (v : List φ) : Except Exn (List φ) :=
  collectFilters request set.filters v

def getPoolsNeeded (set : HandlerSet η φ) : List Bytes :=
  let pools := set.handlers.foldl (fun (pools : OrderedMap Bytes Unit stringLess) i =>
    pools.insert i.poolName ()) .empty
  (pools.insert set.defaultPoolName ()).entries.map Prod.fst

end HandlerSet

end FastcgiContainer
