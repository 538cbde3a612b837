import FastcgiContainer.Attach
import FastcgiContainer.HandlerSet
import FastcgiContainer.PoolConfiguration
import FastcgiContainer.RequestsThreadPool

/-! The container at work: `Globals` as it is started, `Server`, which sends a request to the
pool of its handler, and `FCGIServer`, whose threads accept requests at the endpoints. -/

namespace FastcgiContainer

open Word (Bytes)

namespace RequestsThreadPool

variable {γ : Type}

/-- What the handling of a task comes to: it has ended, by an exception or not; or the request
is to be dispatched again; or the request that was stored for this cannot be read. -/
inductive Handled (γ : Type) where
  | ended (conversation : Conversation γ) (raised : Option Raised)
  | unrestored (conversation : Conversation γ) (exn : Exn)
  | dispatched (conversation : Conversation γ)

namespace Handled

def complete (dispatch : FilterChain.Action (Conversation γ) Raised) : Handled γ → Conversation γ × Option Raised
  | ended conversation raised => (conversation, raised)
  | unrestored conversation exn => (conversation, some (.standard exn))
  | dispatched conversation => dispatch conversation

end Handled

/-- The clause that catches `DispatchException`, up to the call of `dispatch`. -/
def handledDispatch (conversation : Conversation γ) (exn : DispatchException) : Handled γ :=
  let request := conversation.exchange.request
  if request.headersSent then
    .ended conversation (some (.standard (.runtimeError
      ("Error while dispatching request " ++ quoted request.getURI ++ ": headers already sent"))))
  else
    let conversation := if exn.type = .forward then conversation.reset else conversation
    match (if exn.buffer.isNil then .ok request else request.restore conversation.heap exn.buffer) with
    | .error wrong => .unrestored conversation wrong
    | .ok request =>
        .dispatched { conversation with
          exchange := { conversation.exchange with request := setScriptName request exn.url } }

def handledRaised (conversation : Conversation γ) : Raised → Handled γ
  | .dispatch exn => handledDispatch conversation exn
  | .http status =>
      let answer := sendErrorUnlessSent conversation (.http status) status
      .ended answer.1 answer.2
  | .standard exn =>
      let answer := sendErrorUnlessSent conversation (.standard exn) 500
      .ended answer.1 answer.2
  | .unknown =>
      let answer := sendErrorUnlessSent conversation .unknown 500
      .ended answer.1 answer.2

/-- `handleTask` for a task whose dispatcher is left to the caller. -/
def handled (pool : RequestsThreadPool) (now : Int) (task : RequestTask γ) (conversation : Conversation γ) :
    Handled γ :=
  if now - task.start < milliseconds pool.delay then
    let answer := conversation.through (conversation.exchange.sendError 503)
    .ended answer.1 answer.2
  else
    match FilterChain.andThen (chain task) finish conversation with
    | (conversation, none) => .ended conversation none
    | (conversation, some raised) => handledRaised conversation raised

theorem dispatchTask_handled (task : RequestTask γ) (conversation : Conversation γ) (exn : DispatchException)
    (dispatch : FilterChain.Action (Conversation γ) Raised) (assigned : task.dispatch = some dispatch) :
    dispatchTask task conversation exn = (handledDispatch conversation exn).complete dispatch := by
  simp only [dispatchTask, assigned, handledDispatch]
  cases conversation.exchange.request.headersSent with
  | true => rfl
  | false =>
      simp only [Bool.false_eq_true, if_false]
      generalize (if exn.type = .forward then conversation.reset else conversation) = cleared
      cases (if exn.buffer.isNil then .ok conversation.exchange.request
          else conversation.exchange.request.restore cleared.heap exn.buffer) with
      | error wrong => rfl
      | ok request => rfl

theorem handleTask_handled (pool : RequestsThreadPool) (now : Int) (task : RequestTask γ)
    (conversation : Conversation γ) (dispatch : FilterChain.Action (Conversation γ) Raised)
    (assigned : task.dispatch = some dispatch) :
    pool.handleTask now task conversation = (pool.handled now task conversation).complete dispatch := by
  unfold handleTask handled
  split
  · rfl
  · cases FilterChain.andThen (chain task) finish conversation with
    | mk conversation thrown =>
        cases thrown with
        | none => rfl
        | some raised =>
            cases raised with
            | dispatch exn => exact dispatchTask_handled task conversation exn dispatch assigned
            | http status => rfl
            | standard exn => rfl
            | unknown => rfl

end RequestsThreadPool

namespace Endpoint

structure ScopedBusyCounter where
  incremented : Bool
  deriving DecidableEq, Repr

end Endpoint

structure Endpoint where
  busyCount : Int
  threads : Nat
  keepConnection : Bool
  deriving DecidableEq, Repr

namespace Endpoint

def incrementBusyCounter (endpoint : Endpoint) : Endpoint := { endpoint with busyCount := endpoint.busyCount + 1 }

/-- An assertion that fails ends the program. -/
def decrementBusyCounter (endpoint : Endpoint) : Except Exn Endpoint :=
  if endpoint.busyCount > 0 then .ok { endpoint with busyCount := endpoint.busyCount - 1 }
  else .error (.undefined "assertion failed: busy_count_ > 0")

/-- The number is narrowed to `unsigned short`. -/
def getBusyCounter (endpoint : Endpoint) : Nat := (endpoint.busyCount % 65536).toNat

namespace ScopedBusyCounter

def increment (counter : ScopedBusyCounter) (endpoint : Endpoint) : ScopedBusyCounter × Endpoint :=
  if counter.incremented then (counter, endpoint) else (⟨true⟩, endpoint.incrementBusyCounter)

def create (endpoint : Endpoint) : ScopedBusyCounter × Endpoint := increment ⟨false⟩ endpoint

/-- Also what the destructor does. -/
def decrement (counter : ScopedBusyCounter) (endpoint : Endpoint) : Except Exn (ScopedBusyCounter × Endpoint) :=
  if counter.incremented then do
    let endpoint ← endpoint.decrementBusyCounter
    .ok (⟨false⟩, endpoint)
  else .ok (counter, endpoint)

end ScopedBusyCounter

end Endpoint

/-- A task in the queue of a pool, with its request and its components by their numbers or
names. -/
structure QueuedTask (η φ : Type) where
  request : Nat
  filters : List φ
  handlers : List η
  start : Int

/-- What the components of the container do when a task is handled. They may share data, so
this need not be the same for every task. -/
structure Components (γ η φ : Type) where
  handler : η → Handler γ
  filter : φ → Filter γ

namespace Globals

variable {η φ T : Type}

/-- No thread of a pool fails to start: the exception would end the program. -/
def startThreadPools (pools : ThreadPoolMap T) : ThreadPoolMap T :=
  pools.mapValues (fun pool => (pool.1.start none, pool.2))

def create (compile : Bytes → Except Exn Regex) (find : Bytes → Except Exn (Option (ComponentCasts η φ)))
    (config : HandlersConfig) (entries : List PoolEntry) : Except Exn (HandlerSet η φ × ThreadPoolMap T) := do
  let handlerSet ← HandlerSet.init compile find config
  let pools ← initPools handlerSet.getPoolsNeeded entries
  .ok (handlerSet, startThreadPools pools)

end Globals

/-- What the threads of the container share: the handlers, the pools, and what is going on
about each request. `dropped` are the requests that were left without an answer: because
their dispatch was broken off by an exception that is only logged, or because the server was
stopped when they came. -/
structure Container (γ η φ : Type) where
  handlers : HandlerSet η φ
  pools : Globals.ThreadPoolMap (QueuedTask η φ)
  requests : List (Conversation γ)
  dropped : List Nat

namespace Container

variable {γ η φ : Type}

/-- The handlers that are looked for when there were none before the filters. -/
def futureHandlers (handlers : HandlerSet η φ) (components : Components γ η φ) (conversation : Conversation γ) :
    Except Raised (List (Handler γ)) :=
  match handlers.findURIHandler conversation.exchange.request with
  | .error exn => .error (.standard exn)
  | .ok none => .error (.http 404)
  | .ok (some handler) =>
      if handler.handlers.isEmpty then .error (.http 404) else .ok (handler.handlers.map components.handler)

def requestTask (handlers : HandlerSet η φ) (components : Components γ η φ) (task : QueuedTask η φ)
    (dispatch : FilterChain.Action (Conversation γ) Raised) : RequestTask γ :=
  ⟨task.filters.map components.filter, task.handlers.map components.handler,
    some (futureHandlers handlers components), some dispatch, task.start⟩

variable (container : Container γ η φ)

def setConversation (request : Nat) (conversation : Conversation γ) : Container γ η φ :=
  { container with requests := container.requests.set request conversation }

def answer (request : Nat) (call : Exchange → Exchange.Outcome) : Container γ η φ × Option Raised :=
  match container.requests[request]? with
  | none => (container, none)
  | some conversation =>
      let (conversation, raised) := conversation.through (call conversation.exchange)
      (container.setConversation request conversation, raised)

/-- What both forms of `handleRequestInternal` do with a task. -/
def addToPool (poolName : Bytes) (task : QueuedTask η φ) (now : Int) (copying : Except Exn Unit) :
    Container γ η φ × Option Raised :=
  match container.pools.find? poolName with
  | none => (container, some (.standard (.undefined "the end of the pools is dereferenced")))
  | some (pool, settings) =>
      match pool.addTask { task with start := now + milliseconds settings.delay } copying with
      | (pool, .ok ()) => ({ container with pools := container.pools.assign poolName (pool, settings) }, none)
      | (_, .error _) => container.answer task.request (fun exchange => exchange.sendError 503)

/-- `Server::handleRequest`, and `dispatch` of the task: a request without handlers goes
through its filters first, which may give it another URL. -/
def dispatch (request : Nat) (now : Int) (copying : Except Exn Unit) : Container γ η φ × Option Raised :=
  match container.requests[request]? with
  | none => (container, none)
  | some conversation =>
      match container.handlers.findURIFilters conversation.exchange.request [] with
      | .error exn => (container, some (.standard exn))
      | .ok filters =>
          match container.handlers.findURIHandler conversation.exchange.request with
          | .error exn => (container, some (.standard exn))
          | .ok handler =>
              match handler.filter (fun handler => !handler.handlers.isEmpty) with
              | some handler =>
                  container.addToPool handler.poolName ⟨request, filters, handler.handlers, 0⟩ now copying
              | none =>
                  if filters.isEmpty then container.answer request (fun exchange => exchange.sendError 404)
                  else container.addToPool container.handlers.defaultPoolName ⟨request, filters, [], 0⟩ now copying

def drop (request : Nat) : Container γ η φ := { container with dropped := container.dropped ++ [request] }

def updatePool (poolName : Bytes) (change : ThreadPool (QueuedTask η φ) → ThreadPool (QueuedTask η φ)) :
    Container γ η φ :=
  match container.pools.find? poolName with
  | none => container
  | some (pool, settings) => { container with pools := container.pools.assign poolName (change pool, settings) }

def taskAt (poolName : Bytes) (index : Nat) :
    Option (RequestsThreadPool × QueuedTask η φ × Conversation γ) := do
  let (pool, settings) ← container.pools.find? poolName
  match pool.workers[index]? with
  | some (.handling task) => do
      let conversation ← container.requests[task.request]?
      some (settings, task, conversation)
  | _ => none

/-- A thread of a pool handles its task, up to the end of `handleTask`. The times are those
of the check of the delay and of a new dispatch. -/
def handle (poolName : Bytes) (index : Nat) (now later : Int) (components : Components γ η φ)
    (copying : Except Exn Unit) : Container γ η φ :=
  match container.taskAt poolName index with
  | none => container
  | some (settings, task, conversation) =>
      match settings.handled now (requestTask container.handlers components task (fun conversation =>
        (conversation, none))) conversation with
      | .ended conversation raised =>
          (container.setConversation task.request conversation).updatePool poolName
            (fun pool => pool.finish index raised.isNone)
      | .unrestored conversation _ =>
          ((container.setConversation task.request conversation).drop task.request).updatePool poolName
            (fun pool => pool.finish index false)
      | .dispatched conversation =>
          match (container.setConversation task.request conversation).dispatch task.request later copying with
          | (container, none) => container.updatePool poolName (fun pool => pool.finish index true)
          | (container, some _) =>
              (container.drop task.request).updatePool poolName (fun pool => pool.finish index false)

/-- What a connection brings: the variables, the body, the cache for large bodies, and the
buffers as they are then. -/
structure Incoming where
  env : List Bytes
  stream : RequestIOStream
  cache : Option RequestCache
  heap : Heap

def newConversation (heap : Heap) : Conversation γ := ⟨⟨Request.fresh, []⟩, [], .empty, heap⟩

/-- `FastcgiRequest::attach`. What a request has read when it throws is of no use to the page
of the error. -/
def attach (keepConnection : Bool) (incoming : Incoming) : Except Exn (Conversation γ) := do
  let request ← if keepConnection then .ok Request.fresh
    else Request.fresh.setHeader (ascii "Connection") (ascii "close")
  let (request, _, heap) ← request.attach incoming.cache incoming.stream incoming.heap incoming.env
  .ok { newConversation heap with exchange := ⟨request, []⟩ }

def serve (request : Nat) (keepConnection : Bool) (incoming : Incoming) (now : Int) (copying : Except Exn Unit) :
    Container γ η φ :=
  match attach keepConnection incoming with
  | .error _ => (container.answer request (fun exchange => exchange.sendError 400)).1
  | .ok conversation =>
      match (container.setConversation request conversation).dispatch request now copying with
      | (container, none) => container
      | (container, some _) => (container.answer request (fun exchange => exchange.sendError 500)).1

def accept : Container γ η φ :=
  { container with requests := container.requests ++ [newConversation []] }

/-- The thread of the request cache takes up a stored request. Exceptions are logged, and what
is written to the client reaches nobody. -/
def replay (image : DataBuffer) (heap : Heap) (now : Int) (copying : Except Exn Unit) : Container γ η φ :=
  match Request.fresh.parse heap image with
  | .error _ => container
  | .ok request =>
      let next := { container with
        requests := container.requests ++ [{ newConversation heap with exchange := ⟨request, []⟩ }] }
      match next.dispatch container.requests.length now copying with
      | (container, none) => container
      | (next, some _) => next.drop container.requests.length

end Container

/-- Where a thread of an endpoint is in the loop of `handle`: at its beginning, before
`accept`, in it, with a request, and where the counter is destroyed. -/
inductive EndpointThread where
  | idle
  | preparing (counter : Endpoint.ScopedBusyCounter)
  | accepting (counter : Endpoint.ScopedBusyCounter)
  | serving (counter : Endpoint.ScopedBusyCounter) (request : Nat)
  | leaving (counter : Endpoint.ScopedBusyCounter) (returns : Bool)
  | returned
  deriving DecidableEq, Repr

structure EndpointThreads where
  endpoint : Endpoint
  threads : List EndpointThread

structure FCGIServer (γ η φ : Type) where
  container : Container γ η φ
  endpoints : List EndpointThreads
  stopped : Bool

namespace FCGIServer

variable {γ η φ : Type}

/-- The steps of the threads of the container. A thread of an endpoint is named by the
endpoint and its own number. -/
inductive Action (γ η φ : Type) where
  | begin (endpoint thread : Nat)
  | prepare (endpoint thread : Nat) (succeeds : Bool)
  | accept (endpoint thread : Nat) (succeeds : Bool)
  | serve (endpoint thread : Nat) (incoming : Container.Incoming) (now : Int) (copying : Except Exn Unit)
  | leave (endpoint thread : Nat)
  | replay (image : DataBuffer) (heap : Heap) (now : Int) (copying : Except Exn Unit)
  | acquire (pool : Bytes) (index : Nat) (copied : Bool)
  | handle (pool : Bytes) (index : Nat) (now later : Int) (components : Components γ η φ)
      (copying : Except Exn Unit)
  | stop
  | stopPool (pool : Bytes)

def move (threads : EndpointThreads) (thread : Nat) (endpoint : Endpoint) (place : EndpointThread) :
    EndpointThreads :=
  ⟨endpoint, threads.threads.set thread place⟩

def begin (stopped : Bool) (threads : EndpointThreads) (thread : Nat) : EndpointThreads :=
  match threads.threads[thread]? with
  | some .idle =>
      if stopped then move threads thread threads.endpoint .returned
      else
        let (counter, endpoint) := Endpoint.ScopedBusyCounter.create threads.endpoint
        move threads thread endpoint (.preparing counter)
  | _ => threads

/-- The objects for the next request are made, and the thread is not busy until it comes. -/
def prepare (threads : EndpointThreads) (thread : Nat) (succeeds : Bool) : Except Exn EndpointThreads :=
  match threads.threads[thread]? with
  | some (.preparing counter) =>
      if succeeds then do
        let (counter, endpoint) ← counter.decrement threads.endpoint
        .ok (move threads thread endpoint (.accepting counter))
      else .ok (move threads thread threads.endpoint (.leaving counter false))
  | _ => .ok threads

def leave (threads : EndpointThreads) (thread : Nat) : Except Exn EndpointThreads :=
  match threads.threads[thread]? with
  | some (.leaving counter returns) => do
      let (_, endpoint) ← counter.decrement threads.endpoint
      .ok (move threads thread endpoint (if returns then .returned else .idle))
  | _ => .ok threads

/-- The call of `accept` returns; the answer says whether there is a request. After the stop
the thread leaves the loop and lets it go. -/
def accepted (stopped : Bool) (threads : EndpointThreads) (thread : Nat) (succeeds : Bool) (request : Nat) :
    EndpointThreads × Bool :=
  match threads.threads[thread]? with
  | some (.accepting counter) =>
      if stopped then (move threads thread threads.endpoint (.leaving counter true), succeeds)
      else if !succeeds then (move threads thread threads.endpoint (.leaving counter false), false)
      else
        let (counter, endpoint) := counter.increment threads.endpoint
        (move threads thread endpoint (.serving counter request), true)
  | _ => (threads, false)

def servedBy (threads : EndpointThreads) (thread : Nat) : Option (Endpoint.ScopedBusyCounter × Nat) :=
  match threads.threads[thread]? with
  | some (.serving counter request) => some (counter, request)
  | _ => none

variable (server : FCGIServer γ η φ)

def setEndpoint (endpoint : Nat) (threads : EndpointThreads) : FCGIServer γ η φ :=
  { server with endpoints := server.endpoints.set endpoint threads }

/-- A step of the server. An error is a failed assertion, which ends the program. -/
def step (action : Action γ η φ) : Except Exn (FCGIServer γ η φ) :=
  match action with
  | .begin endpoint thread =>
      match server.endpoints[endpoint]? with
      | none => .ok server
      | some threads => .ok (server.setEndpoint endpoint (begin server.stopped threads thread))
  | .prepare endpoint thread succeeds =>
      match server.endpoints[endpoint]? with
      | none => .ok server
      | some threads => do
          let threads ← prepare threads thread succeeds
          .ok (server.setEndpoint endpoint threads)
  | .accept endpoint thread succeeds =>
      match server.endpoints[endpoint]? with
      | none => .ok server
      | some threads =>
          match accepted server.stopped threads thread succeeds server.container.requests.length with
          | (threads, false) => .ok (server.setEndpoint endpoint threads)
          | (threads, true) =>
              let container := server.container.accept
              .ok { server.setEndpoint endpoint threads with
                container := if server.stopped then container.drop server.container.requests.length else container }
  | .serve endpoint thread incoming now copying =>
      match server.endpoints[endpoint]? with
      | none => .ok server
      | some threads =>
          match servedBy threads thread with
          | none => .ok server
          | some (counter, request) =>
              .ok { server.setEndpoint endpoint (move threads thread threads.endpoint (.leaving counter false)) with
                container := server.container.serve request threads.endpoint.keepConnection incoming now copying }
  | .leave endpoint thread =>
      match server.endpoints[endpoint]? with
      | none => .ok server
      | some threads => do
          let threads ← leave threads thread
          .ok (server.setEndpoint endpoint threads)
  | .replay image heap now copying =>
      .ok { server with container := server.container.replay image heap now copying }
  | .acquire pool index copied =>
      .ok { server with
        container := server.container.updatePool pool (fun pool => (pool.acquire index copied).1) }
  | .handle pool index now later components copying =>
      .ok { server with container := server.container.handle pool index now later components copying }
  | .stop => .ok { server with stopped := true }
  | .stopPool pool => .ok { server with container := server.container.updatePool pool ThreadPool.stop }

def run (actions : List (Action γ η φ)) : Except Exn (FCGIServer γ η φ) := actions.foldlM step server

def start (globals : HandlerSet η φ × Globals.ThreadPoolMap (QueuedTask η φ)) (endpoints : List (Nat × Bool)) :
    FCGIServer γ η φ :=
  ⟨⟨globals.1, globals.2, [], []⟩,
    endpoints.map (fun endpoint => ⟨⟨0, endpoint.1, endpoint.2⟩, List.replicate endpoint.1 .idle⟩), false⟩

end FCGIServer

end FastcgiContainer
