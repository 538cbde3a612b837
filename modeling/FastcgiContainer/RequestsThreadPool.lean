import FastcgiContainer.FilterChain
import FastcgiContainer.ResponseRuns
import FastcgiContainer.RequestSerializer

/-! `RequestsThreadPool`: how a worker handles the task of a request, and how the server
prepares it. -/

namespace FastcgiContainer

open Word (Bytes)
open FilterChain (Running Behaviour)

inductive DispatchType where
  | append
  | forward
  deriving DecidableEq, Repr

structure DispatchException where
  type : DispatchType
  url : Bytes
  buffer : DataBuffer

/-- What may leave the filters and handlers of a task. -/
inductive Raised where
  | dispatch (exn : DispatchException)
  | http (status : UInt16)
  | standard (exn : Exn)
  | unknown

/-- What filters and handlers work on. The response stream is carried as the text that was
written to it and not read yet. -/
structure Conversation (γ : Type) where
  exchange : Exchange
  responseStream : Bytes
  context : OrderedMap Bytes γ stringLess
  heap : Heap

namespace Conversation

variable {γ : Type}

def reset (conversation : Conversation γ) : Conversation γ := { conversation with responseStream := [] }

/-- `RequestStream::flush`. The text of a HEAD request is not written, and stays unread. -/
def flush (conversation : Conversation γ) : Conversation γ × Option Exn :=
  if conversation.responseStream.isEmpty then (conversation, none)
  else
    match conversation.exchange.write conversation.responseStream with
    | (exchange, some exn) => ({ conversation with exchange := exchange }, some exn)
    | (exchange, none) =>
        ({ conversation with
          exchange := exchange
          responseStream :=
            if exchange.request.getRequestMethod = ascii "HEAD" then conversation.responseStream else [] },
          none)

/-- A call on the exchange, from which exceptions of the library pass. -/
def through (conversation : Conversation γ) (outcome : Exchange.Outcome) : Conversation γ × Option Raised :=
  ({ conversation with exchange := outcome.1 }, outcome.2.map .standard)

end Conversation

/-- What a filter or a handler may do to a conversation. -/
inductive ChainCall (γ : Type) where
  | respond (call : ResponseCall)
  | flush
  | text (responseStream : Bytes)
  | other (request : Request) (context : OrderedMap Bytes γ stringLess) (heap : Heap)

/-- A change to a request that concerns neither its response nor its variables. -/
def Request.besidesResponse (request changed : Request) : Request :=
  { changed with
    headersSent := request.headersSent
    status := request.status
    vars := request.vars
    outHeaders := request.outHeaders
    outCookies := request.outCookies }

namespace Conversation

variable {γ : Type}

def perform (conversation : Conversation γ) : ChainCall γ → Conversation γ
  | .respond call => { conversation with exchange := (conversation.exchange.perform call).1 }
  | .flush => conversation.flush.1
  | .text responseStream => { conversation with responseStream := responseStream }
  | .other request context heap =>
      { conversation with
        exchange :=
          { conversation.exchange with
            request := conversation.exchange.request.besidesResponse request }
        context := context
        heap := heap }

def run (conversation : Conversation γ) (calls : List (ChainCall γ)) : Conversation γ :=
  calls.foldl perform conversation

end Conversation

/-- A handler reaches the client through its calls only. -/
structure Handler (γ : Type) where
  handleRequest : FilterChain.Action (Conversation γ) Raised
  calls : ∀ conversation, ∃ calls, (handleRequest conversation).1 = conversation.run calls

def CallsOnly {γ : Type} (action : FilterChain.Action (Running (Conversation γ) (Handler γ)) Raised) : Prop :=
  ∀ running, ∃ calls, (action running).1.world = running.world.run calls

/-- A filter adds calls of its own to those of the next function. -/
structure Filter (γ : Type) where
  doFilter : FilterChain.Action (Running (Conversation γ) (Handler γ)) Raised →
    FilterChain.Action (Running (Conversation γ) (Handler γ)) Raised
  calls : ∀ next, CallsOnly next → CallsOnly (doFilter next)

/-- Times are counted in nanoseconds of the steady clock. -/
structure RequestTask (γ : Type) where
  filters : List (Filter γ)
  handlers : List (Handler γ)
  futureHandlers : Option (Conversation γ → Except Raised (List (Handler γ)))
  dispatch : Option (FilterChain.Action (Conversation γ) Raised)
  start : Int

def milliseconds (value : Int) : Int := value * 1000000

/-- The delay is given in milliseconds. -/
structure RequestsThreadPool where
  delay : Int

namespace RequestsThreadPool

variable {γ : Type}

def behaviour (task : RequestTask γ) : Behaviour (Conversation γ) Raised (Handler γ) (Filter γ) where
  isProcessed conversation := conversation.exchange.request.processed
  handleRequest handler := handler.handleRequest
  doFilter filter := filter.doFilter
  futureHandlers := task.futureHandlers.map (fun futureHandlers conversation =>
    (conversation, futureHandlers conversation))

/-- Filters and handlers find an empty response stream and a new context. -/
def begun (conversation : Conversation γ) : Conversation γ := { conversation.reset with context := .empty }

def chain (task : RequestTask γ) (conversation : Conversation γ) : Conversation γ × Option Raised :=
  let (running, raised) :=
    FilterChain.execute (behaviour task) task.filters ⟨begun conversation, task.handlers⟩
  (running.world, raised)

def finish (conversation : Conversation γ) : Conversation γ × Option Raised :=
  match conversation.flush with
  | (conversation, some exn) => (conversation, some (.standard exn))
  | (conversation, none) => conversation.reset.through conversation.exchange.sendHeaders

/-- The status is set in order to learn whether headers were sent; if so, the exception is
thrown again. -/
def sendErrorUnlessSent (conversation : Conversation γ) (raised : Raised) (status : UInt16) :
    Conversation γ × Option Raised :=
  match conversation.exchange.request.setStatus 500 with
  | .error _ => (conversation, some raised)
  | .ok request =>
      conversation.through (Exchange.sendError { conversation.exchange with request := request } status.toNat)

def setScriptName (request : Request) (url : Bytes) : Request :=
  if url.isEmpty then request else { request with vars := request.vars.assign (ascii "SCRIPT_NAME") url }

def dispatchTask (task : RequestTask γ) (conversation : Conversation γ) (exn : DispatchException) :
    Conversation γ × Option Raised :=
  let request := conversation.exchange.request
  let what := "Error while dispatching request " ++ quoted request.getURI
  match task.dispatch with
  | none => (conversation, some (.standard (.runtimeError (what ++ ": dispatcher is not assigned"))))
  | some dispatch =>
      if request.headersSent then
        (conversation, some (.standard (.runtimeError (what ++ ": headers already sent"))))
      else
        let conversation := if exn.type = .forward then conversation.reset else conversation
        match (if exn.buffer.isNil then .ok request else request.restore conversation.heap exn.buffer) with
        | .error wrong => (conversation, some (.standard wrong))
        | .ok request =>
            dispatch { conversation with
              exchange := { conversation.exchange with request := setScriptName request exn.url } }

def caught (task : RequestTask γ) (conversation : Conversation γ) : Raised → Conversation γ × Option Raised
  | .dispatch exn => dispatchTask task conversation exn
  | .http status => sendErrorUnlessSent conversation (.http status) status
  | .standard exn => sendErrorUnlessSent conversation (.standard exn) 500
  | .unknown => sendErrorUnlessSent conversation .unknown 500

/-- Exceptions that leave the function are logged on their way. -/
def handleTask (pool : RequestsThreadPool) (now : Int) (task : RequestTask γ) (conversation : Conversation γ) :
    Conversation γ × Option Raised :=
  if now - task.start < milliseconds pool.delay then
    conversation.through (conversation.exchange.sendError 503)
  else
    match FilterChain.andThen (chain task) finish conversation with
    | (conversation, none) => (conversation, none)
    | (conversation, some raised) => caught task conversation raised

end RequestsThreadPool

namespace Server

variable {γ : Type}

/-- The task that is added to the pool at a time; a request without handlers gets none. -/
def handleRequestInternal (pool : RequestsThreadPool) (now : Int) (filters : List (Filter γ))
    (handlers : List (Handler γ)) (task : RequestTask γ) : Option (RequestTask γ) :=
  if handlers.isEmpty then none
  else some { task with
    filters := filters
    handlers := handlers
    start := now + milliseconds pool.delay }

def handleRequestByFilters (pool : RequestsThreadPool) (now : Int) (filters : List (Filter γ))
    (task : RequestTask γ) : RequestTask γ :=
  { task with
    filters := filters
    handlers := []
    start := now + milliseconds pool.delay }

end Server

end FastcgiContainer
