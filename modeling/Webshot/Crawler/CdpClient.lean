import Webshot.Crawler.CdpMessages
import Webshot.Foundation.JsonText
import Webshot.Foundation.KeyedMaps

/-! `CdpClient`: any number of commands and sessions, one reader and the calls that stop the client.
A step is what one of them does while it holds a lock, and the steps interleave freely. -/
namespace Webshot.Crawler
open Text Foundation.JsonText Foundation.KeyedMaps

structure CdpPendingRequest where
  method : Bytes
  sessionId : Option Bytes
  ignoreResponse : Bool

/-- `PendingCommandWaiter::Data`, with a count of how often it was completed. A result may be a
missing value. -/
structure PendingCommandWaiter where
  result : Option (Option Json) := none
  error : Option CdpError := none
  done : Bool := false
  completions : Nat := 0

structure CdpSessionState where
  events : List CdpEvent := []
  error : Option CdpError := none
  stopped : Bool := false

/-- Waiters and sessions are referred to by number, one for each call of `SendRaw` or `MakeSession`. -/
structure SharedState where
  pendingWaiters : KeyedMap Int Nat := ∅
  sessionsById : KeyedMap Bytes Nat := ∅
  sessionsByTargetId : KeyedMap Bytes Nat := ∅
  pendingRequests : KeyedMap Int CdpPendingRequest := ∅
  nextRequestId : Int := 1
  fatalError : Option CdpError := none
  stopping : Bool := false
  stopped : Bool := false

/-- Where a call of `SendRaw` stands. -/
inductive CommandPhase where
  | notCalled
  | registered (id : Int)
  | sendFailed (id : Int)
  | waiting (id : Int)
  | waitOver (id : Int)
  | relocking (id : Int)
  | expired (id : Int)
  | returned (id : Option Int) (outcome : Except CdpError (Option Json))
  | threw (id : Int)

/-- Where the reader stands. A claimed waiter is traced before it is completed; `died` is an exception out of
`ReaderLoop`, with the claimed waiter that it leaves behind, if any. -/
inductive ReaderPhase where
  | receiving
  | completing (waiter : Nat) (id : Int) (reply : Except CdpError (Option Json))
  | delivering (session : Nat) (event : CdpEvent)
  | failing
  | ended
  | died (owed : Option (Nat × Int × Except CdpError (Option Json)))

inductive StopPhase where
  | notCalled
  | closing
  | closeFailed
  | returned
  | threw
  deriving DecidableEq

/-- The life of a session object. -/
inductive OwnerPhase where
  | notMade
  | refused (error : CdpError)
  | attached (sessionId targetId : Bytes)
  | unregistered
  | destroyed

/-- Who may call `SetFatalError`. -/
inductive Caller where
  | command (c : Nat)
  | reader
  | stop (k : Nat)
  deriving DecidableEq

/-- Where a call of `SetFatalError` stands. -/
inductive FatalCall where
  | notCalled
  | entering (error : CdpError)
  | completing (error : CdpError) (waiters sessions : List Nat)
  | returned

/-- What was received and delivered so far. -/
structure History where
  received : List (Int × Option Json) := []
  routed : Nat → List CdpEvent := fun _ => []
  delivered : Nat → List CdpEvent := fun _ => []

structure System where
  shared : SharedState := {}
  waiters : Nat → PendingCommandWaiter := fun _ => {}
  sessions : Nat → CdpSessionState := fun _ => {}
  commands : Nat → CommandPhase := fun _ => .notCalled
  reader : ReaderPhase := .receiving
  stops : Nat → StopPhase := fun _ => .notCalled
  owners : Nat → OwnerPhase := fun _ => .notMade
  fatalCalls : Caller → FatalCall := fun _ => .notCalled
  aborted : Bool := false
  history : History := {}

/-- What the reader is writing to the trace: the response it has claimed a waiter for, another message, the close of
the connection, or a failure of `Recv`. -/
inductive Traced where
  | response
  | message (payload : Bytes)
  | close (closeCode : Nat)
  | recv (what : Bytes)

inductive Action where
  | sendRaw (c : Nat) (method : Bytes) (sessionId : Option Bytes)
  | stringifyFails (c : Nat)
  | sent (c : Nat)
  | sendFails (c : Nat) (what : Bytes)
  | sendThrows (c : Nat)
  | sendFailureDone (c : Nat)
  | wake (c : Nat)
  | waitUntilFails (c : Nat)
  | giveUp (c : Nat)
  | relock (c : Nat)
  | receive (payload : Bytes)
  | receiveClose (closeCode : Nat)
  | receiveThrows (cancelRequested : Bool) (what : Bytes)
  | completeWaiter
  | traceThrows (traced : Traced)
  | deliverEvent
  | endReader
  | setFatalError (caller : Caller)
  | stop (k : Nat)
  | closed (k : Nat)
  | closeFails (k : Nat) (what : Bytes)
  | stopThrows (k : Nat)
  | closeFailureDone (k : Nat)
  | stopQuietly
  | makeSession (k : Nat) (sessionId targetId : Bytes)
  | waitEvent (k : Nat)
  | waitEventTimeout (k : Nat)
  | drainEvents (k : Nat)
  | unregisterSession (k : Nat)
  | markUnregistered (k : Nat)

def makeTimeoutError (message : Bytes) : CdpError := ⟨.timeout, some message⟩

def makeSocketClosedError (detail : Bytes) : CdpError := ⟨.socketClosed, some detail⟩

def commandTimeout : CdpError := makeTimeoutError (ascii "timed out waiting for cdp response")

namespace SharedState
variable (state : SharedState)

/-- The request and its waiter leave the maps. -/
def forget (id : Int) : SharedState :=
  { state with pendingRequests := state.pendingRequests.erase id, pendingWaiters := state.pendingWaiters.erase id }

def closing : Bool := state.stopping || state.stopped

end SharedState

/-- What a response does while the shared state is locked. -/
inductive Taken where
  | dropped
  | failed (error : CdpError)
  | missingWaiter
  | threw
  | aborted
  | consumed (state : SharedState)
  | claimed (state : SharedState) (waiter : Nat) (reply : Except CdpError (Option Json))

/-- The part after the request was found and its error, if any, was read. -/
def claimWaiter (state : SharedState) (id : Int) (request : CdpPendingRequest) (reply : Except CdpError (Option Json)) :
    Taken :=
  if request.ignoreResponse then .consumed (state.forget id)
  else
    match state.pendingWaiters.lookup id with
    | none => if state.closing || state.fatalError.isSome then .dropped else .missingWaiter
    | some waiter => .claimed (state.forget id) waiter reply

def takeResponse (p : CdpParsers) (state : SharedState) (id : Int) (error result : Option Json) : Taken :=
  match state.pendingRequests.lookup id with
  | none =>
    if state.closing || state.fatalError.isSome then .dropped
    else .failed ⟨.protocol, some (ascii "cdp response for unknown request id " ++ intText id)⟩
  | some request =>
    match error with
    | none => claimWaiter state id request (.ok result)
    | some error =>
      match p.getErrorMessage error with
      | .text message => claimWaiter state id request (.error ⟨.commandFailed, some message⟩)
      | .failed e => .failed e
      | .threw => .threw
      | .aborted => .aborted

/-- By session id if that is registered, else by target id. -/
def routeEvent (state : SharedState) (routingSessionId routingTargetId : Option Bytes) : Option Nat :=
  match routingSessionId.bind state.sessionsById.lookup with
  | some session => some session
  | none => routingTargetId.bind state.sessionsByTargetId.lookup

namespace PendingCommandWaiter
variable (waiter : PendingCommandWaiter)

def complete : Except CdpError (Option Json) → PendingCommandWaiter
  | .ok result => { waiter with result := some result, done := true, completions := waiter.completions + 1 }
  | .error error => { waiter with error := some error, done := true, completions := waiter.completions + 1 }

/-- What `SendRaw` returns of a waiter it has locked; the outer `none` is its failed invariant. -/
def outcome : Option (Except CdpError (Option Json)) :=
  if waiter.done then
    match waiter.error, waiter.result with
    | some error, _ => some (.error error)
    | none, some result => some (.ok result)
    | none, none => none
  else some (.error commandTimeout)

end PendingCommandWaiter

namespace CdpSessionState
variable (session : CdpSessionState)

def ready : Bool := !session.events.isEmpty || session.error.isSome || session.stopped

/-- A session that failed or was stopped takes no more events. -/
def push (event : CdpEvent) : CdpSessionState :=
  if session.stopped || session.error.isSome then session else { session with events := session.events ++ [event] }

/-- What `WaitForSessionEvent` returns of a session that is ready; the outer `none` is its failed invariant. -/
def next : Option (Except CdpError CdpEvent) :=
  match session.error with
  | some error => some (.error error)
  | none =>
    if session.stopped then some (.error (makeSocketClosedError (ascii "cdp session is stopped")))
    else session.events.head?.map .ok

def fail (error : CdpError) : CdpSessionState := { session with error := some error, stopped := true }

def unregister : CdpSessionState :=
  { session with
    stopped := true
    error := session.error.or (some (makeSocketClosedError (ascii "cdp session is stopped"))) }

end CdpSessionState

namespace System
variable (s : System)

def setCommand (c : Nat) (phase : CommandPhase) : System := { s with commands := Function.update s.commands c phase }

def setOwner (k : Nat) (phase : OwnerPhase) : System := { s with owners := Function.update s.owners k phase }

def setStop (k : Nat) (phase : StopPhase) : System := { s with stops := Function.update s.stops k phase }

def setSession (k : Nat) (session : CdpSessionState) : System :=
  { s with sessions := Function.update s.sessions k session }

def setFatalCall (caller : Caller) (call : FatalCall) : System :=
  { s with fatalCalls := Function.update s.fatalCalls caller call }

def complete (waiter : Nat) (reply : Except CdpError (Option Json)) : System :=
  { s with waiters := Function.update s.waiters waiter ((s.waiters waiter).complete reply) }

/-- Events handed to the owner of a session, who leaves the others in the queue. -/
def handOver (k : Nat) (events rest : List CdpEvent) : System :=
  { s with
    sessions := Function.update s.sessions k { s.sessions k with events := rest }
    history.delivered := Function.update s.history.delivered k (s.history.delivered k ++ events) }

def abort : System := { s with aborted := true }

/-- `SendRaw` up to the registration of its request. -/
def sendRaw (c : Nat) (method : Bytes) (sessionId : Option Bytes) : System :=
  match s.shared.fatalError with
  | some error => s.setCommand c (.returned none (.error error))
  | none =>
    if s.shared.closing then
      s.setCommand c (.returned none (.error (makeSocketClosedError (ascii "cdp socket is closed"))))
    else if s.shared.nextRequestId ∈ s.shared.pendingRequests then s.abort
    else
      { s with
        shared := { s.shared with
          nextRequestId := s.shared.nextRequestId + 1
          pendingRequests := s.shared.pendingRequests.insert s.shared.nextRequestId ⟨method, sessionId, false⟩
          pendingWaiters := emplace s.shared.pendingWaiters s.shared.nextRequestId c }
        commands := Function.update s.commands c (.registered s.shared.nextRequestId) }

/-- The wait for the response is over: a request that is still pending is marked and left behind. -/
def giveUp (c : Nat) (id : Int) : System :=
  match s.shared.pendingRequests.lookup id with
  | some request =>
    { s with
      shared := { s.shared with
        pendingRequests := s.shared.pendingRequests.insert id { request with ignoreResponse := true }
        pendingWaiters := s.shared.pendingWaiters.erase id }
      commands := Function.update s.commands c (.expired id) }
  | none => s.setCommand c (.relocking id)

/-- The end of `SendRaw`, with its waiter locked. -/
def readWaiter (c : Nat) (id : Int) : System :=
  match (s.waiters c).outcome with
  | some outcome => s.setCommand c (.returned (some id) outcome)
  | none => s.abort

/-- The reader calls `SetFatalError` and will then return. -/
def failReader (error : CdpError) : System :=
  { s.setFatalCall .reader (.entering error) with reader := .failing }

def missingWaiterError (id : Int) : CdpError :=
  ⟨.protocol, some (ascii "missing cdp waiter for request id " ++ intText id)⟩

/-- A response was received. -/
def note (id : Int) (result : Option Json) : System :=
  { s with history.received := s.history.received ++ [(id, result)] }

/-- The rest of `HandleMessage` for a response. -/
def handleResponse (id : Int) : Taken → System
  | .dropped => s
  | .failed error => s.failReader error
  | .missingWaiter => s.failReader (missingWaiterError id)
  | .threw => { s with reader := .died none }
  | .aborted => s.abort
  | .consumed state => { s with shared := state }
  | .claimed state waiter reply => { s with shared := state, reader := .completing waiter id reply }

/-- `HandleMessage` as far as the shared state is locked. -/
def handleMessage (p : CdpParsers) (payload : Bytes) : System :=
  match p.decodeMessage payload with
  | .failed error => s.failReader error
  | .threw => { s with reader := .died none }
  | .response id error result =>
    (s.note id result).handleResponse id (takeResponse p s.shared id error result)
  | .event routingSessionId routingTargetId event =>
    match routeEvent s.shared routingSessionId routingTargetId with
    | none => s
    | some session =>
      { s with
        reader := .delivering session event
        history.routed := Function.update s.history.routed session (s.history.routed session ++ [event]) }

/-- A trace write of the reader throws what `WriteTraceBytes` does not catch: the reader was cancelled meanwhile. A
response is traced after its request has left the maps, an event before it is routed. -/
def traceThrows (p : CdpParsers) : Traced → Option System
  | .response =>
    match s.reader with
    | .completing waiter id reply => some { s with reader := .died (some (waiter, id, reply)) }
    | _ => none
  | .message payload =>
    match s.reader, p.decodeMessage payload with
    | .receiving, .response id error result =>
      match takeResponse p s.shared id error result with
      | .consumed state => some { s.note id result with shared := state, reader := .died none }
      | _ => none
    | .receiving, .event _ _ _ => some { s with reader := .died none }
    | _, _ => none
  | .close _ =>
    match s.reader with
    | .receiving => some { s with reader := .died none }
    | _ => none
  | .recv what =>
    match s.reader, fromBytes p.una what with
    | .receiving, some _ => some { s with reader := .died none }
    | _, _ => none

/-- The locked part of `SetFatalError`: the first call takes the waiters and the sessions out of the maps. -/
def enterFatal (caller : Caller) (error : CdpError) : System :=
  if s.shared.fatalError.isSome then s.setFatalCall caller .returned
  else
    { s.setFatalCall caller (.completing error (values s.shared.pendingWaiters) (values s.shared.sessionsById)) with
      shared := { s.shared with
        fatalError := some error
        stopped := true
        pendingWaiters := ∅
        pendingRequests := ∅
        sessionsById := ∅
        sessionsByTargetId := ∅ } }

/-- One stretch of a call of `SetFatalError`. -/
def stepFatal (caller : Caller) : Option System :=
  match s.fatalCalls caller with
  | .entering error => some (s.enterFatal caller error)
  | .completing error (waiter :: waiters) sessions =>
    some ((s.complete waiter (.error error)).setFatalCall caller (.completing error waiters sessions))
  | .completing error [] (session :: sessions) =>
    some ((s.setSession session ((s.sessions session).fail error)).setFatalCall caller (.completing error [] sessions))
  | .completing _ [] [] => some (s.setFatalCall caller .returned)
  | _ => none

/-- `Stop` up to the close of the connection. -/
def stop (k : Nat) : System :=
  if s.shared.stopped || s.shared.fatalError.isSome then
    { s.setStop k .returned with shared := { s.shared with stopping := true, stopped := true } }
  else { s.setStop k .closing with shared := { s.shared with stopping := true } }

def makeSession (k : Nat) (sessionId targetId : Bytes) : System :=
  match s.shared.fatalError with
  | some error => s.setOwner k (.refused error)
  | none =>
    if s.shared.closing then s.setOwner k (.refused (makeSocketClosedError (ascii "cdp socket is closed")))
    else
      { s.setOwner k (.attached sessionId targetId) with
        shared := { s.shared with
          sessionsById := emplace s.shared.sessionsById sessionId k
          sessionsByTargetId := emplace s.shared.sessionsByTargetId targetId k } }

def waitEvent (k : Nat) : System :=
  match (s.sessions k).next with
  | some (.error _) => s
  | some (.ok event) => s.handOver k [event] (s.sessions k).events.tail
  | none => s.abort

/-- An entry goes only if it is the session's own. -/
def eraseOwn (m : KeyedMap Bytes Nat) (key : Bytes) (k : Nat) : KeyedMap Bytes Nat :=
  if m.lookup key = some k then m.erase key else m

def unregisterSession (k : Nat) (sessionId targetId : Bytes) : System :=
  { s.setOwner k .unregistered with
    shared := { s.shared with
      sessionsById := eraseOwn s.shared.sessionsById sessionId k
      sessionsByTargetId := eraseOwn s.shared.sessionsByTargetId targetId k } }

end System

/-- One step of one party; an aborted process takes none. -/
def step (p : CdpParsers) (s : System) (action : Action) : Option System :=
  if s.aborted then none
  else
    match action with
    | .sendRaw c method sessionId =>
      match s.commands c with
      | .notCalled => some (s.sendRaw c method sessionId)
      | _ => none
    | .stringifyFails c =>
      match s.commands c with
      | .registered id => some (s.setCommand c (.returned (some id) (.error ⟨.protocol, none⟩)))
      | _ => none
    | .sent c =>
      match s.commands c with
      | .registered id => some (s.setCommand c (.waiting id))
      | _ => none
    | .sendFails c what =>
      match s.commands c, fromBytes p.una what with
      | .registered id, some _ =>
        some ((s.setFatalCall (.command c) (.entering ⟨.transport, none⟩)).setCommand c (.sendFailed id))
      | .registered _, none => some s.abort
      | _, _ => none
    | .sendThrows c =>
      match s.commands c with
      | .registered id => some (s.setCommand c (.threw id))
      | _ => none
    | .sendFailureDone c =>
      match s.commands c, s.fatalCalls (.command c) with
      | .sendFailed id, .returned => some (s.setCommand c (.returned (some id) (.error ⟨.transport, none⟩)))
      | _, _ => none
    | .wake c =>
      match s.commands c with
      | .waiting id => if (s.waiters c).done then some (s.readWaiter c id) else none
      | _ => none
    | .waitUntilFails c =>
      match s.commands c with
      | .waiting id => if (s.waiters c).done then none else some (s.setCommand c (.waitOver id))
      | _ => none
    | .giveUp c =>
      match s.commands c with
      | .waitOver id => some (s.giveUp c id)
      | _ => none
    | .relock c =>
      match s.commands c with
      | .relocking id => some (s.readWaiter c id)
      | _ => none
    | .receive payload =>
      match s.reader with
      | .receiving => some (s.handleMessage p payload)
      | _ => none
    | .receiveClose closeCode =>
      match s.reader with
      | .receiving =>
        some (s.failReader ⟨.socketClosed, some (ascii "websocket close status " ++ natText closeCode)⟩)
      | _ => none
    | .receiveThrows cancelRequested what =>
      match s.reader with
      | .receiving =>
        if cancelRequested then some (s.failReader (makeSocketClosedError (ascii "websocket close requested")))
        else
          match fromBytes p.una what with
          | some _ => some (s.failReader ⟨.transport, none⟩)
          | none => some s.abort
      | _ => none
    | .completeWaiter =>
      match s.reader with
      | .completing waiter _ reply => some { s.complete waiter reply with reader := .receiving }
      | _ => none
    | .traceThrows traced => s.traceThrows p traced
    | .deliverEvent =>
      match s.reader with
      | .delivering k event => some { s.setSession k ((s.sessions k).push event) with reader := .receiving }
      | _ => none
    | .endReader =>
      match s.reader, s.fatalCalls .reader with
      | .failing, .returned => some { s with reader := .ended }
      | _, _ => none
    | .setFatalError caller => s.stepFatal caller
    | .stop k => if s.stops k = .notCalled then some (s.stop k) else none
    | .closed k => if s.stops k = .closing then some (s.setStop k .returned) else none
    | .closeFails k what =>
      match s.stops k, fromBytes p.una what with
      | .closing, some _ => some ((s.setFatalCall (.stop k) (.entering ⟨.transport, none⟩)).setStop k .closeFailed)
      | .closing, none => some s.abort
      | _, _ => none
    | .stopThrows k => if s.stops k = .closing then some (s.setStop k .threw) else none
    | .closeFailureDone k =>
      match s.stops k, s.fatalCalls (.stop k) with
      | .closeFailed, .returned => some (s.setStop k .returned)
      | _, _ => none
    | .stopQuietly => some { s with shared := { s.shared with stopping := true, stopped := true } }
    | .makeSession k sessionId targetId =>
      match s.owners k with
      | .notMade => some (s.makeSession k sessionId targetId)
      | _ => none
    | .waitEvent k =>
      match s.owners k with
      | .attached _ _ => if (s.sessions k).ready then some (s.waitEvent k) else none
      | _ => none
    | .waitEventTimeout k =>
      match s.owners k with
      | .attached _ _ => if (s.sessions k).ready then none else some s
      | _ => none
    | .drainEvents k =>
      match s.owners k with
      | .attached _ _ => some (s.handOver k (s.sessions k).events [])
      | _ => none
    | .unregisterSession k =>
      match s.owners k with
      | .attached sessionId targetId => some (s.unregisterSession k sessionId targetId)
      | _ => none
    | .markUnregistered k =>
      match s.owners k with
      | .unregistered => some ((s.setSession k (s.sessions k).unregister).setOwner k .destroyed)
      | _ => none

end Webshot.Crawler
