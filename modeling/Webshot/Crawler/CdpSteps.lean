import Webshot.Crawler.CdpClient

/-! What the steps of the DevTools client can do, outcome by outcome. -/
namespace Webshot.Crawler
open Text Foundation.JsonText Foundation.KeyedMaps

namespace CommandPhase

/-- The id a call was given. -/
def id? : CommandPhase → Option Int
  | notCalled => none
  | registered id | sendFailed id | waiting id | waitOver id | relocking id | expired id | threw id => some id
  | returned id _ => id

/-- Moves of a call that touch nothing else: its request is sent, is not sent, or the wait for the
response ends without one. -/
inductive Moves : CommandPhase → CommandPhase → Prop where
  | stringifyFails (id : Int) : Moves (registered id) (returned (some id) (.error ⟨.protocol, none⟩))
  | sent (id : Int) : Moves (registered id) (waiting id)
  | sendThrows (id : Int) : Moves (registered id) (threw id)
  | sendFailureDone (id : Int) : Moves (sendFailed id) (returned (some id) (.error ⟨.transport, none⟩))
  | waitUntilFails (id : Int) : Moves (waiting id) (waitOver id)
  | requestGone (id : Int) : Moves (waitOver id) (relocking id)

end CommandPhase

/-- What makes a step other than the handling of a response abort the process. -/
inductive Aborts (p : CdpParsers) (s : System) : Action → Prop where
  | duplicateId {c : Nat} {method : Bytes} {sessionId : Option Bytes} :
      s.shared.nextRequestId ∈ s.shared.pendingRequests → Aborts p s (.sendRaw c method sessionId)
  | noOutcome {action : Action} {c : Nat} : (s.waiters c).outcome = none → Aborts p s action
  | sendText {c : Nat} {what : Bytes} : fromBytes p.una what = none → Aborts p s (.sendFails c what)
  | receiveText {what : Bytes} : fromBytes p.una what = none → Aborts p s (.receiveThrows false what)
  | closeText {k : Nat} {what : Bytes} : fromBytes p.una what = none → Aborts p s (.closeFails k what)

/-- What a step can do, one constructor for each outcome. -/
inductive Step (p : CdpParsers) (s : System) : Action → System → Prop where
  | abort {action : Action} : Aborts p s action → Step p s action s.abort
  | refuseCommand {c : Nat} {method : Bytes} {sessionId : Option Bytes} {error : CdpError} : s.commands c = .notCalled →
      Step p s (.sendRaw c method sessionId) (s.setCommand c (.returned none (.error error)))
  | register {c : Nat} {method : Bytes} {sessionId : Option Bytes} : s.commands c = .notCalled →
      s.shared.fatalError = none → s.shared.closing = false → s.shared.nextRequestId ∉ s.shared.pendingRequests →
      Step p s (.sendRaw c method sessionId)
        { s with
          shared := { s.shared with
            nextRequestId := s.shared.nextRequestId + 1
            pendingRequests := s.shared.pendingRequests.insert s.shared.nextRequestId ⟨method, sessionId, false⟩
            pendingWaiters := emplace s.shared.pendingWaiters s.shared.nextRequestId c }
          commands := Function.update s.commands c (.registered s.shared.nextRequestId) }
  | moveCommand {action : Action} {c : Nat} {phase : CommandPhase} : (s.commands c).Moves phase →
      Step p s action (s.setCommand c phase)
  | sendFails {c : Nat} {what : Bytes} {id : Int} : s.commands c = .registered id →
      Step p s (.sendFails c what)
        ((s.setFatalCall (.command c) (.entering ⟨.transport, none⟩)).setCommand c (.sendFailed id))
  | readWaiter {action : Action} {c : Nat} {id : Int} {outcome : Except CdpError (Option Json)} :
      s.commands c = .waiting id ∨ s.commands c = .relocking id → (s.waiters c).outcome = some outcome →
      Step p s action (s.setCommand c (.returned (some id) outcome))
  | expire {c : Nat} {id : Int} {request : CdpPendingRequest} : s.commands c = .waitOver id →
      s.shared.pendingRequests.lookup id = some request →
      Step p s (.giveUp c)
        { s with
          shared := { s.shared with
            pendingRequests := s.shared.pendingRequests.insert id { request with ignoreResponse := true }
            pendingWaiters := s.shared.pendingWaiters.erase id }
          commands := Function.update s.commands c (.expired id) }
  | readerFails {action : Action} {error : CdpError} : s.reader = .receiving → Step p s action (s.failReader error)
  | readerDies {payload : Bytes} : s.reader = .receiving → p.decodeMessage payload = .threw →
      Step p s (.receive payload) { s with reader := .died none }
  | readerInterrupted {traced : Traced} : s.reader = .receiving →
      Step p s (.traceThrows traced) { s with reader := .died none }
  | consumedInterrupted {payload : Bytes} {id : Int} {result : Option Json} {request : CdpPendingRequest} :
      s.reader = .receiving → s.shared.pendingRequests.lookup id = some request → request.ignoreResponse = true →
      Step p s (.traceThrows (.message payload))
        { s.note id result with shared := s.shared.forget id, reader := .died none }
  | responseInterrupted {waiter : Nat} {id : Int} {reply : Except CdpError (Option Json)} :
      s.reader = .completing waiter id reply →
      Step p s (.traceThrows .response) { s with reader := .died (some (waiter, id, reply)) }
  | response {payload : Bytes} {id : Int} {error result : Option Json} : s.reader = .receiving →
      p.decodeMessage payload = .response id error result →
      Step p s (.receive payload) ((s.note id result).handleResponse id (takeResponse p s.shared id error result))
  | unchanged {action : Action} : Step p s action s
  | eventRouted {payload : Bytes} {routingSessionId routingTargetId : Option Bytes} {event : CdpEvent} {k : Nat} :
      s.reader = .receiving → p.decodeMessage payload = .event routingSessionId routingTargetId event →
      routeEvent s.shared routingSessionId routingTargetId = some k →
      Step p s (.receive payload)
        { s with
          reader := .delivering k event
          history.routed := Function.update s.history.routed k (s.history.routed k ++ [event]) }
  | completeWaiter {waiter : Nat} {id : Int} {reply : Except CdpError (Option Json)} :
      s.reader = .completing waiter id reply →
      Step p s .completeWaiter { s.complete waiter reply with reader := .receiving }
  | deliverEvent {k : Nat} {event : CdpEvent} : s.reader = .delivering k event →
      Step p s .deliverEvent { s.setSession k ((s.sessions k).push event) with reader := .receiving }
  | endReader : s.reader = .failing → s.fatalCalls .reader = .returned →
      Step p s .endReader { s with reader := .ended }
  | fatalAgain {caller : Caller} {error : CdpError} : s.fatalCalls caller = .entering error →
      s.shared.fatalError.isSome → Step p s (.setFatalError caller) (s.setFatalCall caller .returned)
  | fatalFirst {caller : Caller} {error : CdpError} : s.fatalCalls caller = .entering error →
      s.shared.fatalError = none →
      Step p s (.setFatalError caller)
        { s.setFatalCall caller (.completing error (values s.shared.pendingWaiters)
            (values s.shared.sessionsById)) with
          shared := { s.shared with
            fatalError := some error
            stopped := true
            pendingWaiters := ∅
            pendingRequests := ∅
            sessionsById := ∅
            sessionsByTargetId := ∅ } }
  | fatalWaiter {caller : Caller} {error : CdpError} {waiter : Nat} {waiters sessions : List Nat} :
      s.fatalCalls caller = .completing error (waiter :: waiters) sessions →
      Step p s (.setFatalError caller)
        ((s.complete waiter (.error error)).setFatalCall caller (.completing error waiters sessions))
  | fatalSession {caller : Caller} {error : CdpError} {k : Nat} {sessions : List Nat} :
      s.fatalCalls caller = .completing error [] (k :: sessions) →
      Step p s (.setFatalError caller)
        ((s.setSession k ((s.sessions k).fail error)).setFatalCall caller (.completing error [] sessions))
  | fatalDone {caller : Caller} {error : CdpError} : s.fatalCalls caller = .completing error [] [] →
      Step p s (.setFatalError caller) (s.setFatalCall caller .returned)
  | stop {k : Nat} {phase : StopPhase} {stopped : Bool} : s.stops k = .notCalled →
      phase = .returned ∨ phase = .closing →
      Step p s (.stop k) { s.setStop k phase with shared := { s.shared with stopping := true, stopped := stopped } }
  | endStop {action : Action} {k : Nat} {phase : StopPhase} : s.stops k ≠ .notCalled →
      phase = .returned ∨ phase = .threw → Step p s action (s.setStop k phase)
  | closeFails {k : Nat} {what : Bytes} : s.stops k = .closing →
      Step p s (.closeFails k what) ((s.setFatalCall (.stop k) (.entering ⟨.transport, none⟩)).setStop k .closeFailed)
  | stopQuietly : Step p s .stopQuietly { s with shared := { s.shared with stopping := true, stopped := true } }
  | refuseSession {k : Nat} {sessionId targetId : Bytes} {error : CdpError} : s.owners k = .notMade →
      Step p s (.makeSession k sessionId targetId) (s.setOwner k (.refused error))
  | makeSession {k : Nat} {sessionId targetId : Bytes} : s.owners k = .notMade → s.shared.fatalError = none →
      Step p s (.makeSession k sessionId targetId)
        { s.setOwner k (.attached sessionId targetId) with
          shared := { s.shared with
            sessionsById := emplace s.shared.sessionsById sessionId k
            sessionsByTargetId := emplace s.shared.sessionsByTargetId targetId k } }
  | waitEvent {k : Nat} {event : CdpEvent} {events : List CdpEvent} : (s.sessions k).events = event :: events →
      Step p s (.waitEvent k) (s.handOver k [event] events)
  | drainEvents {k : Nat} : Step p s (.drainEvents k) (s.handOver k (s.sessions k).events [])
  | unregisterSession {k : Nat} {sessionId targetId : Bytes} : s.owners k = .attached sessionId targetId →
      Step p s (.unregisterSession k) (s.unregisterSession k sessionId targetId)
  | markUnregistered {k : Nat} : s.owners k = .unregistered →
      Step p s (.markUnregistered k) ((s.setSession k (s.sessions k).unregister).setOwner k .destroyed)

/-- What a response can have done to the shared state. -/
def TakenSpec (state : SharedState) (id : Int) (result : Option Json) : Taken → Prop
  | .consumed state' => state' = state.forget id ∧
      ∃ request, state.pendingRequests.lookup id = some request ∧ request.ignoreResponse = true
  | .claimed state' waiter reply => state' = state.forget id ∧ state.pendingWaiters.lookup id = some waiter ∧
      ∀ r, reply = .ok r → r = result
  | .missingWaiter => state.pendingWaiters.lookup id = none ∧
      ∃ request, state.pendingRequests.lookup id = some request ∧ request.ignoreResponse = false
  | _ => True

theorem claimWaiter_spec {state : SharedState} {id : Int} {result : Option Json} {request : CdpPendingRequest}
    {reply : Except CdpError (Option Json)} (h : state.pendingRequests.lookup id = some request)
    (hreply : ∀ r, reply = .ok r → r = result) : TakenSpec state id result (claimWaiter state id request reply) := by
  unfold claimWaiter
  split
  · exact ⟨rfl, request, h, ‹_›⟩
  · rename_i hkept
    split
    · rename_i hnone
      split
      · trivial
      · exact ⟨hnone, request, h, Bool.eq_false_iff.mpr hkept⟩
    · rename_i waiter hwaiter
      exact ⟨rfl, hwaiter, hreply⟩

theorem takeResponse_spec (p : CdpParsers) (state : SharedState) (id : Int) (error result : Option Json) :
    TakenSpec state id result (takeResponse p state id error result) := by
  unfold takeResponse
  split
  · split
    · trivial
    · trivial
  · rename_i request hrequest
    split
    · exact claimWaiter_spec hrequest fun r hr => (Except.ok.inj hr).symm
    · split
      · exact claimWaiter_spec hrequest fun r hr => nomatch hr
      · trivial
      · trivial
      · trivial

section Inversion
variable {p : CdpParsers} {s t : System}

private theorem sendRaw_spec (c : Nat) (method : Bytes) (sessionId : Option Bytes) (h : s.commands c = .notCalled) :
    Step p s (.sendRaw c method sessionId) (s.sendRaw c method sessionId) := by
  unfold System.sendRaw
  split
  · exact .refuseCommand h
  · rename_i hfatal
    split
    · exact .refuseCommand h
    · rename_i hclosing
      split
      · exact .abort (.duplicateId ‹_›)
      · rename_i hfresh
        exact .register h hfatal (Bool.eq_false_iff.mpr hclosing) hfresh

private theorem readWaiter_spec {action : Action} {c : Nat} {id : Int}
    (h : s.commands c = .waiting id ∨ s.commands c = .relocking id) : Step p s action (s.readWaiter c id) := by
  unfold System.readWaiter
  split
  · rename_i outcome houtcome
    exact .readWaiter h houtcome
  · rename_i hnone
    exact .abort (.noOutcome hnone)

private theorem giveUp_spec {c : Nat} {id : Int} (h : s.commands c = .waitOver id) :
    Step p s (.giveUp c) (s.giveUp c id) := by
  unfold System.giveUp
  split
  · rename_i request hrequest
    exact .expire h hrequest
  · exact .moveCommand (h ▸ .requestGone id)

private theorem handleMessage_spec (payload : Bytes) (h : s.reader = .receiving) :
    Step p s (.receive payload) (s.handleMessage p payload) := by
  unfold System.handleMessage
  split
  · exact .readerFails h
  · rename_i hthrew
    exact .readerDies h hthrew
  · rename_i id error result hresponse
    exact .response h hresponse
  · rename_i routingSessionId routingTargetId event hevent
    split
    · exact .unchanged
    · rename_i k hk
      exact .eventRouted h hevent hk

private theorem traceThrows_spec {traced : Traced} (h : s.traceThrows p traced = some t) :
    Step p s (.traceThrows traced) t := by
  cases traced with
  | response =>
    simp only [System.traceThrows] at h
    split at h
    · cases h
      exact .responseInterrupted ‹_›
    · cases h
  | message payload =>
    simp only [System.traceThrows] at h
    split at h
    · rename_i id error result hreader _
      have hspec := takeResponse_spec p s.shared id error result
      split at h
      · rename_i htaken
        cases h
        rw [htaken] at hspec
        obtain ⟨rfl, request, hrequest, hignore⟩ := hspec
        exact .consumedInterrupted hreader hrequest hignore
      · cases h
    · cases h
      exact .readerInterrupted ‹_›
    · cases h
  | close closeCode =>
    simp only [System.traceThrows] at h
    split at h
    · cases h
      exact .readerInterrupted ‹_›
    · cases h
  | recv what =>
    simp only [System.traceThrows] at h
    split at h
    · cases h
      exact .readerInterrupted ‹_›
    · cases h

private theorem stepFatal_spec {caller : Caller} (h : s.stepFatal caller = some t) :
    Step p s (.setFatalError caller) t := by
  unfold System.stepFatal at h
  split at h
  · rename_i error hcall
    cases h
    unfold System.enterFatal
    split
    · exact .fatalAgain hcall ‹_›
    · rename_i hfatal
      exact .fatalFirst hcall (Option.not_isSome_iff_eq_none.mp hfatal)
  · rename_i hcall
    cases h
    exact .fatalWaiter hcall
  · rename_i hcall
    cases h
    exact .fatalSession hcall
  · rename_i hcall
    cases h
    exact .fatalDone hcall
  · cases h

private theorem makeSession_spec (k : Nat) (sessionId targetId : Bytes) (h : s.owners k = .notMade) :
    Step p s (.makeSession k sessionId targetId) (s.makeSession k sessionId targetId) := by
  unfold System.makeSession
  split
  · exact .refuseSession h
  · rename_i hfatal
    split
    · exact .refuseSession h
    · exact .makeSession h hfatal

private theorem waitEvent_spec {k : Nat} (hready : (s.sessions k).ready = true) :
    Step p s (.waitEvent k) (s.waitEvent k) := by
  unfold System.waitEvent CdpSessionState.next
  cases herror : (s.sessions k).error with
  | some error => exact .unchanged
  | none =>
    cases hstopped : (s.sessions k).stopped with
    | true => exact .unchanged
    | false =>
      cases hevents : (s.sessions k).events with
      | nil => simp [CdpSessionState.ready, herror, hstopped, hevents] at hready
      | cons event events => exact .waitEvent hevents

/-- A step does what one of the constructors says. -/
theorem step_spec {action : Action} (h : step p s action = some t) : Step p s action t := by
  unfold step at h
  split at h
  · cases h
  · cases action with
    | sendRaw c method sessionId =>
      simp only at h
      split at h
      · cases h
        exact sendRaw_spec c method sessionId ‹_›
      · cases h
    | stringifyFails c =>
      simp only at h
      split at h
      · rename_i id hphase
        cases h
        exact .moveCommand (hphase ▸ .stringifyFails id)
      · cases h
    | sent c =>
      simp only at h
      split at h
      · rename_i id hphase
        cases h
        exact .moveCommand (hphase ▸ .sent id)
      · cases h
    | sendFails c what =>
      simp only at h
      split at h
      · cases h
        exact .sendFails ‹_›
      · cases h
        exact .abort (.sendText ‹_›)
      · cases h
    | sendThrows c =>
      simp only at h
      split at h
      · rename_i id hphase
        cases h
        exact .moveCommand (hphase ▸ .sendThrows id)
      · cases h
    | sendFailureDone c =>
      simp only at h
      split at h
      · rename_i id hphase _
        cases h
        exact .moveCommand (hphase ▸ .sendFailureDone id)
      · cases h
    | wake c =>
      simp only at h
      split at h
      · split at h
        · cases h
          exact readWaiter_spec (Or.inl ‹_›)
        · cases h
      · cases h
    | waitUntilFails c =>
      simp only at h
      split at h
      · rename_i id hphase
        split at h
        · cases h
        · cases h
          exact .moveCommand (hphase ▸ .waitUntilFails id)
      · cases h
    | giveUp c =>
      simp only at h
      split at h
      · cases h
        exact giveUp_spec ‹_›
      · cases h
    | relock c =>
      simp only at h
      split at h
      · cases h
        exact readWaiter_spec (Or.inr ‹_›)
      · cases h
    | receive payload =>
      simp only at h
      split at h
      · cases h
        exact handleMessage_spec payload ‹_›
      · cases h
    | receiveClose closeCode =>
      simp only at h
      split at h
      · cases h
        exact .readerFails ‹_›
      · cases h
    | receiveThrows cancelRequested what =>
      simp only at h
      split at h
      · split at h
        · cases h
          exact .readerFails ‹_›
        · split at h
          · cases h
            exact .readerFails ‹_›
          · rename_i hcancel _ htext
            cases h
            rw [Bool.eq_false_iff.mpr hcancel]
            exact .abort (.receiveText htext)
      · cases h
    | completeWaiter =>
      simp only at h
      split at h
      · cases h
        exact .completeWaiter ‹_›
      · cases h
    | traceThrows traced => exact traceThrows_spec h
    | deliverEvent =>
      simp only at h
      split at h
      · cases h
        exact .deliverEvent ‹_›
      · cases h
    | endReader =>
      simp only at h
      split at h
      · cases h
        exact .endReader ‹_› ‹_›
      · cases h
    | setFatalError caller => exact stepFatal_spec h
    | stop k =>
      simp only at h
      split at h
      · cases h
        unfold System.stop
        split
        · exact .stop ‹_› (Or.inl rfl)
        · exact .stop ‹_› (Or.inr rfl)
      · cases h
    | closed k =>
      simp only at h
      split at h
      · rename_i hphase
        cases h
        exact .endStop (by simp [hphase]) (Or.inl rfl)
      · cases h
    | closeFails k what =>
      simp only at h
      split at h
      · cases h
        exact .closeFails ‹_›
      · cases h
        exact .abort (.closeText ‹_›)
      · cases h
    | stopThrows k =>
      simp only at h
      split at h
      · rename_i hphase
        cases h
        exact .endStop (by simp [hphase]) (Or.inr rfl)
      · cases h
    | closeFailureDone k =>
      simp only at h
      split at h
      · rename_i hphase _
        cases h
        exact .endStop (by simp [hphase]) (Or.inl rfl)
      · cases h
    | stopQuietly =>
      cases h
      exact .stopQuietly
    | makeSession k sessionId targetId =>
      simp only at h
      split at h
      · cases h
        exact makeSession_spec k sessionId targetId ‹_›
      · cases h
    | waitEvent k =>
      simp only at h
      split at h
      · split at h
        · cases h
          exact waitEvent_spec ‹_›
        · cases h
      · cases h
    | waitEventTimeout k =>
      simp only at h
      split at h
      · split at h
        · cases h
        · cases h
          exact .unchanged
      · cases h
    | drainEvents k =>
      simp only at h
      split at h
      · cases h
        exact .drainEvents
      · cases h
    | unregisterSession k =>
      simp only at h
      split at h
      · cases h
        exact .unregisterSession ‹_›
      · cases h
    | markUnregistered k =>
      simp only at h
      split at h
      · cases h
        exact .markUnregistered ‹_›
      · cases h

@[simp] theorem handleResponse_commands (id : Int) (taken : Taken) :
    (s.handleResponse id taken).commands = s.commands := by
  cases taken <;> rfl

@[simp] theorem handleResponse_waiters (id : Int) (taken : Taken) :
    (s.handleResponse id taken).waiters = s.waiters := by
  cases taken <;> rfl

@[simp] theorem handleResponse_sessions (id : Int) (taken : Taken) :
    (s.handleResponse id taken).sessions = s.sessions := by
  cases taken <;> rfl

@[simp] theorem handleResponse_owners (id : Int) (taken : Taken) : (s.handleResponse id taken).owners = s.owners := by
  cases taken <;> rfl

@[simp] theorem handleResponse_history (id : Int) (taken : Taken) :
    (s.handleResponse id taken).history = s.history := by
  cases taken <;> rfl

theorem handleResponse_fatalCalls (id : Int) (taken : Taken) {caller : Caller} (h : caller ≠ .reader) :
    (s.handleResponse id taken).fatalCalls caller = s.fatalCalls caller := by
  cases taken with
  | failed error => exact Function.update_of_ne h _ _
  | missingWaiter => exact Function.update_of_ne h _ _
  | _ => rfl

theorem handleResponse_shared {id : Int} {result : Option Json} {taken : Taken}
    (h : TakenSpec s.shared id result taken) :
    (s.handleResponse id taken).shared = s.shared ∨ (s.handleResponse id taken).shared = s.shared.forget id := by
  cases taken with
  | consumed state => exact Or.inr h.1
  | claimed state waiter reply => exact Or.inr h.1
  | _ => exact Or.inl rfl

@[simp] theorem setFatalCall_self (caller : Caller) (call : FatalCall) :
    (s.setFatalCall caller call).fatalCalls caller = call := Function.update_self _ _ _

theorem setFatalCall_of_ne {caller other : Caller} (h : other ≠ caller) (call : FatalCall) :
    (s.setFatalCall caller call).fatalCalls other = s.fatalCalls other := Function.update_of_ne h _ _

end Inversion
end Webshot.Crawler
