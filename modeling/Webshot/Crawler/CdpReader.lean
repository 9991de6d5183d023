import Webshot.Crawler.CdpCommands
import Webshot.Crawler.CdpEvents

/-! The end of `ReaderLoop`: what payloads do to the reader, and what the client is left in when the
reader has returned. -/
namespace Webshot.Crawler
open Text Foundation.KeyedMaps Foundation.TransitionRuns

namespace CdpParsers
variable (p : CdpParsers)

/-- The `error` of a response can be read as `dto::CdpError`. -/
def ReadableError (error : Json) : Prop := error.isObject = true ∧ ∃ dto, p.asCdpError error = .parsed dto

/-- A member of `params` is a string, if it is there. -/
def TextMember (message : CdpEventMessage) (key : Bytes) : Prop :=
  ∀ value, message.params.bind (·.lookup key) = some value → ∃ text, value = .string text

/-- An event whose texts are valid has no routing id in `params` that is not a string. -/
def HarmlessEvent : Parsed CdpEventMessage → Prop
  | .jsonException => True
  | .otherException => False
  | .parsed message => p.optionalString message.sessionId ≠ none → fromBytes p.una message.method ≠ none →
      (message.sessionId = none → TextMember message (ascii "sessionId")) ∧ TextMember message (ascii "targetId")

/-- The value is null or an object, its `id` is a 64-bit integer, its `error` is readable if the id is pending,
and without an id it is a harmless event or has no method. -/
def HarmlessValue (state : SharedState) (value : Json) : Prop :=
  match value with
  | .null => True
  | .object members =>
    match members.lookup (ascii "id") with
    | some id => ∃ n, id = .number (some n) ∧
        (n ∈ state.pendingRequests → ∀ error, members.lookup (ascii "error") = some error → p.ReadableError error)
    | none => members.lookup (ascii "method") = none ∨ p.HarmlessEvent (p.asCdpEventMessage value)
  | _ => False

/-- A payload that is not text, or not JSON, is harmless. -/
def Harmless (state : SharedState) (payload : Bytes) : Prop :=
  ∀ text value, fromBytes p.una payload = some text → p.parseJson text = some value → p.HarmlessValue state value

end CdpParsers

/-- Neither an exception nor a failed invariant. -/
def ErrorMessage.survived : ErrorMessage → Bool
  | threw | aborted => false
  | _ => true

def Taken.survived : Taken → Bool
  | threw | aborted => false
  | _ => true

/-- The reader survives a message. -/
def CdpParsers.survives (p : CdpParsers) (state : SharedState) : Incoming → Bool
  | .threw => false
  | .response id error result => (takeResponse p state id error result).survived
  | _ => true

section Payloads
variable {p : CdpParsers} {state : SharedState}

theorem paramsText_isSome (message : CdpEventMessage) (key : Bytes) :
    (p.paramsText message key).isSome ↔ CdpParsers.TextMember message key := by
  unfold CdpParsers.paramsText CdpParsers.TextMember
  cases message.params.bind (·.lookup key) with
  | none => exact iff_of_true rfl nofun
  | some value =>
    cases value with
    | string text =>
      refine iff_of_true rfl ?_
      rintro _ ⟨⟩
      exact ⟨text, rfl⟩
    | _ =>
      refine iff_of_false nofun fun h => ?_
      obtain ⟨text, htext⟩ := h _ rfl
      cases htext

theorem extractRoutingSessionId_isSome (message : CdpEventMessage) : (p.extractRoutingSessionId message).isSome ↔
    (message.sessionId = none → CdpParsers.TextMember message (ascii "sessionId")) := by
  unfold CdpParsers.extractRoutingSessionId
  cases message.sessionId with
  | some sessionId => exact iff_of_true rfl nofun
  | none => exact (paramsText_isSome message _).trans ⟨fun h _ => h, fun h => h rfl⟩

theorem decodeEvent_survives (message : CdpEventMessage) :
    p.survives state (p.decodeEvent message) = true ↔ p.HarmlessEvent (.parsed message) := by
  change _ ↔ (_ → _ → _ ∧ _)
  rw [← extractRoutingSessionId_isSome (p := p), ← paramsText_isSome (p := p)]
  unfold CdpParsers.decodeEvent CdpParsers.extractRoutingTargetId
  cases p.optionalString message.sessionId with
  | none => exact iff_of_true rfl fun h => absurd rfl h
  | some sessionId =>
    cases fromBytes p.una message.method with
    | none => exact iff_of_true rfl fun _ h => absurd rfl h
    | some method =>
      cases p.extractRoutingSessionId message with
      | none => exact iff_of_false nofun fun h => nomatch (h nofun nofun).1
      | some routingSessionId =>
        cases p.paramsText message (ascii "targetId") with
        | none => exact iff_of_false nofun fun h => nomatch (h nofun nofun).2
        | some routingTargetId => exact iff_of_true rfl fun _ _ => ⟨rfl, rfl⟩

theorem getErrorMessage_survived (error : Json) :
    (p.getErrorMessage error).survived = true ↔ p.ReadableError error := by
  unfold CdpParsers.getErrorMessage CdpParsers.ReadableError
  split
  · rename_i hobject
    cases p.asCdpError error with
    | jsonException => exact iff_of_false nofun fun h => nomatch h.2
    | otherException => exact iff_of_false nofun fun h => nomatch h.2
    | parsed dto =>
      refine iff_of_true ?_ ⟨hobject, dto, rfl⟩
      simp only
      cases fromBytes p.una dto.message <;> rfl
  · rename_i hobject
    exact iff_of_false nofun fun h => hobject h.1

theorem claimWaiter_survived (id : Int) (request : CdpPendingRequest) (reply : Except CdpError (Option Json)) :
    (claimWaiter state id request reply).survived = true := by
  unfold claimWaiter
  split
  · rfl
  · split
    · split <;> rfl
    · rfl

theorem takeResponse_survived (id : Int) (error result : Option Json) :
    (takeResponse p state id error result).survived = true ↔
      (id ∈ state.pendingRequests → ∀ e, error = some e → p.ReadableError e) := by
  unfold takeResponse
  cases hrequest : state.pendingRequests.lookup id with
  | none =>
    have habsent := notMem_of_lookup hrequest
    refine iff_of_true ?_ fun hmem => absurd hmem habsent
    simp only
    split <;> rfl
  | some request =>
    have hmem := mem_of_lookup hrequest
    cases error with
    | none => exact iff_of_true (claimWaiter_survived id request _) fun _ _ he => nomatch he
    | some e =>
      have hread : (id ∈ state.pendingRequests → ∀ e', some e = some e' → p.ReadableError e') ↔ p.ReadableError e := by
        refine ⟨fun h => h hmem e rfl, ?_⟩
        rintro h _ _ ⟨⟩
        exact h
      rw [hread, ← getErrorMessage_survived]
      simp only
      cases p.getErrorMessage e with
      | text message => exact iff_of_true (claimWaiter_survived id request _) rfl
      | failed e' => exact iff_of_true rfl rfl
      | threw => exact iff_of_false nofun nofun
      | aborted => exact iff_of_false nofun nofun

theorem decodeValue_survives (value : Json) :
    p.survives state (p.decodeValue value) = true ↔ p.HarmlessValue state value := by
  cases value with
  | null => exact iff_of_true rfl trivial
  | object members =>
    unfold CdpParsers.decodeValue CdpParsers.HarmlessValue Json.member
    simp only
    cases members.lookup (ascii "id") with
    | some id =>
      cases id with
      | number int64 =>
        cases int64 with
        | none =>
          refine iff_of_false nofun ?_
          rintro ⟨_, ⟨⟩, _⟩
        | some n =>
          refine (takeResponse_survived n _ _).trans ?_
          constructor
          · exact fun h => ⟨n, rfl, h⟩
          · rintro ⟨_, ⟨⟩, h⟩
            exact h
      | _ =>
        refine iff_of_false nofun ?_
        rintro ⟨_, ⟨⟩, _⟩
    | none =>
      simp only
      cases members.lookup (ascii "method") with
      | none => exact iff_of_true rfl (Or.inl rfl)
      | some method =>
        rw [or_iff_right (by nofun)]
        cases p.asCdpEventMessage (.object members) with
        | jsonException => exact iff_of_true rfl trivial
        | otherException => exact iff_of_false nofun id
        | parsed message => exact decodeEvent_survives message
  | _ => exact iff_of_false nofun id

/-- The reader survives exactly the harmless payloads. -/
theorem decodeMessage_survives (payload : Bytes) :
    p.survives state (p.decodeMessage payload) = true ↔ p.Harmless state payload := by
  unfold CdpParsers.decodeMessage CdpParsers.Harmless
  cases fromBytes p.una payload with
  | none => exact iff_of_true rfl nofun
  | some text =>
    simp only
    cases hvalue : p.parseJson text with
    | none =>
      refine iff_of_true rfl ?_
      rintro _ value ⟨⟩ hvalue'
      cases hvalue.symm.trans hvalue'
    | some value =>
      rw [decodeValue_survives]
      constructor
      · rintro h _ value' ⟨⟩ hvalue'
        cases hvalue.symm.trans hvalue'
        exact h
      · exact fun h => h text value rfl hvalue

end Payloads

/-- Payloads are harmless, no trace write of the reader throws, sessions are made under ids that are not in use, and the
reader does not return while another call of `SetFatalError` is still completing what it took. -/
def Benign (p : CdpParsers) (s : System) : Action → Prop
  | .receive payload => p.Harmless s.shared payload
  | .traceThrows _ => False
  | .makeSession k sessionId targetId => DistinctLive s (.makeSession k sessionId targetId)
  | .endReader => ∀ caller error waiters sessions, s.fatalCalls caller ≠ .completing error waiters sessions
  | _ => True

/-- The session is stopped, or a call of `SetFatalError` is to stop it. -/
def System.Stopping (s : System) (k : Nat) : Prop :=
  (∃ caller error waiters sessions, s.fatalCalls caller = .completing error waiters sessions ∧ k ∈ sessions) ∨
    (s.sessions k).stopped = true

structure ReaderInv (s : System) : Prop where
  alive : ∀ owed, s.reader ≠ .died owed
  ended : s.reader = .ended → s.fatalCalls .reader = .returned ∧
    ∀ caller error waiters sessions, s.fatalCalls caller ≠ .completing error waiters sessions
  reached : ∀ k sessionId targetId, s.owners k = .attached sessionId targetId →
    s.shared.fatalError.isSome → s.Stopping k

section Steps
variable {p : CdpParsers} {s t : System} {a : Action}

theorem Benign.distinctLive (h : Benign p s a) : DistinctLive s a := by
  cases a with
  | makeSession k sessionId targetId => exact h
  | _ => trivial

theorem System.Stopping.step {k : Nat} (h : s.Stopping k) (hcalls : CallsOnce s) (hstep : Step p s a t) :
    t.Stopping k := by
  rcases h with ⟨caller, error, waiters, sessions, hcall, hmem⟩ | hstopped
  · rcases hstep.call_goes_on hcalls hcall with hsame | ⟨_, ws, _, hnext, _⟩ | ⟨k', ks, _, rfl, hnext, hfail⟩ | ⟨_, rfl⟩
    · exact Or.inl ⟨caller, error, waiters, sessions, hsame, hmem⟩
    · exact Or.inl ⟨caller, error, ws, sessions, hnext, hmem⟩
    · rcases List.mem_cons.mp hmem with rfl | hmem
      · exact Or.inr (by rw [hfail]; rfl)
      · exact Or.inl ⟨caller, error, [], ks, hnext, hmem⟩
    · cases hmem
  · exact Or.inr (hstep.stopped_kept hstopped).1

/-- A session in use was in use before, or was made just now by a client that has not failed. -/
theorem Step.attached_before (h : Step p s a t) {k : Nat} {sessionId targetId : Bytes}
    (hk : t.owners k = .attached sessionId targetId) :
    s.owners k = .attached sessionId targetId ∨ t.shared.fatalError = none := by
  have hset : ∀ {k' phase}, Function.update s.owners k' phase k = .attached sessionId targetId →
      (∀ id target, phase ≠ .attached id target) → s.owners k = .attached sessionId targetId := by
    intro k' phase hk' hphase
    rcases update_cases hk' with ⟨_, hnew⟩ | ⟨_, hold⟩
    · exact absurd hnew (hphase sessionId targetId)
    · exact hold
  cases h with
  | response _ _ =>
    rw [handleResponse_owners] at hk
    exact Or.inl hk
  | refuseSession _ => exact Or.inl (hset hk nofun)
  | makeSession _ hfatal => exact Or.inr hfatal
  | unregisterSession _ => exact Or.inl (hset hk nofun)
  | markUnregistered _ => exact Or.inl (hset hk nofun)
  | _ => exact Or.inl hk

/-- The first fatal error comes with a call that has taken every session in the map. -/
theorem Step.fatal_before (h : Step p s a t) (hfatal : t.shared.fatalError.isSome) :
    s.shared.fatalError.isSome ∨ s.shared.fatalError = none ∧ ∃ caller error,
      t.fatalCalls caller = .completing error (values s.shared.pendingWaiters) (values s.shared.sessionsById) := by
  cases h with
  | @response _ id error result _ _ =>
    have htaken := takeResponse_spec p s.shared id error result
    rcases handleResponse_shared (s := s.note id result) htaken with hsame | hsame
    · rw [hsame] at hfatal
      exact Or.inl hfatal
    · rw [hsame] at hfatal
      exact Or.inl hfatal
  | @fatalFirst caller error _ hnone => exact Or.inr ⟨hnone, caller, error, Function.update_self _ _ _⟩
  | _ => exact Or.inl hfatal

theorem ReaderInv.reached_step (h : ReaderInv s) (hcalls : CallsOnce s) (hregistry : Registry s) (hstep : Step p s a t)
    {k : Nat} {sessionId targetId : Bytes} (hk : t.owners k = .attached sessionId targetId)
    (hfatal : t.shared.fatalError.isSome) : t.Stopping k := by
  rcases hstep.attached_before hk with hk' | hnone
  · rcases hstep.fatal_before hfatal with hfatal' | ⟨hnone, caller, error, hcall⟩
    · exact (h.reached k sessionId targetId hk' hfatal').step hcalls hstep
    · have hlookup := (hregistry.by_id sessionId k).mpr ⟨targetId, hnone, hk'⟩
      exact Or.inl ⟨caller, error, _, _, hcall, mem_values.mpr ⟨sessionId, hlookup⟩⟩
  · rw [hnone] at hfatal
    cases hfatal

theorem ReaderInv.alive_step (h : ReaderInv s) (hok : Benign p s a) (hstep : Step p s a t) (owed) : t.reader ≠ .died owed := by
  cases hstep with
  | readerInterrupted _ | consumedInterrupted _ _ _ | responseInterrupted _ => exact hok.elim
  | @readerDies payload _ hthrew =>
    have hsurvives := (decodeMessage_survives payload).mpr hok
    rw [hthrew] at hsurvives
    cases hsurvives
  | @response payload id error result _ hdecode =>
    have hsurvives := (decodeMessage_survives payload).mpr hok
    rw [hdecode] at hsurvives
    change (takeResponse p s.shared id error result).survived = true at hsurvives
    generalize takeResponse p s.shared id error result = taken at hsurvives ⊢
    cases taken with
    | threw => cases hsurvives
    | failed _ | missingWaiter | claimed _ _ _ => exact fun hdied => nomatch hdied
    | dropped | aborted | consumed _ => exact h.alive owed
  | readerFails _ | eventRouted _ _ _ | completeWaiter _ | deliverEvent _ | endReader _ _ =>
    exact fun hdied => nomatch hdied
  | _ => exact h.alive owed

theorem ReaderInv.ended_step (h : ReaderInv s) (hfatal : FatalSet s) (hok : Benign p s a) (hstep : Step p s a t)
    (hended : t.reader = .ended) : t.fatalCalls .reader = .returned ∧
      ∀ caller error waiters sessions, t.fatalCalls caller ≠ .completing error waiters sessions := by
  have hset : ∀ caller call, s.reader = .ended → s.fatalCalls caller ≠ .returned ∨ caller ≠ .reader →
      (∀ error waiters sessions, call ≠ .completing error waiters sessions) →
      Function.update s.fatalCalls caller call .reader = .returned ∧
        ∀ other error waiters sessions,
          Function.update s.fatalCalls caller call other ≠ .completing error waiters sessions := by
    intro caller call hended' hcaller hcall
    obtain ⟨hreturned, hidle⟩ := h.ended hended'
    have hne : caller ≠ .reader := hcaller.elim (fun hc he => hc (he ▸ hreturned)) id
    refine ⟨(Function.update_of_ne (Ne.symm hne) _ _).trans hreturned, ?_⟩
    intro other error waiters sessions
    by_cases he : other = caller
    · subst he
      rw [Function.update_self]
      exact hcall error waiters sessions
    · rw [Function.update_of_ne he]
      exact hidle other error waiters sessions
  cases hstep with
  | endReader _ hreturned => exact ⟨hreturned, hok⟩
  | @sendFails c _ _ _ => exact hset (.command c) (.entering _) hended (Or.inr nofun) nofun
  | @closeFails k _ _ => exact hset (.stop k) (.entering _) hended (Or.inr nofun) nofun
  | @fatalAgain caller _ hcall _ => exact hset caller .returned hended (Or.inl (by rw [hcall]; nofun)) nofun
  | fatalFirst _ hnone =>
    have hsome := hfatal .reader (by rw [(h.ended hended).1]; rfl)
    rw [hnone] at hsome
    cases hsome
  | fatalWaiter hcall => exact absurd hcall ((h.ended hended).2 _ _ _ _)
  | fatalSession hcall => exact absurd hcall ((h.ended hended).2 _ _ _ _)
  | fatalDone hcall => exact absurd hcall ((h.ended hended).2 _ _ _ _)
  | readerFails _ | readerDies _ _ | readerInterrupted _ | consumedInterrupted _ _ _ | responseInterrupted _
  | eventRouted _ _ _ | completeWaiter _ | deliverEvent _ => cases hended
  | @response _ id error result hreader _ =>
    cases htaken : takeResponse p s.shared id error result with
    | failed _ | missingWaiter | threw | claimed _ _ _ =>
      rw [htaken] at hended
      cases hended
    | dropped | aborted | consumed _ =>
      rw [htaken] at hended
      cases hreader.symm.trans hended
  | _ => exact h.ended hended

/-- A harmless payload does not abort the process. -/
theorem receive_not_aborted {payload : Bytes} (hok : p.Harmless s.shared payload)
    (hstep : step p s (.receive payload) = some t) : t.aborted = false := by
  have hsurvives := (decodeMessage_survives payload).mpr hok
  unfold step at hstep
  split at hstep
  · cases hstep
  · rename_i hrunning
    have hrunning' : s.aborted = false := Bool.eq_false_iff.mpr hrunning
    simp only at hstep
    split at hstep
    · cases hstep
      unfold System.handleMessage
      cases hdecode : p.decodeMessage payload with
      | failed e => exact hrunning'
      | threw => exact hrunning'
      | response id error result =>
        rw [hdecode] at hsurvives
        change (takeResponse p s.shared id error result).survived = true at hsurvives
        simp only
        cases htaken : takeResponse p s.shared id error result with
        | aborted =>
          rw [htaken] at hsurvives
          cases hsurvives
        | _ => exact hrunning'
      | event routingSessionId routingTargetId event =>
        simp only
        split
        · exact hrunning'
        · exact hrunning'
    · cases hstep

end Steps

section Runs
variable {p : CdpParsers} {s t : System} {actions : List Action}

/-- What holds of the client in every state of a benign run. -/
structure Client (s : System) : Prop where
  ordered : Ordered s
  sessions : Sessions s
  reader : ReaderInv s

theorem Client.after {a : Action} (h : Client s) (hok : Benign p s a) (hstep : step p s a = some t) : Client t :=
  have hspec := step_spec hstep
  { ordered := h.ordered.after hspec
    sessions := ⟨h.sessions.registry.step hok.distinctLive hspec, h.sessions.delivers.step hspec⟩
    reader :=
      { alive := h.reader.alive_step hok hspec
        ended := h.reader.ended_step h.ordered.fatal hok hspec
        reached := fun _ _ _ => h.reader.reached_step h.ordered.calls h.sessions.registry hspec } }

theorem client (h : Run (step p) (Benign p) {} actions s) : Client s :=
  h.invariant Client ⟨ordered (p := p) (.nil _), .initial, ⟨fun _ => nofun, nofun, nofun⟩⟩
    fun _ _ _ hok hstep hs => hs.after hok hstep

/-- Whose waiter is completed has an error or the result of a response with its id. -/
theorem CommandInv.completed (h : CommandInv s.commandView) {c : Nat} {id : Int} (hid : (s.commands c).id? = some id)
    (hdone : (s.waiters c).done = true) :
    (s.waiters c).error.isSome ∨ ∃ result, (s.waiters c).result = some result ∧ (id, result) ∈ s.history.received := by
  rcases h.waiter_value c with hvalue | ⟨id', reply, hid', hvalue, hanswers⟩
  · rw [show s.waiters c = {} from hvalue] at hdone
    cases hdone
  · rw [show s.waiters c = _ from hvalue]
    cases hid.symm.trans hid'
    cases reply with
    | error e => exact Or.inl rfl
    | ok result => exact Or.inr ⟨result, rfl, hanswers result rfl⟩

/-- In a benign run no payload kills the reader or aborts the process, and once the reader has returned there is a
fatal error, no command waits: each that was given an id timed out, or had its response, or was completed with an
error; and every session in use is stopped with an error. -/
theorem reader_end (p : CdpParsers) {actions : List Action} {s : System} (h : Run (step p) (Benign p) {} actions s) :
    (∀ owed, s.reader ≠ .died owed) ∧
    (∀ payload t, Benign p s (.receive payload) → step p s (.receive payload) = some t →
      t.aborted = false ∧ ∀ owed, t.reader ≠ .died owed) ∧
    (s.reader = .ended → s.shared.fatalError.isSome ∧
      s.shared.pendingWaiters = ∅ ∧ s.shared.pendingRequests = ∅ ∧
      (∀ c id, (s.commands c).id? = some id → s.commands c = .expired id ∨ (s.waiters c).done = true ∧
        ((s.waiters c).error.isSome ∨
          ∃ result, (s.waiters c).result = some result ∧ (id, result) ∈ s.history.received)) ∧
      ∀ k sessionId targetId, s.owners k = .attached sessionId targetId →
        (s.sessions k).stopped = true ∧ (s.sessions k).error.isSome) := by
  have hs := client h
  refine ⟨hs.reader.alive, ?_, ?_⟩
  · intro payload t hok hstep
    exact ⟨receive_not_aborted hok hstep, hs.reader.alive_step hok (step_spec hstep)⟩
  · intro hended
    obtain ⟨hreturned, hidle⟩ := hs.reader.ended hended
    have hfatal := hs.ordered.fatal .reader (by rw [hreturned]; rfl)
    obtain ⟨hwaiters, hrequests⟩ := hs.ordered.commands.fatal_empty hfatal
    refine ⟨hfatal, hwaiters, hrequests, ?_, ?_⟩
    · intro c id hid
      rcases hs.ordered.commands.located hid with hmap | hexpired | hleft | htransit | hdone
      · rw [show s.shared.pendingWaiters = ∅ from hwaiters] at hmap
        cases hmap
      · exact Or.inl hexpired
      · obtain ⟨id', reply, hreader⟩ := hleft
        exact absurd hreader (hs.reader.alive _)
      · rcases htransit with ⟨_, _, hreader⟩ | ⟨caller, error, waiters, sessions, hcall, _⟩
        · cases hended.symm.trans hreader
        · exact absurd hcall (hidle caller error waiters sessions)
      · exact Or.inr ⟨hdone, hs.ordered.commands.completed hid hdone⟩
    · intro k sessionId targetId hk
      rcases hs.reader.reached k sessionId targetId hk hfatal with
        ⟨caller, error, waiters, sessions, hcall, _⟩ | hstopped
      · exact absurd hcall (hidle caller error waiters sessions)
      · exact ⟨hstopped, (hs.sessions.delivers k).stopped_error.trans hstopped⟩

/-- Parsers for an array and for a response whose error is a string. -/
private def strayParsers : CdpParsers where
  una := asciiUna
  parseJson text :=
    if text = ascii "[]" then some (.array [])
    else if text = ascii "\x7b\"id\":1,\"error\":\"x\"\x7d" then
      some (.object [(ascii "id", .number (some 1)), (ascii "error", .string (ascii "x"))])
    else none
  asCdpError _ := .jsonException
  asCdpEventMessage _ := .jsonException

private def ReaderPhase.isDead : ReaderPhase → Bool
  | died none => true
  | _ => false

private theorem ReaderPhase.eq_died {phase : ReaderPhase} (h : phase.isDead = true) : phase = .died none := by
  unfold ReaderPhase.isDead at h
  split at h
  · rfl
  · cases h

private def FatalCall.isLast : FatalCall → Bool
  | completing _ [] [] => true
  | _ => false

private theorem FatalCall.eq_last {call : FatalCall} (h : call.isLast = true) :
    ∃ error, call = .completing error [] [] := by
  unfold FatalCall.isLast at h
  split at h
  · exact ⟨_, rfl⟩
  · cases h

private def ReaderPhase.isFailing : ReaderPhase → Bool
  | failing => true
  | _ => false

private theorem ReaderPhase.eq_failing {phase : ReaderPhase} (h : phase.isFailing = true) : phase = .failing := by
  cases phase with
  | failing => rfl
  | _ => cases h

/-- A command waits and a session is in use when the browser closes the socket. -/
private def closeRun : List Action :=
  [.makeSession 0 (ascii "S") (ascii "T"), .sendRaw 0 (ascii "Page.enable") none, .sent 0, .receiveClose 1000,
    .setFatalError .reader, .setFatalError .reader, .setFatalError .reader]

theorem reader_end_after_close : ∃ actions s, Run (step strayParsers) (Benign strayParsers) {} actions s ∧
    s.reader = .ended ∧ s.shared.fatalError.isSome ∧ s.shared.pendingWaiters = ∅ := by
  have hexec : (execute (step strayParsers) {} closeRun).any
      (fun s => (s.fatalCalls .reader).isLast && s.reader.isFailing && !s.aborted) = true := rfl
  obtain ⟨s, hrun, htest⟩ := Run.exists_of_execute _ hexec
  obtain ⟨htest, hrunning⟩ := Bool.and_eq_true_iff.mp htest
  obtain ⟨hlast, hfailing⟩ := Bool.and_eq_true_iff.mp htest
  obtain ⟨error, hcall⟩ := FatalCall.eq_last hlast
  have hreader := ReaderPhase.eq_failing hfailing
  have hrunning' : s.aborted = false := by simpa using hrunning
  have hunique := (ordered hrun).commands.queue_unique
  have hrun' : Run (step strayParsers) (Benign strayParsers) {} closeRun s := by
    cases hrun with
    | cons _ hstep hrest =>
      refine .cons (fun _ _ _ howner => nomatch howner) hstep (hrest.of_allowed ?_)
      simp [Benign]
  have hdone : step strayParsers s (.setFatalError .reader) = some (s.setFatalCall .reader .returned) := by
    simp [step, System.stepFatal, hrunning', hcall]
  have hreturned : (s.setFatalCall .reader .returned).fatalCalls .reader = .returned :=
    setFatalCall_self .reader .returned
  have hend : step strayParsers (s.setFatalCall .reader .returned) .endReader =
      some { s.setFatalCall .reader .returned with reader := .ended } := by
    unfold step
    simp only [show (s.setFatalCall .reader .returned).aborted = false from hrunning',
      show (s.setFatalCall .reader .returned).reader = .failing from hreader, hreturned, Bool.false_eq_true, if_false]
  have hbenign : Benign strayParsers (s.setFatalCall .reader .returned) .endReader := by
    intro caller error' waiters sessions hbusy
    by_cases he : caller = .reader
    · subst he
      cases hreturned.symm.trans hbusy
    · have hbusy' : s.fatalCalls caller = .completing error' waiters sessions :=
        (setFatalCall_of_ne he .returned).symm.trans hbusy
      exact he (hunique caller .reader waiters [] (congrArg FatalCall.queue hbusy') (congrArg FatalCall.queue hcall))
  have hallowed : Benign strayParsers s (.setFatalError .reader) := trivial
  have hall := hrun'.append (.cons hallowed hdone (.cons hbenign hend (.nil _)))
  obtain ⟨-, -, hended⟩ := reader_end strayParsers hall
  obtain ⟨hfatal, hwaiters, -⟩ := hended rfl
  exact ⟨_, _, hall, rfl, hfatal, hwaiters⟩

/-- An array kills the reader and leaves the command waiting; so does a stop that cuts off the trace of a close; and an
error that is a string aborts the process. -/
theorem payload_kills_reader :
    (∃ s, Run (step strayParsers) always {}
      [.sendRaw 0 (ascii "Page.enable") none, .sent 0, .receive (ascii "[]")] s ∧ s.reader = .died none ∧
      s.shared.fatalError = none ∧ s.shared.pendingWaiters.lookup 1 = some 0 ∧ (s.waiters 0).done = false) ∧
    (∃ s, Run (step strayParsers) always {}
      [.sendRaw 0 (ascii "Page.enable") none, .sent 0, .stop 0, .traceThrows (.close 1000)] s ∧
      s.reader = .died none ∧ s.shared.fatalError = none ∧ s.shared.pendingWaiters.lookup 1 = some 0 ∧
      (s.waiters 0).done = false) ∧
    ∃ s, Run (step strayParsers) always {}
      [.sendRaw 0 (ascii "Page.enable") none, .sent 0, .receive (ascii "\x7b\"id\":1,\"error\":\"x\"\x7d")] s ∧
      s.aborted = true := by
  have hdead : ∀ actions : List Action, ((execute (step strayParsers) {} actions).any
      (fun s => s.reader.isDead && (decide (s.shared.fatalError = none) &&
        (decide (s.shared.pendingWaiters.lookup 1 = some 0) && !(s.waiters 0).done))) = true) →
      ∃ s, Run (step strayParsers) always {} actions s ∧ s.reader = .died none ∧ s.shared.fatalError = none ∧
        s.shared.pendingWaiters.lookup 1 = some 0 ∧ (s.waiters 0).done = false := by
    intro actions hexec
    obtain ⟨s, hrun, htest⟩ := Run.exists_of_execute _ hexec
    simp only [Bool.and_eq_true, decide_eq_true_eq, Bool.not_eq_true'] at htest
    obtain ⟨hreader, hfatal, hwaiter, hdone⟩ := htest
    exact ⟨s, hrun, ReaderPhase.eq_died hreader, hfatal, hwaiter, hdone⟩
  have haborted : (execute (step strayParsers) {}
      [.sendRaw 0 (ascii "Page.enable") none, .sent 0,
        .receive (ascii "\x7b\"id\":1,\"error\":\"x\"\x7d")]).any (·.aborted) = true := by decide +kernel
  exact ⟨hdead _ (by decide +kernel), hdead _ (by decide +kernel), Run.exists_of_execute _ haborted⟩

end Runs
end Webshot.Crawler
