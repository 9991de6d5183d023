import Webshot.Crawler.CdpSteps
import Webshot.Foundation.TransitionRuns

/-! DevTools events: to which session an event goes, and what of it reaches the session's owner. -/
namespace Webshot.Crawler
open Text Foundation.KeyedMaps Foundation.TransitionRuns

/-- The session was made, its owner still has it, and the client has not failed. -/
def System.Registered (s : System) (k : Nat) (sessionId targetId : Bytes) : Prop :=
  s.shared.fatalError = none ∧ s.owners k = .attached sessionId targetId

/-- The event is for the session: by its session id, or by its target id where no registered session has
the session id. -/
def System.Addressed (s : System) (routingSessionId routingTargetId : Option Bytes) (k : Nat) : Prop :=
  (∃ sessionId targetId, s.Registered k sessionId targetId ∧ routingSessionId = some sessionId) ∨
    (∀ k' sessionId targetId, s.Registered k' sessionId targetId → routingSessionId ≠ some sessionId) ∧
      ∃ sessionId targetId, s.Registered k sessionId targetId ∧ routingTargetId = some targetId

/-- A session is made under ids that no session in use has. -/
def DistinctLive (s : System) : Action → Prop
  | .makeSession _ sessionId targetId => ∀ k sessionId' targetId', s.owners k = .attached sessionId' targetId' →
      sessionId' ≠ sessionId ∧ targetId' ≠ targetId
  | _ => True

/-- The two maps hold exactly the registered sessions. -/
structure Registry (s : System) : Prop where
  by_id : ∀ sessionId k, s.shared.sessionsById.lookup sessionId = some k ↔ ∃ targetId, s.Registered k sessionId targetId
  by_target : ∀ targetId k, s.shared.sessionsByTargetId.lookup targetId = some k ↔
    ∃ sessionId, s.Registered k sessionId targetId

/-- The event the reader has routed to the session and not queued yet. -/
def ReaderPhase.undelivered (phase : ReaderPhase) (k : Nat) : List CdpEvent :=
  match phase with
  | delivering k' event => if k' = k then [event] else []
  | _ => []

/-- What the owner of a session was given and what is queued for it, against what was routed to it. -/
structure Delivery (session : CdpSessionState) (delivered routed undelivered : List CdpEvent) : Prop where
  in_order : delivered ++ session.events <+: routed
  complete : session.stopped = false → delivered ++ session.events ++ undelivered = routed
  stopped_error : session.error.isSome = session.stopped

def System.Delivers (s : System) : Prop :=
  ∀ k, Delivery (s.sessions k) (s.history.delivered k) (s.history.routed k) (s.reader.undelivered k)

theorem CdpSessionState.unregister_error (session : CdpSessionState) : session.unregister.error.isSome = true := by
  unfold CdpSessionState.unregister
  cases session.error <;> rfl

namespace Delivery
variable {session session' : CdpSessionState} {delivered routed undelivered events rest : List CdpEvent}
  {event : CdpEvent}

/-- The session is marked stopped, with an error. -/
theorem stop (h : Delivery session delivered routed undelivered) (hevents : session'.events = session.events)
    (hstopped : session'.stopped = true) (herror : session'.error.isSome = true) :
    Delivery session' delivered routed undelivered := by
  refine ⟨?_, ?_, herror.trans hstopped.symm⟩
  · rw [hevents]
    exact h.in_order
  · rw [hstopped]
    nofun

theorem handOver (h : Delivery session delivered routed undelivered) (hsplit : session.events = events ++ rest) :
    Delivery { session with events := rest } (delivered ++ events) routed undelivered := by
  have hsame : delivered ++ events ++ rest = delivered ++ session.events := by rw [hsplit, List.append_assoc]
  refine ⟨?_, ?_, h.stopped_error⟩
  · change delivered ++ events ++ rest <+: routed
    rw [hsame]
    exact h.in_order
  · change session.stopped = false → delivered ++ events ++ rest ++ undelivered = routed
    rw [hsame]
    exact h.complete

/-- The reader routes an event to the session. -/
theorem route (h : Delivery session delivered routed []) (event : CdpEvent) :
    Delivery session delivered (routed ++ [event]) [event] := by
  refine ⟨h.in_order.trans (List.prefix_append _ _), ?_, h.stopped_error⟩
  intro hopen
  have hall := h.complete hopen
  rw [List.append_nil] at hall
  rw [hall]

/-- The reader queues the event it has routed, unless the session was stopped meanwhile. -/
theorem push (h : Delivery session delivered routed [event]) : Delivery (session.push event) delivered routed [] := by
  have herror := h.stopped_error
  cases hstopped : session.stopped with
  | true =>
    rw [show session.push event = session by simp [CdpSessionState.push, hstopped]]
    refine ⟨h.in_order, ?_, herror⟩
    rw [hstopped]
    nofun
  | false =>
    have hall := h.complete hstopped
    rw [List.append_assoc] at hall
    rw [hstopped] at herror
    have hpush : session.push event = { session with events := session.events ++ [event] } := by
      simp [CdpSessionState.push, hstopped, herror]
    rw [hpush]
    refine ⟨?_, ?_, h.stopped_error⟩
    · exact ⟨[], (List.append_nil _).trans hall⟩
    · intro _
      change delivered ++ (session.events ++ [event]) ++ [] = routed
      rw [hall, List.append_nil]

end Delivery

theorem lookup_eraseOwn (m : KeyedMap Bytes Nat) (key key' : Bytes) (k k' : Nat) :
    (System.eraseOwn m key k).lookup key' = some k' ↔ m.lookup key' = some k' ∧ ¬(key' = key ∧ k' = k) := by
  unfold System.eraseOwn
  split
  · rename_i hown
    rw [lookup_erase_eq]
    split
    · rename_i he
      rw [he, hown]
      refine ⟨nofun, ?_⟩
      rintro ⟨hk, hne⟩
      exact absurd ⟨rfl, (Option.some.inj hk).symm⟩ hne
    · rename_i hne
      exact ⟨fun h => ⟨h, fun he => hne he.1⟩, And.left⟩
  · rename_i hother
    refine ⟨fun h => ⟨h, ?_⟩, And.left⟩
    rintro ⟨rfl, rfl⟩
    exact hother h

section Steps
variable {p : CdpParsers} {s t : System} {a : Action}

/-- By session id or by target id, an event goes where it is addressed. -/
theorem Registry.routeEvent_iff (h : Registry s) (routingSessionId routingTargetId : Option Bytes) (k : Nat) :
    routeEvent s.shared routingSessionId routingTargetId = some k ↔ s.Addressed routingSessionId routingTargetId k := by
  unfold routeEvent System.Addressed
  cases hsession : routingSessionId.bind s.shared.sessionsById.lookup with
  | some k' =>
    obtain ⟨sessionId, rfl, hlookup⟩ := Option.bind_eq_some_iff.mp hsession
    obtain ⟨targetId, hregistered⟩ := (h.by_id sessionId k').mp hlookup
    constructor
    · rintro ⟨⟩
      exact Or.inl ⟨sessionId, targetId, hregistered, rfl⟩
    · rintro (⟨_, targetId', hregistered', ⟨⟩⟩ | ⟨hnone, _⟩)
      · exact hlookup.symm.trans ((h.by_id sessionId k).mpr ⟨targetId', hregistered'⟩)
      · exact absurd rfl (hnone k' sessionId targetId hregistered)
  | none =>
    have hnone : ∀ k' sessionId targetId, s.Registered k' sessionId targetId → routingSessionId ≠ some sessionId := by
      rintro k' sessionId targetId hregistered rfl
      cases ((h.by_id sessionId k').mpr ⟨targetId, hregistered⟩).symm.trans hsession
    constructor
    · intro htarget
      obtain ⟨targetId, rfl, hlookup⟩ := Option.bind_eq_some_iff.mp htarget
      obtain ⟨sessionId, hregistered⟩ := (h.by_target targetId k).mp hlookup
      exact Or.inr ⟨hnone, sessionId, targetId, hregistered, rfl⟩
    · rintro (⟨sessionId, targetId, hregistered, rfl⟩ | ⟨_, sessionId, targetId, hregistered, rfl⟩)
      · exact absurd rfl (hnone k sessionId targetId hregistered)
      · exact (h.by_target targetId k).mpr ⟨sessionId, hregistered⟩

namespace Registry

/-- A session that is not registered changes to a phase in which it is not either. -/
theorem setOwner (h : Registry s) {k : Nat} {phase : OwnerPhase} (hold : ∀ id target, s.owners k ≠ .attached id target)
    (hnew : ∀ id target, phase ≠ .attached id target) : Registry (s.setOwner k phase) := by
  have hsame : ∀ k' id target, (s.setOwner k phase).Registered k' id target ↔ s.Registered k' id target := by
    intro k' id target
    refine and_congr_right fun _ => ?_
    change Function.update s.owners k phase k' = _ ↔ _
    by_cases he : k' = k
    · subst he
      rw [Function.update_self]
      exact iff_of_false (hnew id target) (hold id target)
    · rw [Function.update_of_ne he]
  exact ⟨fun id k' => (h.by_id id k').trans (exists_congr fun target => (hsame k' id target).symm),
    fun target k' => (h.by_target target k').trans (exists_congr fun id => (hsame k' id target).symm)⟩

/-- One of the two maps once a session is in it. -/
private theorem insert_session {m : KeyedMap Bytes Nat} {key : Bytes} {k : Nat} {P Q : Nat → Bytes → Prop}
    (hm : ∀ key' k', m.lookup key' = some k' ↔ P k' key') (hnew : ∀ key', ¬P k key') (hfresh : ∀ k', ¬P k' key)
    (hself : ∀ key', Q k key' ↔ key' = key) (hother : ∀ k' key', k' ≠ k → (Q k' key' ↔ P k' key'))
    (key' : Bytes) (k' : Nat) :
    (emplace m key k).lookup key' = some k' ↔ Q k' key' := by
  have habsent : m.lookup key = none :=
    Option.eq_none_iff_forall_ne_some.mpr fun k' hk' => hfresh k' ((hm key k').mp hk')
  rw [emplace_of_notMem (notMem_of_lookup habsent), lookup_insert_eq]
  by_cases hk : k' = k
  · subst hk
    rw [hself]
    split
    · exact iff_of_true rfl ‹_›
    · rename_i hne
      exact iff_of_false (fun hlookup => hnew key' ((hm key' k').mp hlookup)) hne
  · rw [hother k' key' hk]
    split
    · rename_i he
      rw [he]
      exact iff_of_false (fun hkk => hk (Option.some.inj hkk).symm) (hfresh k')
    · exact hm key' k'

theorem makeSession (h : Registry s) {k : Nat} {id target : Bytes} (hmade : s.owners k = .notMade)
    (hfatal : s.shared.fatalError = none)
    (hdistinct : ∀ k' id' target', s.owners k' = .attached id' target' → id' ≠ id ∧ target' ≠ target) :
    Registry { s.setOwner k (.attached id target) with
      shared := { s.shared with
        sessionsById := emplace s.shared.sessionsById id k
        sessionsByTargetId := emplace s.shared.sessionsByTargetId target k } } := by
  have hself : Function.update s.owners k (.attached id target) k = .attached id target := Function.update_self _ _ _
  have hother : ∀ k', k' ≠ k → Function.update s.owners k (.attached id target) k' = s.owners k' :=
    fun k' hne => Function.update_of_ne hne _ _
  have hnew : ∀ id' target', ¬s.Registered k id' target' := fun _ _ hreg => nomatch hmade.symm.trans hreg.2
  refine ⟨insert_session h.by_id ?_ ?_ ?_ ?_, insert_session h.by_target ?_ ?_ ?_ ?_⟩
  · exact fun id' ⟨target', hreg⟩ => hnew id' target' hreg
  · exact fun k' ⟨target', hreg⟩ => (hdistinct k' id target' hreg.2).1 rfl
  · intro id'
    constructor
    · rintro ⟨target', _, hreg⟩
      cases hself.symm.trans hreg
      rfl
    · rintro rfl
      exact ⟨target, hfatal, hself⟩
  · exact fun k' id' hne => exists_congr fun target' => and_congr_right fun _ => by
      rw [← hother k' hne]
      rfl
  · exact fun target' ⟨id', hreg⟩ => hnew id' target' hreg
  · exact fun k' ⟨id', hreg⟩ => (hdistinct k' id' target hreg.2).2 rfl
  · intro target'
    constructor
    · rintro ⟨id', _, hreg⟩
      cases hself.symm.trans hreg
      rfl
    · rintro rfl
      exact ⟨id, hfatal, hself⟩
  · exact fun k' target' hne => exists_congr fun id' => and_congr_right fun _ => by
      rw [← hother k' hne]
      rfl

theorem unregisterSession (h : Registry s) {k : Nat} {id target : Bytes} (howner : s.owners k = .attached id target) :
    Registry (s.unregisterSession k id target) := by
  have hself : Function.update s.owners k .unregistered k = .unregistered := Function.update_self _ _ _
  have hreg : ∀ k' id' target', (s.unregisterSession k id target).Registered k' id' target' ↔
      s.Registered k' id' target' ∧ k' ≠ k := by
    intro k' id' target'
    change _ ∧ Function.update s.owners k .unregistered k' = _ ↔ (_ ∧ _) ∧ _
    by_cases he : k' = k
    · subst he
      rw [hself]
      exact iff_of_false (fun h => nomatch h.2) (fun h => h.2 rfl)
    · rw [Function.update_of_ne he]
      exact (and_iff_left he).symm
  constructor
  · intro id' k'
    refine (lookup_eraseOwn _ _ _ _ _).trans ?_
    rw [h.by_id id' k']
    constructor
    · rintro ⟨⟨target', hreg'⟩, hne⟩
      refine ⟨target', (hreg k' id' target').mpr ⟨hreg', ?_⟩⟩
      rintro rfl
      cases howner.symm.trans hreg'.2
      exact hne ⟨rfl, rfl⟩
    · rintro ⟨target', hreg'⟩
      obtain ⟨hold, hne⟩ := (hreg k' id' target').mp hreg'
      exact ⟨⟨target', hold⟩, fun he => hne he.2⟩
  · intro target' k'
    refine (lookup_eraseOwn _ _ _ _ _).trans ?_
    rw [h.by_target target' k']
    constructor
    · rintro ⟨⟨id', hreg'⟩, hne⟩
      refine ⟨id', (hreg k' id' target').mpr ⟨hreg', ?_⟩⟩
      rintro rfl
      cases howner.symm.trans hreg'.2
      exact hne ⟨rfl, rfl⟩
    · rintro ⟨id', hreg'⟩
      obtain ⟨hold, hne⟩ := (hreg k' id' target').mp hreg'
      exact ⟨⟨id', hold⟩, fun he => hne he.2⟩

theorem step (h : Registry s) (hok : DistinctLive s a) (hstep : Step p s a t) : Registry t := by
  cases hstep with
  | @response _ id error result _ _ =>
    have hspec := takeResponse_spec p s.shared id error result
    generalize takeResponse p s.shared id error result = taken at hspec ⊢
    cases taken with
    | consumed state =>
      obtain ⟨rfl, _⟩ := hspec
      exact ⟨h.by_id, h.by_target⟩
    | claimed state waiter reply =>
      obtain ⟨rfl, _⟩ := hspec
      exact ⟨h.by_id, h.by_target⟩
    | _ => exact ⟨h.by_id, h.by_target⟩
  | fatalFirst _ _ =>
    refine ⟨fun id k => iff_of_false (fun hk => nomatch hk) ?_, fun target k => iff_of_false (fun hk => nomatch hk) ?_⟩
    · rintro ⟨_, hreg, _⟩
      cases hreg
    · rintro ⟨_, hreg, _⟩
      cases hreg
  | refuseSession hmade => exact h.setOwner (fun id target howner => nomatch hmade.symm.trans howner) nofun
  | makeSession hmade hfatal => exact h.makeSession hmade hfatal hok
  | unregisterSession howner => exact h.unregisterSession howner
  | markUnregistered howner =>
    exact Registry.setOwner (s := s.setSession _ _) ⟨h.by_id, h.by_target⟩
      (fun id target howner' => nomatch howner.symm.trans howner') nofun
  | _ => exact ⟨h.by_id, h.by_target⟩

end Registry

theorem System.Delivers.step (h : s.Delivers) (hstep : Step p s a t) : t.Delivers := by
  intro k
  have hquiet : ∀ {phase}, s.reader = phase → phase.undelivered k = [] →
      Delivery (s.sessions k) (s.history.delivered k) (s.history.routed k) [] := by
    intro phase hreader hnil
    rw [← hnil, ← hreader]
    exact h k
  have hsession : ∀ {k' session routed undelivered},
      Delivery (s.sessions k) (s.history.delivered k) routed undelivered →
      (k = k' → Delivery session (s.history.delivered k) routed undelivered) →
      Delivery (Function.update s.sessions k' session k) (s.history.delivered k) routed undelivered := by
    intro k' session routed undelivered hother hself
    by_cases he : k = k'
    · subst he
      rw [Function.update_self]
      exact hself rfl
    · rw [Function.update_of_ne he]
      exact hother
  have hhandOver : ∀ {k' events rest}, (s.sessions k').events = events ++ rest →
      Delivery ((s.handOver k' events rest).sessions k) ((s.handOver k' events rest).history.delivered k)
        (s.history.routed k) (s.reader.undelivered k) := by
    intro k' events rest hsplit
    change Delivery (Function.update s.sessions k' _ k) (Function.update s.history.delivered k' _ k) _ _
    by_cases he : k = k'
    · subst he
      rw [Function.update_self, Function.update_self]
      exact (h k).handOver hsplit
    · rw [Function.update_of_ne he, Function.update_of_ne he]
      exact h k
  cases hstep with
  | readerFails hreader => exact hquiet hreader rfl
  | readerDies hreader _ => exact hquiet hreader rfl
  | readerInterrupted hreader => exact hquiet hreader rfl
  | consumedInterrupted hreader _ _ => exact hquiet hreader rfl
  | responseInterrupted hreader => exact hquiet hreader rfl
  | @response _ id error result hreader _ =>
    cases takeResponse p s.shared id error result with
    | failed e => exact hquiet hreader rfl
    | missingWaiter => exact hquiet hreader rfl
    | threw => exact hquiet hreader rfl
    | claimed state waiter reply => exact hquiet hreader rfl
    | dropped | aborted | consumed _ => exact h k
  | @eventRouted _ _ _ event k' hreader _ _ =>
    change Delivery _ _ (Function.update s.history.routed k' _ k) (if k' = k then [event] else [])
    by_cases he : k' = k
    · subst he
      rw [Function.update_self, if_pos rfl]
      exact (hquiet hreader rfl).route event
    · rw [Function.update_of_ne (Ne.symm he), if_neg he]
      exact hquiet hreader rfl
  | completeWaiter hreader => exact hquiet hreader rfl
  | @deliverEvent k' event hreader =>
    change Delivery (Function.update s.sessions k' _ k) _ _ []
    by_cases he : k' = k
    · subst he
      have hk := h k'
      rw [hreader, ReaderPhase.undelivered, if_pos rfl] at hk
      rw [Function.update_self]
      exact hk.push
    · rw [Function.update_of_ne (Ne.symm he)]
      exact hquiet hreader (if_neg he)
  | endReader hreader _ => exact hquiet hreader rfl
  | fatalSession _ => exact hsession (h k) fun he => he ▸ (h k).stop rfl rfl rfl
  | waitEvent hevents => exact hhandOver hevents
  | drainEvents => exact hhandOver (List.append_nil _).symm
  | markUnregistered _ =>
    exact hsession (h k) fun he => he ▸ (h k).stop rfl rfl (CdpSessionState.unregister_error _)
  | _ => exact h k

/-- Nothing is queued to a stopped session, which stays stopped. -/
theorem Step.stopped_kept (h : Step p s a t) {k : Nat} (hstopped : (s.sessions k).stopped = true) :
    (t.sessions k).stopped = true ∧ t.history.delivered k ++ (t.sessions k).events =
      s.history.delivered k ++ (s.sessions k).events := by
  have hsession : ∀ {k' session}, (k = k' → session.stopped = true ∧ session.events = (s.sessions k).events) →
      (Function.update s.sessions k' session k).stopped = true ∧
        s.history.delivered k ++ (Function.update s.sessions k' session k).events =
          s.history.delivered k ++ (s.sessions k).events := by
    intro k' session hself
    by_cases he : k = k'
    · obtain ⟨hstopped', hevents⟩ := hself he
      subst he
      rw [Function.update_self, hevents]
      exact ⟨hstopped', rfl⟩
    · rw [Function.update_of_ne he]
      exact ⟨hstopped, rfl⟩
  have hhandOver : ∀ {k' events rest}, (s.sessions k').events = events ++ rest →
      ((s.handOver k' events rest).sessions k).stopped = true ∧
        (s.handOver k' events rest).history.delivered k ++ ((s.handOver k' events rest).sessions k).events =
          s.history.delivered k ++ (s.sessions k).events := by
    intro k' events rest hsplit
    change (Function.update s.sessions k' _ k).stopped = true ∧
      Function.update s.history.delivered k' _ k ++ (Function.update s.sessions k' _ k).events = _
    by_cases he : k = k'
    · subst he
      rw [Function.update_self, Function.update_self, hsplit, List.append_assoc]
      exact ⟨hstopped, rfl⟩
    · rw [Function.update_of_ne he, Function.update_of_ne he]
      exact ⟨hstopped, rfl⟩
  cases h with
  | response _ _ =>
    rw [handleResponse_sessions, handleResponse_history]
    exact ⟨hstopped, rfl⟩
  | deliverEvent _ =>
    refine hsession ?_
    rintro rfl
    rw [CdpSessionState.push, hstopped, Bool.true_or, if_pos rfl]
    exact ⟨hstopped, rfl⟩
  | fatalSession _ => exact hsession fun he => he ▸ ⟨rfl, rfl⟩
  | waitEvent hevents => exact hhandOver hevents
  | drainEvents => exact hhandOver (List.append_nil _).symm
  | markUnregistered _ => exact hsession fun he => he ▸ ⟨rfl, rfl⟩
  | _ => exact ⟨hstopped, rfl⟩

/-- Only an event the reader routes to a session adds to what was routed to it. -/
theorem Step.routed (h : Step p s a t) (k : Nat) :
    t.history.routed k = s.history.routed k ∨ ∃ payload routingSessionId routingTargetId event, a = .receive payload ∧
      p.decodeMessage payload = .event routingSessionId routingTargetId event ∧
      routeEvent s.shared routingSessionId routingTargetId = some k := by
  cases h with
  | response _ _ =>
    rw [handleResponse_history]
    exact Or.inl rfl
  | @eventRouted payload routingSessionId routingTargetId event k' _ hevent hroute =>
    by_cases he : k = k'
    · exact Or.inr ⟨payload, routingSessionId, routingTargetId, event, rfl, hevent, he ▸ hroute⟩
    · exact Or.inl (Function.update_of_ne he _ _)
  | _ => exact Or.inl rfl

theorem receive_routed {payload : Bytes} {routingSessionId routingTargetId : Option Bytes} {event : CdpEvent} {k : Nat}
    (hstep : step p s (.receive payload) = some t)
    (hevent : p.decodeMessage payload = .event routingSessionId routingTargetId event)
    (hroute : routeEvent s.shared routingSessionId routingTargetId = some k) :
    t.history.routed k = s.history.routed k ++ [event] := by
  unfold step at hstep
  split at hstep
  · cases hstep
  · simp only at hstep
    split at hstep
    · cases hstep
      rw [System.handleMessage, hevent]
      simp only [hroute]
      exact Function.update_self _ _ _
    · cases hstep

/-- A session that is stopped has an error for whoever waits for its events. -/
theorem Delivery.wait_fails {session : CdpSessionState} {delivered routed undelivered : List CdpEvent}
    (h : Delivery session delivered routed undelivered) (hstopped : session.stopped = true) :
    session.ready = true ∧ ∃ error, session.next = some (.error error) := by
  have herror := h.stopped_error
  rw [hstopped] at herror
  obtain ⟨error, herror⟩ := Option.isSome_iff_exists.mp herror
  refine ⟨?_, error, ?_⟩
  · rw [CdpSessionState.ready, hstopped, Bool.or_true]
  · rw [CdpSessionState.next, herror]

end Steps

section Runs
variable {p : CdpParsers} {s t : System} {actions later : List Action}

/-- What holds of sessions in every state of every run. -/
structure Sessions (s : System) : Prop where
  registry : Registry s
  delivers : s.Delivers

theorem Sessions.run (h : Sessions s) (hrun : Run (step p) DistinctLive s later t) : Sessions t :=
  hrun.invariant Sessions h fun _ _ _ hok hstep hs =>
    ⟨hs.registry.step hok (step_spec hstep), hs.delivers.step (step_spec hstep)⟩

theorem Sessions.initial : Sessions {} := by
  refine ⟨⟨?_, ?_⟩, ?_⟩
  · exact fun _ _ => iff_of_false (fun hk => nomatch hk) fun ⟨_, hreg⟩ => nomatch hreg.2
  · exact fun _ _ => iff_of_false (fun hk => nomatch hk) fun ⟨_, hreg⟩ => nomatch hreg.2
  · exact fun _ => ⟨List.prefix_rfl, fun _ => rfl, rfl⟩

theorem stopped_run {k : Nat} (hrun : Run (step p) DistinctLive s later t) (hstopped : (s.sessions k).stopped = true) :
    (t.sessions k).stopped = true ∧ t.history.delivered k ++ (t.sessions k).events =
      s.history.delivered k ++ (s.sessions k).events := by
  refine hrun.invariant (fun t => (t.sessions k).stopped = true ∧ t.history.delivered k ++ (t.sessions k).events =
    s.history.delivered k ++ (s.sessions k).events) ⟨hstopped, rfl⟩ ?_
  rintro s' a t' - hstep ⟨hstopped', hsame⟩
  obtain ⟨hstopped', hsame'⟩ := (step_spec hstep).stopped_kept hstopped'
  exact ⟨hstopped', hsame'.trans hsame⟩

/-- In every run in which sessions are made under ids that are not in use, the owner of a session is given, in
their order and each once, the first of the events that were routed to it; an event is routed to the session it
is addressed to and to no other; and to a session marked as stopped nothing is queued any more, while every wait
for its events ends with an error. -/
theorem events_delivered (p : CdpParsers) {actions : List Action} {s : System}
    (h : Run (step p) DistinctLive {} actions s) (k : Nat) :
    s.history.delivered k <+: s.history.routed k ∧
    (∀ action t, step p s action = some t →
      (∀ payload routingSessionId routingTargetId event, action = .receive payload →
        p.decodeMessage payload = .event routingSessionId routingTargetId event →
        s.Addressed routingSessionId routingTargetId k → t.history.routed k = s.history.routed k ++ [event]) ∧
      ((∀ payload routingSessionId routingTargetId event, action = .receive payload →
        p.decodeMessage payload = .event routingSessionId routingTargetId event →
        ¬s.Addressed routingSessionId routingTargetId k) → t.history.routed k = s.history.routed k)) ∧
    ((s.sessions k).stopped = true → ∀ later t, Run (step p) DistinctLive s later t →
      t.history.delivered k ++ (t.sessions k).events = s.history.delivered k ++ (s.sessions k).events ∧
      (t.sessions k).ready = true ∧ ∃ error, (t.sessions k).next = some (.error error)) := by
  have hs : Sessions s := Sessions.initial.run h
  refine ⟨(List.prefix_append _ _).trans (hs.delivers k).in_order, ?_, ?_⟩
  · intro action t hstep
    constructor
    · rintro payload routingSessionId routingTargetId event rfl hevent haddressed
      exact receive_routed hstep hevent ((hs.registry.routeEvent_iff _ _ _).mpr haddressed)
    · intro hnone
      rcases (step_spec hstep).routed k with hsame |
         ⟨payload, routingSessionId, routingTargetId, event, rfl, hevent, hroute⟩
      · exact hsame
      · exact absurd ((hs.registry.routeEvent_iff _ _ _).mp hroute)
          (hnone payload routingSessionId routingTargetId event rfl hevent)
  · intro hstopped later t hrun
    obtain ⟨hstopped', hsame⟩ := stopped_run hrun hstopped
    exact ⟨hsame, ((hs.run hrun).delivers k).wait_fails hstopped'⟩

/-- Parsers for one event. -/
private def loadParsers : CdpParsers where
  una := asciiUna
  parseJson text :=
    if text = ascii "\x7b\"method\":\"Page.loadEventFired\",\"sessionId\":\"S\"\x7d" then
      some (.object [(ascii "method", .string (ascii "Page.loadEventFired")), (ascii "sessionId", .string (ascii "S"))])
    else none
  asCdpError _ := .jsonException
  asCdpEventMessage
    | .object [(_, .string method), (_, .string sessionId)] => .parsed ⟨method, none, some sessionId⟩
    | _ => .jsonException

/-- A session is made, waits for one event and is destroyed. -/
private def loadRun : List Action :=
  [.makeSession 0 (ascii "S") (ascii "T"),
    .receive (ascii "\x7b\"method\":\"Page.loadEventFired\",\"sessionId\":\"S\"\x7d"), .deliverEvent, .waitEvent 0,
    .unregisterSession 0, .markUnregistered 0]

theorem events_delivered_load :
    ∃ s, Run (step loadParsers) DistinctLive {} loadRun s ∧ (s.history.delivered 0).length = 1 ∧
      s.history.delivered 0 <+: s.history.routed 0 ∧ ∃ error, (s.sessions 0).next = some (.error error) := by
  have hexec : (execute (step loadParsers) {} loadRun).any
      (fun s => (s.history.delivered 0).length == 1 && (s.sessions 0).stopped) = true := by decide +kernel
  obtain ⟨s, hrun, htest⟩ := Run.exists_of_execute _ hexec
  obtain ⟨hlength, hstopped⟩ := Bool.and_eq_true_iff.mp htest
  have hrun' : Run (step loadParsers) DistinctLive {} loadRun s := by
    cases hrun with
    | cons _ hstep hrest =>
      refine .cons (fun _ _ _ howner => nomatch howner) hstep (hrest.of_allowed ?_)
      simp [DistinctLive]
  obtain ⟨hdelivered, -, hwait⟩ := events_delivered loadParsers hrun' 0
  exact ⟨s, hrun', eq_of_beq hlength, hdelivered, (hwait hstopped [] s (.nil s)).2.2⟩

end Runs
end Webshot.Crawler
