import Webshot.Crawler.CdpCommandInv
import Webshot.Foundation.TransitionRuns

/-! DevTools commands and their responses: which command a response is for, and who completes the
waiter of a command. -/
namespace Webshot.Crawler
open Text Foundation.KeyedMaps Foundation.TransitionRuns

def CommandPhase.mayFail : CommandPhase → Bool
  | notCalled | registered _ => true
  | _ => false

def ReaderPhase.mayFail : ReaderPhase → Bool
  | receiving | completing _ _ _ | delivering _ _ => true
  | _ => false

def StopPhase.mayFail : StopPhase → Bool
  | notCalled | closing => true
  | _ => false

/-- The caller may still come to call `SetFatalError`. -/
def System.mayFail (s : System) : Caller → Bool
  | .command c => (s.commands c).mayFail
  | .reader => s.reader.mayFail
  | .stop k => (s.stops k).mayFail

/-- Everyone calls `SetFatalError` at most once. -/
def CallsOnce (s : System) : Prop := ∀ caller, s.mayFail caller = true → s.fatalCalls caller = .notCalled

section Steps
variable {p : CdpParsers} {s t : System} {a : Action}

theorem commandView_setFatalCall (caller : Caller) (call : FatalCall) :
    (s.setFatalCall caller call).commandView =
      { s.commandView with queue := Function.update s.commandView.queue caller call.queue } := by
  unfold System.commandView System.setFatalCall
  congr 1
  funext other
  change (Function.update s.fatalCalls caller call other).queue =
    Function.update (fun caller => (s.fatalCalls caller).queue) caller call.queue other
  by_cases he : other = caller
  · subst he
    rw [Function.update_self, Function.update_self]
  · rw [Function.update_of_ne he, Function.update_of_ne he]

theorem commandView_reader (phase : ReaderPhase) (h : phase.claimed = s.reader.claimed) :
    { s with reader := phase }.commandView = s.commandView :=
  congrArg (fun claimed => { s.commandView with claimed := claimed }) h

/-- A call that does not change what it has yet to complete. -/
theorem commandView_setFatalCall_of_eq {caller : Caller} {call : FatalCall}
    (h : call.queue = (s.fatalCalls caller).queue) : (s.setFatalCall caller call).commandView = s.commandView := by
  rw [commandView_setFatalCall, h]
  exact congrArg (fun q => { s.commandView with queue := q }) (Function.update_eq_self caller s.commandView.queue)

theorem commandView_failReader (error : CdpError) (hreader : s.reader.claimed = none)
    (hcall : s.fatalCalls .reader = .notCalled) : (s.failReader error).commandView = s.commandView :=
  (commandView_reader (s := s.setFatalCall .reader (.entering error)) .failing hreader.symm).trans
    (commandView_setFatalCall_of_eq (congrArg FatalCall.queue hcall).symm)

theorem CommandPhase.Moves.spec {x y : CommandPhase} (h : x.Moves y) :
    y.id? = x.id? ∧ (∀ id, x ≠ .expired id ∧ y ≠ .expired id) ∧
      ∀ id outcome, y = .returned (some id) outcome → ∃ e, outcome = .error e := by
  cases h with
  | stringifyFails id | sendFailureDone id =>
    refine ⟨rfl, fun _ => ⟨nofun, nofun⟩, fun _ _ he => ?_⟩
    cases he
    exact ⟨_, rfl⟩
  | sent id | sendThrows id | waitUntilFails id | requestGone id => exact ⟨rfl, fun _ => ⟨nofun, nofun⟩, nofun⟩

theorem CommandPhase.Moves.mayFail {x y : CommandPhase} (h : x.Moves y) : y.mayFail = false := by
  cases h <;> rfl

/-- What `SendRaw` reads from its waiter answers its own id. -/
theorem CommandInv.outcome_answers (h : CommandInv s.commandView) {c : Nat} {id : Int}
    {outcome : Except CdpError (Option Json)} (hid : (s.commands c).id? = some id)
    (houtcome : (s.waiters c).outcome = some outcome) : Answers s.history.received id outcome := by
  rcases h.waiter_value c with hvalue | ⟨id', reply, hid', hvalue, hanswers⟩
  · rw [show s.waiters c = {} from hvalue] at houtcome
    cases houtcome
    exact fun _ hr => nomatch hr
  · rw [show s.waiters c = _ from hvalue] at houtcome
    cases hid.symm.trans hid'
    cases reply with
    | ok result =>
      cases houtcome
      exact hanswers
    | error error =>
      cases houtcome
      exact fun _ hr => nomatch hr

theorem CommandInv.handleResponse (h : CommandInv s.commandView) (hcalls : CallsOnce s)
    (hreader : s.reader = .receiving)
    (id : Int) (error result : Option Json) :
    CommandInv ((s.note id result).handleResponse id (takeResponse p s.shared id error result)).commandView := by
  have hnote : CommandInv (s.note id result).commandView := h.note (id, result)
  have hidle : s.commandView.claimed = none := by
    rw [System.commandView, hreader]
    rfl
  have hfail : ∀ e, CommandInv ((s.note id result).failReader e).commandView := by
    intro e
    rw [commandView_failReader (s := s.note id result) e hidle (hcalls .reader (congrArg ReaderPhase.mayFail hreader))]
    exact hnote
  have hreceived : ∃ r ∈ (s.note id result).commandView.received, r.1 = id :=
    ⟨(id, result), List.mem_append_right _ (List.mem_singleton_self _), rfl⟩
  have hspec := takeResponse_spec p s.shared id error result
  cases htaken : takeResponse p s.shared id error result with
  | dropped => exact hnote
  | failed e => exact hfail e
  | missingWaiter => exact hfail _
  | threw =>
    rw [show (System.handleResponse (s.note id result) id .threw).commandView = (s.note id result).commandView from
      commandView_reader (.died none) hidle.symm]
    exact hnote
  | aborted => exact hnote
  | consumed state =>
    rw [htaken] at hspec
    obtain ⟨rfl, request, hrequest, hignore⟩ := hspec
    exact hnote.consume hrequest hignore hreceived
  | claimed state waiter reply =>
    rw [htaken] at hspec
    obtain ⟨rfl, hwaiter, hresult⟩ := hspec
    refine hnote.claim hwaiter hidle hreceived ?_
    rintro r rfl
    rw [hresult r rfl]
    exact List.mem_append_right _ (List.mem_singleton_self _)

theorem CommandInv.step (h : CommandInv s.commandView) (hcalls : CallsOnce s) (hstep : Step p s a t) :
    CommandInv t.commandView := by
  have hsetFatalCall : ∀ {caller call}, FatalCall.queue call = (s.fatalCalls caller).queue →
      CommandInv (s.setFatalCall caller call).commandView := by
    intro caller call hcall
    rw [commandView_setFatalCall_of_eq hcall]
    exact h
  have hreaderPhase : ∀ {phase : ReaderPhase}, phase.claimed = s.reader.claimed →
      CommandInv { s with reader := phase }.commandView := by
    intro phase hphase
    rw [commandView_reader phase hphase]
    exact h
  cases hstep with
  | refuseCommand hcalled =>
    refine h.move ?_ ?_ nofun
    · change _ = (s.commands _).id?
      rw [hcalled]
      rfl
    · intro id
      refine ⟨fun hexpired => ?_, nofun⟩
      cases hcalled.symm.trans hexpired
  | register hcalled hfatal => exact h.register hcalled hfatal rfl
  | moveCommand hmoves =>
    obtain ⟨hid, hexpired, herror⟩ := hmoves.spec
    refine h.move hid hexpired ?_
    intro id outcome hreturned
    obtain ⟨e, rfl⟩ := herror id outcome hreturned
    exact fun _ hr => nomatch hr
  | @sendFails c _ id hphase =>
    have hcall := hcalls (.command c) (congrArg CommandPhase.mayFail hphase)
    refine (hsetFatalCall (by rw [hcall]; rfl)).move ?_ ?_ nofun
    · change _ = (s.commands c).id?
      rw [hphase]
      rfl
    · intro id
      refine ⟨fun hexpired => ?_, nofun⟩
      cases hphase.symm.trans hexpired
  | @readWaiter _ c id outcome hphase houtcome =>
    have hid : (s.commands c).id? = some id := by
      rcases hphase with hphase | hphase
      · rw [hphase]
        rfl
      · rw [hphase]
        rfl
    refine h.move hid.symm ?_ ?_
    · intro id'
      refine ⟨fun hexpired => ?_, nofun⟩
      rcases hphase with hphase | hphase
      · cases hphase.symm.trans hexpired
      · cases hphase.symm.trans hexpired
    · rintro id' outcome' ⟨⟩
      exact h.outcome_answers hid houtcome
  | expire hphase hrequest => exact h.expire hphase hrequest
  | readerFails hreader =>
    rw [commandView_failReader _ (congrArg ReaderPhase.claimed hreader)
      (hcalls .reader (congrArg ReaderPhase.mayFail hreader))]
    exact h
  | readerDies hreader _ => exact hreaderPhase (by rw [hreader]; rfl)
  | readerInterrupted hreader => exact hreaderPhase (by rw [hreader]; rfl)
  | @consumedInterrupted _ id result request hreader hrequest hignore =>
    have hnote : CommandInv (s.note id result).commandView := h.note (id, result)
    rw [commandView_reader (s := { s.note id result with shared := s.shared.forget id }) (.died none)
      (congrArg ReaderPhase.claimed hreader).symm]
    exact hnote.consume hrequest hignore ⟨(id, result), List.mem_append_right _ (List.mem_singleton_self _), rfl⟩
  | responseInterrupted hreader => exact hreaderPhase (by rw [hreader]; rfl)
  | response hreader _ => exact h.handleResponse hcalls hreader _ _ _
  | eventRouted hreader _ _ => exact hreaderPhase (by rw [hreader]; rfl)
  | completeWaiter hreader => exact h.completeClaimed (congrArg ReaderPhase.claimed hreader)
  | deliverEvent hreader => exact hreaderPhase (by rw [hreader]; rfl)
  | endReader hreader _ => exact hreaderPhase (by rw [hreader]; rfl)
  | fatalAgain hcall _ => exact hsetFatalCall (by rw [hcall]; rfl)
  | @fatalFirst caller error hcall hfatal =>
    have hqueue := congrArg CommandView.queue (commandView_setFatalCall (s := s) caller
      (.completing error (values s.shared.pendingWaiters) (values s.shared.sessionsById)))
    have hview := congrArg (fun queue => { s.commandView with
      fatalError := some error, pendingWaiters := ∅, pendingRequests := ∅, queue := queue }) hqueue
    exact (congrArg CommandInv hview).mpr (h.enterFatal hfatal caller error)
  | fatalWaiter hcall =>
    rw [commandView_setFatalCall]
    exact h.failWaiter (congrArg FatalCall.queue hcall) _
  | fatalSession hcall =>
    rw [commandView_setFatalCall_of_eq (s := s.setSession _ _)]
    · exact h
    · exact (congrArg FatalCall.queue hcall).symm
  | fatalDone hcall =>
    rw [commandView_setFatalCall]
    exact h.endFatal (congrArg FatalCall.queue hcall)
  | @closeFails k _ hphase =>
    have hcall := hcalls (.stop k) (congrArg StopPhase.mayFail hphase)
    exact hsetFatalCall (by rw [hcall]; rfl)
  | abort _ | unchanged | stop _ _ | endStop _ _ | stopQuietly | refuseSession _ | makeSession _ _ | waitEvent _
  | drainEvents | unregisterSession _ | markUnregistered _ => exact h

namespace CallsOnce

/-- Parties that are past their call stay past it. -/
theorem mono (h : CallsOnce s)
    (hmono : ∀ caller, t.mayFail caller = true → s.mayFail caller = true ∧ t.fatalCalls caller = s.fatalCalls caller) :
    CallsOnce t := fun caller hmay =>
  let ⟨hmay', hcall⟩ := hmono caller hmay
  hcall.trans (h caller hmay')

theorem setCommand (h : CallsOnce s) {c : Nat} {phase : CommandPhase}
    (hphase : phase.mayFail = true → (s.commands c).mayFail = true) : CallsOnce (s.setCommand c phase) := by
  refine h.mono fun caller hmay => ⟨?_, rfl⟩
  cases caller with
  | reader => exact hmay
  | stop k => exact hmay
  | command c' =>
    change (Function.update s.commands c phase c').mayFail = true at hmay
    exact of_update (CommandPhase.mayFail · = true) hphase hmay

theorem setStop (h : CallsOnce s) {k : Nat} {phase : StopPhase}
    (hphase : phase.mayFail = true → (s.stops k).mayFail = true) : CallsOnce (s.setStop k phase) := by
  refine h.mono fun caller hmay => ⟨?_, rfl⟩
  cases caller with
  | reader => exact hmay
  | command c => exact hmay
  | stop k' =>
    change (Function.update s.stops k phase k').mayFail = true at hmay
    exact of_update (StopPhase.mayFail · = true) hphase hmay

theorem setReader (h : CallsOnce s) (phase : ReaderPhase)
    (hphase : phase.mayFail = true → s.reader.mayFail = true) : CallsOnce { s with reader := phase } := by
  refine h.mono fun caller hmay => ⟨?_, rfl⟩
  cases caller with
  | reader => exact hphase hmay
  | command c => exact hmay
  | stop k => exact hmay

/-- A call goes on when its caller is past the point of making it. -/
theorem setFatalCall (h : CallsOnce s) {caller : Caller} (hpast : s.mayFail caller = false) (call : FatalCall) :
    CallsOnce (s.setFatalCall caller call) := by
  refine h.mono fun caller' hmay => ⟨hmay, Function.update_of_ne ?_ _ _⟩
  rintro rfl
  cases hpast.symm.trans hmay

theorem past (h : CallsOnce s) {caller : Caller} (hcall : s.fatalCalls caller ≠ .notCalled) :
    s.mayFail caller = false :=
  Bool.eq_false_iff.mpr fun hmay => hcall (h caller hmay)

theorem failReader (h : CallsOnce s) (error : CdpError) : CallsOnce (s.failReader error) :=
  (h.setReader .failing nofun).setFatalCall rfl _

theorem handleResponse (h : CallsOnce s) (hreader : s.reader = .receiving) (id : Int) (taken : Taken) :
    CallsOnce (s.handleResponse id taken) := by
  cases taken with
  | failed error => exact h.failReader error
  | missingWaiter => exact h.failReader _
  | threw => exact h.setReader (.died none) nofun
  | claimed state waiter reply =>
    exact h.setReader (.completing waiter id reply) fun _ => congrArg ReaderPhase.mayFail hreader
  | dropped | aborted | consumed _ => exact h

theorem step (h : CallsOnce s) (hstep : Step p s a t) : CallsOnce t := by
  cases hstep with
  | refuseCommand _ => exact h.setCommand nofun
  | register hcalled _ _ _ => exact h.setCommand fun _ => congrArg CommandPhase.mayFail hcalled
  | moveCommand hmoves =>
    refine h.setCommand fun hmay => ?_
    cases hmoves.mayFail.symm.trans hmay
  | @sendFails c _ id _ =>
    have hpast : (s.setCommand c (.sendFailed id)).mayFail (.command c) = false := by
      change (Function.update s.commands c (.sendFailed id) c).mayFail = false
      rw [Function.update_self]
      rfl
    have hset : CallsOnce (s.setCommand c (.sendFailed id)) := h.setCommand nofun
    exact hset.setFatalCall hpast _
  | readWaiter _ _ => exact h.setCommand nofun
  | expire _ _ => exact h.setCommand nofun
  | readerFails _ => exact h.failReader _
  | readerDies _ _ => exact h.setReader (.died none) nofun
  | readerInterrupted _ => exact h.setReader (.died none) nofun
  | @consumedInterrupted _ id result _ _ _ _ =>
    have hforgotten : CallsOnce { s.note id result with shared := s.shared.forget id } := h
    exact hforgotten.setReader (.died none) nofun
  | responseInterrupted _ => exact h.setReader (.died (some _)) nofun
  | response hreader _ => exact CallsOnce.handleResponse (s := s.note _ _) h hreader _ _
  | @eventRouted _ _ _ event k hreader _ _ =>
    exact h.setReader (.delivering k event) fun _ => congrArg ReaderPhase.mayFail hreader
  | completeWaiter hreader => exact h.setReader .receiving fun _ => congrArg ReaderPhase.mayFail hreader
  | deliverEvent hreader => exact h.setReader .receiving fun _ => congrArg ReaderPhase.mayFail hreader
  | endReader _ _ => exact h.setReader .ended nofun
  | fatalAgain hcall _ => exact h.setFatalCall (h.past (by rw [hcall]; nofun)) _
  | fatalFirst hcall _ => exact h.setFatalCall (h.past (by rw [hcall]; nofun)) _
  | fatalWaiter hcall => exact h.setFatalCall (h.past (by rw [hcall]; nofun)) _
  | fatalSession hcall => exact h.setFatalCall (h.past (by rw [hcall]; nofun)) _
  | fatalDone hcall => exact h.setFatalCall (h.past (by rw [hcall]; nofun)) _
  | stop hcalled _ => exact h.setStop fun _ => congrArg StopPhase.mayFail hcalled
  | endStop _ hphase =>
    refine h.setStop fun hmay => ?_
    rcases hphase with rfl | rfl
    · cases hmay
    · cases hmay
  | @closeFails k _ _ =>
    have hpast : (s.setStop k .closeFailed).mayFail (.stop k) = false := by
      change (Function.update s.stops k .closeFailed k).mayFail = false
      rw [Function.update_self]
      rfl
    have hset : CallsOnce (s.setStop k .closeFailed) := h.setStop nofun
    exact hset.setFatalCall hpast _
  | abort _ | unchanged | stopQuietly | refuseSession _ | makeSession _ _ | waitEvent _ | drainEvents
  | unregisterSession _ | markUnregistered _ => exact h

end CallsOnce

/-- A call keeps the id it was given. -/
theorem Step.id_kept (h : Step p s a t) {c : Nat} {id : Int} (hid : (s.commands c).id? = some id) :
    (t.commands c).id? = some id := by
  have hset : ∀ {c' phase}, ((s.commands c').id? = none ∨ phase.id? = (s.commands c').id?) →
      (Function.update s.commands c' phase c).id? = some id := by
    intro c' phase hphase
    by_cases he : c = c'
    · subst he
      rw [Function.update_self]
      rcases hphase with hnone | hsame
      · cases hnone.symm.trans hid
      · rw [hsame, hid]
    · rw [Function.update_of_ne he, hid]
  cases h with
  | refuseCommand hcalled => exact hset (Or.inl (congrArg CommandPhase.id? hcalled))
  | register hcalled => exact hset (Or.inl (congrArg CommandPhase.id? hcalled))
  | moveCommand hmoves => exact hset (Or.inr hmoves.spec.1)
  | sendFails hphase => exact hset (Or.inr (congrArg CommandPhase.id? hphase).symm)
  | readWaiter hphase _ =>
    rcases hphase with hphase | hphase
    · exact hset (Or.inr (congrArg CommandPhase.id? hphase).symm)
    · exact hset (Or.inr (congrArg CommandPhase.id? hphase).symm)
  | expire hphase _ => exact hset (Or.inr (congrArg CommandPhase.id? hphase).symm)
  | response _ _ =>
    rw [handleResponse_commands]
    exact hid
  | _ => exact hid

/-- Only its own timeout makes a call leave its waiter behind. -/
theorem Step.expired_own (h : Step p s a t) {c : Nat} {id : Int} (hexpired : t.commands c = .expired id) :
    s.commands c = .expired id ∨ a = .giveUp c := by
  have hset : ∀ {c' phase}, Function.update s.commands c' phase c = .expired id → (∀ id, phase ≠ .expired id) →
      s.commands c = .expired id := by
    intro c' phase hc hphase
    rcases update_cases hc with ⟨_, hnew⟩ | ⟨_, hold⟩
    · exact absurd hnew (hphase id)
    · exact hold
  cases h with
  | refuseCommand _ => exact Or.inl (hset hexpired nofun)
  | register _ => exact Or.inl (hset hexpired nofun)
  | moveCommand hmoves => exact Or.inl (hset hexpired fun id => (hmoves.spec.2.1 id).2)
  | sendFails _ => exact Or.inl (hset hexpired nofun)
  | readWaiter _ _ => exact Or.inl (hset hexpired nofun)
  | @expire c' id' _ _ _ =>
    by_cases he : c = c'
    · exact Or.inr (by rw [he])
    · exact Or.inl ((Function.update_of_ne he _ _).symm.trans hexpired)
  | response _ _ =>
    rw [handleResponse_commands] at hexpired
    exact Or.inl hexpired
  | _ => exact Or.inl hexpired

/-- A fatal error stays. -/
theorem Step.fatal_kept (h : Step p s a t) (hfatal : s.shared.fatalError.isSome) : t.shared.fatalError.isSome := by
  cases h with
  | fatalFirst _ _ => rfl
  | @response _ id error result _ _ =>
    have htaken := takeResponse_spec p s.shared id error result
    rcases handleResponse_shared (s := s.note id result) htaken with hsame | hsame
    · rw [hsame]
      exact hfatal
    · rw [hsame]
      exact hfatal
  | _ => exact hfatal

/-- The reader or `SetFatalError` has taken the waiter out of the map and is to complete it. -/
def System.InTransit (s : System) (c : Nat) : Prop :=
  (∃ id reply, s.reader = .completing c id reply) ∨
    ∃ caller error waiters sessions, s.fatalCalls caller = .completing error waiters sessions ∧ c ∈ waiters

/-- The reader has taken the waiter out of the map and died before it completed it. -/
def System.LeftBehind (s : System) (c : Nat) : Prop := ∃ id reply, s.reader = .died (some (c, id, reply))

/-- No trace write throws between the claim of a waiter and its completion. -/
def Uninterrupted : System → Action → Prop
  | _, .traceThrows .response => False
  | _, _ => True

theorem ReaderPhase.claimed_eq {phase : ReaderPhase} {c : Nat} {id : Int} {reply : Except CdpError (Option Json)}
    (h : phase.claimed = some (c, id, reply)) : phase = .completing c id reply ∨ phase = .died (some (c, id, reply)) := by
  cases phase with
  | completing =>
    cases h
    exact Or.inl rfl
  | died owed =>
    cases h
    exact Or.inr rfl
  | _ => cases h

theorem FatalCall.queue_eq {call : FatalCall} {waiters : List Nat} (h : call.queue = some waiters) :
    ∃ error sessions, call = .completing error waiters sessions := by
  cases call with
  | completing error _ sessions =>
    cases h
    exact ⟨error, sessions, rfl⟩
  | _ => cases h

/-- A waiter whose command has an id is in the map, is in transit, is complete, or was left behind by the
command itself or by a reader that died. -/
theorem CommandInv.located (h : CommandInv s.commandView) {c : Nat} {id : Int} (hid : (s.commands c).id? = some id) :
    s.shared.pendingWaiters.lookup id = some c ∨ s.commands c = .expired id ∨ s.LeftBehind c ∨ s.InTransit c ∨
      (s.waiters c).done = true := by
  rcases h.accounted c id hid with hmap | hgone | ⟨reply, hclaimed⟩ | ⟨caller, ws, hws, hmem⟩ | hdone
  · exact Or.inl hmap
  · exact Or.inr (Or.inl hgone)
  · rcases ReaderPhase.claimed_eq hclaimed with hreader | hreader
    · exact Or.inr (Or.inr (Or.inr (Or.inl (Or.inl ⟨id, reply, hreader⟩))))
    · exact Or.inr (Or.inr (Or.inl ⟨id, reply, hreader⟩))
  · obtain ⟨error, sessions, hcall⟩ := FatalCall.queue_eq hws
    exact Or.inr (Or.inr (Or.inr (Or.inl (Or.inr ⟨caller, error, ws, sessions, hcall, hmem⟩))))
  · exact Or.inr (Or.inr (Or.inr (Or.inr hdone)))

/-- A reader that died with a waiter had claimed it before. -/
theorem Step.left_before (h : Step p s a t) {c : Nat} (hleft : t.LeftBehind c) :
    ∃ id reply, s.reader.claimed = some (c, id, reply) := by
  obtain ⟨id, reply, hreader⟩ := hleft
  cases h with
  | readerFails _ | readerDies _ _ | readerInterrupted _ | consumedInterrupted _ _ _ | eventRouted _ _ _ | completeWaiter _
  | deliverEvent _ | endReader _ _ => cases hreader
  | @response _ id' error result hreceiving _ =>
    generalize takeResponse p s.shared id' error result = taken at hreader
    cases taken with
    | dropped | aborted | consumed _ => cases hreceiving.symm.trans hreader
    | failed _ | missingWaiter | threw | claimed _ _ _ => cases hreader
  | @responseInterrupted _ _ _ hcompleting =>
    cases hreader
    exact ⟨id, reply, congrArg ReaderPhase.claimed hcompleting⟩
  | _ => exact ⟨id, reply, congrArg ReaderPhase.claimed hreader⟩

/-- A completed waiter stays completed. -/
theorem Step.done_kept (h : Step p s a t) {c : Nat} (hdone : (s.waiters c).done = true) :
    (t.waiters c).done = true := by
  have hset : ∀ {c' reply}, (Function.update s.waiters c' ((s.waiters c').complete reply) c).done = true := by
    intro c' reply
    by_cases he : c = c'
    · subst he
      rw [Function.update_self]
      exact CommandInv.complete_done _ _
    · rw [Function.update_of_ne he, hdone]
  cases h with
  | completeWaiter _ => exact hset
  | fatalWaiter _ => exact hset
  | response _ _ =>
    rw [handleResponse_waiters]
    exact hdone
  | _ => exact hdone

private theorem reader_in_transit {c : Nat} {id : Int} {reply : Except CdpError (Option Json)}
    (hreader : s.reader = .completing c id reply) (hok : Uninterrupted s a) (hstep : Step p s a t) :
    t.InTransit c ∨ (t.waiters c).done = true := by
  cases hstep with
  | readerInterrupted h => cases hreader.symm.trans h
  | consumedInterrupted h => cases hreader.symm.trans h
  | responseInterrupted _ => exact hok.elim
  | readerFails h => cases hreader.symm.trans h
  | readerDies h => cases hreader.symm.trans h
  | response h => cases hreader.symm.trans h
  | eventRouted h => cases hreader.symm.trans h
  | deliverEvent h => cases hreader.symm.trans h
  | endReader h => cases hreader.symm.trans h
  | completeWaiter h =>
    cases hreader.symm.trans h
    refine Or.inr ?_
    change (Function.update s.waiters c _ c).done = true
    rw [Function.update_self]
    exact CommandInv.complete_done _ _
  | _ => exact Or.inl (Or.inl ⟨id, reply, hreader⟩)

/-- A call of `SetFatalError` that has taken waiters and sessions stays where it is until it completes the next. -/
theorem Step.call_goes_on (hstep : Step p s a t) (hcalls : CallsOnce s) {caller : Caller} {error : CdpError}
    {waiters sessions : List Nat} (hcall : s.fatalCalls caller = .completing error waiters sessions) :
    t.fatalCalls caller = .completing error waiters sessions ∨
      (∃ w ws, waiters = w :: ws ∧ t.fatalCalls caller = .completing error ws sessions ∧ (t.waiters w).done = true) ∨
      (∃ k ks, waiters = [] ∧ sessions = k :: ks ∧ t.fatalCalls caller = .completing error [] ks ∧
        t.sessions k = (s.sessions k).fail error) ∨
      (waiters = [] ∧ sessions = []) := by
  have hother : ∀ {caller' call}, s.fatalCalls caller' ≠ s.fatalCalls caller →
      Function.update s.fatalCalls caller' call caller = .completing error waiters sessions := by
    intro caller' call hne
    rw [Function.update_of_ne, hcall]
    rintro rfl
    exact hne rfl
  have hcalled : ∀ caller', s.mayFail caller' = true → s.fatalCalls caller' ≠ s.fatalCalls caller := by
    intro caller' hmay
    rw [hcalls caller' hmay, hcall]
    nofun
  cases hstep with
  | @sendFails c' _ _ hphase => exact Or.inl (hother (hcalled (.command c') (congrArg CommandPhase.mayFail hphase)))
  | readerFails hreader => exact Or.inl (hother (hcalled .reader (congrArg ReaderPhase.mayFail hreader)))
  | @closeFails k _ hphase => exact Or.inl (hother (hcalled (.stop k) (congrArg StopPhase.mayFail hphase)))
  | response hreader _ =>
    refine Or.inl ((handleResponse_fatalCalls _ _ ?_).trans hcall)
    rintro rfl
    exact hcalled .reader (congrArg ReaderPhase.mayFail hreader) rfl
  | fatalAgain h _ => exact Or.inl (hother (by rw [h, hcall]; nofun))
  | fatalFirst h _ => exact Or.inl (hother (by rw [h, hcall]; nofun))
  | @fatalWaiter caller' error' w ws ks h =>
    by_cases he : caller' = caller
    · subst he
      cases hcall.symm.trans h
      refine Or.inr (Or.inl ⟨w, ws, rfl, Function.update_self _ _ _, ?_⟩)
      change (Function.update s.waiters w _ w).done = true
      rw [Function.update_self]
      exact CommandInv.complete_done _ _
    · exact Or.inl ((Function.update_of_ne (Ne.symm he) _ _).trans hcall)
  | @fatalSession caller' error' k ks h =>
    by_cases he : caller' = caller
    · subst he
      cases hcall.symm.trans h
      exact Or.inr (Or.inr (Or.inl ⟨k, ks, rfl, rfl, Function.update_self _ _ _, Function.update_self _ _ _⟩))
    · exact Or.inl ((Function.update_of_ne (Ne.symm he) _ _).trans hcall)
  | @fatalDone caller' error' h =>
    by_cases he : caller' = caller
    · subst he
      cases hcall.symm.trans h
      exact Or.inr (Or.inr (Or.inr ⟨rfl, rfl⟩))
    · exact Or.inl ((Function.update_of_ne (Ne.symm he) _ _).trans hcall)
  | _ => exact Or.inl hcall

private theorem call_in_transit (hcalls : CallsOnce s) {c : Nat} {caller : Caller} {error : CdpError}
    {waiters sessions : List Nat}
    (hcall : s.fatalCalls caller = .completing error waiters sessions) (hmem : c ∈ waiters)
    (hstep : Step p s a t) : t.InTransit c ∨ (t.waiters c).done = true := by
  rcases hstep.call_goes_on hcalls hcall with hsame | ⟨w, ws, rfl, hnext, hdone⟩ | ⟨_, _, rfl, _⟩ | ⟨rfl, _⟩
  · exact Or.inl (Or.inr ⟨caller, error, waiters, sessions, hsame, hmem⟩)
  · rcases List.mem_cons.mp hmem with rfl | hmem
    · exact Or.inr hdone
    · exact Or.inl (Or.inr ⟨caller, error, ws, sessions, hnext, hmem⟩)
  · cases hmem
  · cases hmem

/-- A waiter in transit is completed or still in transit after a step that does not cut off its trace. -/
theorem System.InTransit.step (hcalls : CallsOnce s) {c : Nat} (h : s.InTransit c) (hok : Uninterrupted s a)
    (hstep : Step p s a t) : t.InTransit c ∨ (t.waiters c).done = true := by
  rcases h with ⟨id, reply, hreader⟩ | ⟨caller, error, waiters, sessions, hcall, hmem⟩
  · exact reader_in_transit hreader hok hstep
  · exact call_in_transit hcalls hcall hmem hstep

/-- A call of `SetFatalError` completes, by steps of its own, all it has taken. -/
theorem fatalCall_completes {c : Nat} {caller : Caller} {error : CdpError} {waiters sessions : List Nat} :
    ∀ {s : System}, s.aborted = false → s.fatalCalls caller = .completing error waiters sessions → c ∈ waiters →
      ∃ n u, Run (step p) Uninterrupted s (List.replicate n (.setFatalError caller)) u ∧ (u.waiters c).done = true := by
  induction waiters with
  | nil => exact fun _ _ hmem => nomatch hmem
  | cons w ws ih =>
    intro s hrunning hcall hmem
    have hstep : Crawler.step p s (.setFatalError caller) =
        some ((s.complete w (.error error)).setFatalCall caller (.completing error ws sessions)) := by
      simp [Crawler.step, System.stepFatal, hrunning, hcall]
    rcases List.mem_cons.mp hmem with rfl | hmem
    · refine ⟨1, _, .cons trivial hstep (.nil _), ?_⟩
      change (Function.update s.waiters c _ c).done = true
      rw [Function.update_self]
      exact CommandInv.complete_done _ _
    · obtain ⟨n, u, hrun, hdone⟩ := ih (s := (s.complete w (.error error)).setFatalCall caller _) hrunning
        (Function.update_self _ _ _) hmem
      exact ⟨n + 1, u, .cons trivial hstep hrun, hdone⟩

/-- The party that has taken a waiter completes it by its own next steps. -/
theorem System.InTransit.completes {c : Nat} (h : s.InTransit c) (hrunning : s.aborted = false) :
    ∃ actions u, (actions = [.completeWaiter] ∨ ∃ caller n, actions = List.replicate n (.setFatalError caller)) ∧
      Run (Crawler.step p) Uninterrupted s actions u ∧ (u.waiters c).done = true := by
  rcases h with ⟨id, reply, hreader⟩ | ⟨caller, error, waiters, sessions, hcall, hmem⟩
  · have hstep : Crawler.step p s .completeWaiter = some { s.complete c reply with reader := .receiving } := by
      simp [Crawler.step, hrunning, hreader]
    refine ⟨_, _, Or.inl rfl, .cons trivial hstep (.nil _), ?_⟩
    change (Function.update s.waiters c _ c).done = true
    rw [Function.update_self]
    exact CommandInv.complete_done _ _
  · obtain ⟨n, u, hrun, hdone⟩ := fatalCall_completes hrunning hcall hmem
    exact ⟨_, u, Or.inr ⟨caller, n, rfl⟩, hrun, hdone⟩

/-- The call is past the locked part of `SetFatalError`. -/
def FatalCall.entered : FatalCall → Bool
  | completing _ _ _ | returned => true
  | _ => false

/-- Whoever is past the locked part of `SetFatalError` finds a fatal error set. -/
def FatalSet (s : System) : Prop := ∀ caller, (s.fatalCalls caller).entered = true → s.shared.fatalError.isSome

theorem FatalSet.step (h : FatalSet s) (hstep : Step p s a t) : FatalSet t := by
  have hkept : ∀ caller, (s.fatalCalls caller).entered = true → t.shared.fatalError.isSome :=
    fun caller hcall => hstep.fatal_kept (h caller hcall)
  have hset : ∀ {caller call caller'}, (Function.update s.fatalCalls caller call caller').entered = true →
      (call.entered = true → (s.fatalCalls caller).entered = true) → t.shared.fatalError.isSome := by
    intro caller call caller' hentered hcall
    exact hkept caller' (of_update (FatalCall.entered · = true) hcall hentered)
  intro caller hentered
  cases hstep with
  | sendFails _ => exact hset hentered nofun
  | readerFails _ => exact hset hentered nofun
  | closeFails _ => exact hset hentered nofun
  | fatalAgain _ hfatal => exact hfatal
  | fatalFirst _ _ => rfl
  | fatalWaiter hcall => exact hset hentered fun _ => by rw [hcall]; rfl
  | fatalSession hcall => exact hset hentered fun _ => by rw [hcall]; rfl
  | fatalDone hcall => exact hset hentered fun _ => by rw [hcall]; rfl
  | @response _ id error result _ _ =>
    generalize takeResponse p s.shared id error result = taken at hentered hkept hset ⊢
    cases taken with
    | failed e => exact hset hentered nofun
    | missingWaiter => exact hset hentered nofun
    | _ => exact hkept caller hentered
  | _ => exact hkept caller hentered

/-- The first response for a command that gave up is consumed, or dropped once the client has failed. -/
theorem CommandInv.late_response (h : CommandInv s.commandView) {c : Nat} {id : Int}
    (hexpired : s.commands c = .expired id)
    (hnew : ∀ r ∈ s.history.received, r.1 ≠ id) {error : Option Json} (result : Option Json)
    (hreadable : ∀ e, error = some e → ∃ message, p.getErrorMessage e = .text message) :
    takeResponse p s.shared id error result = .consumed (s.shared.forget id) ∨
      takeResponse p s.shared id error result = .dropped ∧ id ∉ s.shared.pendingRequests := by
  cases hfatal : s.shared.fatalError with
  | none =>
    obtain ⟨hpos, hlt⟩ := h.command_id c id (congrArg CommandPhase.id? hexpired)
    have hmem := h.first_response id hpos hlt hfatal hnew
    obtain ⟨request, hrequest⟩ := Option.isSome_iff_exists.mp (AList.lookup_isSome.mpr hmem)
    have hignore : request.ignoreResponse = true := by
      rw [← Bool.not_eq_false]
      intro hkept
      obtain ⟨c', hc'⟩ := h.request_waiter id request hrequest hkept
      cases (h.expired_gone c id hexpired).symm.trans hc'
    have hlookup : s.shared.pendingRequests.lookup id = some request := hrequest
    refine Or.inl ?_
    cases error with
    | none => simp only [takeResponse, claimWaiter, hlookup, hignore, if_true]
    | some e =>
      obtain ⟨message, hmessage⟩ := hreadable e rfl
      simp only [takeResponse, claimWaiter, hlookup, hmessage, hignore, if_true]
  | some e =>
    have hsome : s.commandView.fatalError.isSome := by
      rw [show s.commandView.fatalError = _ from hfatal]
      rfl
    have hempty : s.shared.pendingRequests = ∅ := (h.fatal_empty hsome).2
    refine Or.inr ⟨?_, by rw [hempty]; exact AList.notMem_empty id⟩
    simp [takeResponse, hempty, hfatal]

end Steps

section Runs
variable {p : CdpParsers} {s : System} {actions : List Action}

theorem CommandInv.initial : CommandInv ({} : System).commandView where
  next_pos := by decide
  request_id := fun id hid => absurd hid (AList.notMem_empty id)
  waiter_request := nofun
  request_waiter := nofun
  fatal_empty := nofun
  command_id := nofun
  id_unique := nofun
  waiter_owner := nofun
  claimed_open := nofun
  queue_open := nofun
  queue_unique := nofun
  waiter_value := fun _ => Or.inl rfl
  returned_value := nofun
  expired_gone := nofun
  accounted := nofun
  first_response := fun id hpos hlt => by
    change id < 1 at hlt
    omega

/-- What holds of commands in every state of every run. -/
structure Ordered (s : System) : Prop where
  commands : CommandInv s.commandView
  calls : CallsOnce s
  fatal : FatalSet s

theorem Ordered.after {t : System} {a : Action} (h : Ordered s) (hstep : Step p s a t) : Ordered t :=
  ⟨h.commands.step h.calls hstep, h.calls.step hstep, h.fatal.step hstep⟩

theorem Ordered.run {t : System} {later : List Action} (h : Ordered s) (hrun : Run (step p) always s later t) :
    Ordered t :=
  hrun.invariant Ordered h fun _ _ _ _ hstep hs => hs.after (step_spec hstep)

theorem ordered (h : Run (step p) always {} actions s) : Ordered s :=
  Ordered.run ⟨.initial, fun _ _ => rfl, nofun⟩ h

namespace Ordered

theorem no_missing_waiter (h : Ordered s) (id : Int) (error result : Option Json) :
    takeResponse p s.shared id error result ≠ .missingWaiter := by
  intro hmissing
  have hspec := takeResponse_spec p s.shared id error result
  rw [hmissing] at hspec
  obtain ⟨hnone, request, hrequest, hkept⟩ := hspec
  obtain ⟨c, hc⟩ := h.commands.request_waiter id request hrequest hkept
  cases hnone.symm.trans hc

theorem id_once (h : Ordered s) {t : System} {later : List Action} (hrun : Run (step p) always s later t) {c c' : Nat}
    {id : Int} (hid : (s.commands c).id? = some id) (hid' : (t.commands c').id? = some id) : c = c' := by
  have hkept : (t.commands c).id? = some id :=
    hrun.invariant (fun s => (s.commands c).id? = some id) hid fun _ _ _ _ hstep hs => (step_spec hstep).id_kept hs
  exact (h.run hrun).commands.id_unique c c' id hkept hid'

theorem completed_once (h : Ordered s) (c : Nat) : (s.waiters c).completions ≤ 1 := by
  rcases h.commands.waiter_value c with hvalue | ⟨_, reply, _, hvalue, _⟩
  · rw [show s.waiters c = {} from hvalue]
    exact Nat.zero_le 1
  · rw [show s.waiters c = _ from hvalue]
    cases reply <;> exact le_rfl

theorem late_response (h : Ordered s) {c : Nat} {id : Int} {payload : Bytes} {error result : Option Json}
    (hexpired : s.commands c = .expired id) (hreader : s.reader = .receiving) (hrunning : s.aborted = false)
    (hpayload : p.decodeMessage payload = .response id error result)
    (hreadable : ∀ e, error = some e → ∃ message, p.getErrorMessage e = .text message)
    (hnew : ∀ r ∈ s.history.received, r.1 ≠ id) :
    ∃ t, Crawler.step p s (.receive payload) = some t ∧ t.reader = .receiving ∧ t.fatalCalls = s.fatalCalls ∧
      t.shared.fatalError = s.shared.fatalError ∧ id ∉ t.shared.pendingRequests := by
  have hstep : Crawler.step p s (.receive payload) =
      some ((s.note id result).handleResponse id (takeResponse p s.shared id error result)) := by
    simp [Crawler.step, System.handleMessage, hrunning, hreader, hpayload]
  rcases h.commands.late_response hexpired hnew result hreadable with htaken | ⟨htaken, habsent⟩
  · rw [htaken] at hstep
    refine ⟨_, hstep, hreader, rfl, rfl, ?_⟩
    exact fun hmem => (AList.mem_erase.mp hmem).1 rfl
  · rw [htaken] at hstep
    exact ⟨_, hstep, hreader, rfl, rfl, habsent⟩

/-- A waiter that a step takes out of the map is to be completed, unless its own call gave up. -/
theorem removal (h : Ordered s) {t : System} {action : Action} (hstep : Step p s action t) {id : Int} {c : Nat}
    (hmap : s.shared.pendingWaiters.lookup id = some c) (hgone : t.shared.pendingWaiters.lookup id ≠ some c) :
    (action = .giveUp c ∧ t.commands c = .expired id) ∨ t.InTransit c ∨ (t.waiters c).done = true := by
  have hid := (h.commands.waiter_owner id c hmap).1
  rcases (h.after hstep).commands.located (hstep.id_kept hid) with hmap' | hexpired | hleft | htransit
  · exact absurd hmap' hgone
  · rcases hstep.expired_own hexpired with hexpired' | haction
    · cases (h.commands.expired_gone c id hexpired').symm.trans hmap
    · exact Or.inl ⟨haction, hexpired⟩
  · obtain ⟨id', reply, hclaimed⟩ := hstep.left_before hleft
    obtain ⟨hid', -, hnone, -⟩ := h.commands.claimed_open c id' reply hclaimed
    cases hid'.symm.trans hid
    cases hnone.symm.trans hmap
  · exact Or.inr htransit

theorem transit_run (h : Ordered s) {t : System} {later : List Action} {c : Nat} (htransit : s.InTransit c)
    (hrun : Run (step p) Uninterrupted s later t) : t.InTransit c ∨ (t.waiters c).done = true := by
  have hinv : Ordered t ∧ (t.InTransit c ∨ (t.waiters c).done = true) := by
    refine hrun.invariant (fun s => Ordered s ∧ (s.InTransit c ∨ (s.waiters c).done = true)) ⟨h, Or.inl htransit⟩ ?_
    rintro s a t hok hstep ⟨hs, htransit | hdone⟩
    · exact ⟨hs.after (step_spec hstep), htransit.step hs.calls hok (step_spec hstep)⟩
    · exact ⟨hs.after (step_spec hstep), Or.inr ((step_spec hstep).done_kept hdone)⟩
  exact hinv.2

theorem empty_after_fatal (h : Ordered s) {caller : Caller} (hcall : s.fatalCalls caller = .returned) {t : System}
    {later : List Action} (hrun : Run (step p) always s later t) :
    t.shared.pendingWaiters = ∅ ∧ t.shared.pendingRequests = ∅ := by
  have hfatal : t.shared.fatalError.isSome :=
    hrun.invariant (·.shared.fatalError.isSome) (h.fatal caller (by rw [hcall]; rfl))
      fun _ _ _ _ hstep hs => (step_spec hstep).fatal_kept hs
  exact (h.run hrun).commands.fatal_empty hfatal

end Ordered

/-- In every state of every run: a request that is pending has a waiter or is to be ignored, and no waiter is
without a request, so a response never misses its waiter; ids are never given twice, a waiter is completed at
most once, and what a call returns answers its own id; the first response for a call that gave up is taken
without failing the client; a waiter that leaves the map, unless its own call gave up, is in the hands of the party
that took it out, which completes it unless the trace of the response is cut off before; and after a return from
`SetFatalError` both maps stay empty. -/
theorem commands_routed (p : CdpParsers) {actions : List Action} {s : System} (h : Run (step p) always {} actions s) :
    (∀ id request, s.shared.pendingRequests.lookup id = some request →
      id ∈ s.shared.pendingWaiters ∨ request.ignoreResponse = true) ∧
    (∀ id ∈ s.shared.pendingWaiters, id ∈ s.shared.pendingRequests) ∧
    (∀ id error result, takeResponse p s.shared id error result ≠ .missingWaiter) ∧
    (∀ later t, Run (step p) always s later t →
      ∀ c c' id, (s.commands c).id? = some id → (t.commands c').id? = some id →
      c = c') ∧
    (∀ c, (s.waiters c).completions ≤ 1) ∧
    (∀ c id result, s.commands c = .returned (some id) (.ok result) → (id, result) ∈ s.history.received) ∧
    (∀ c id payload error result, s.commands c = .expired id → s.reader = .receiving → s.aborted = false →
      p.decodeMessage payload = .response id error result →
      (∀ e, error = some e → ∃ message, p.getErrorMessage e = .text message) →
      (∀ r ∈ s.history.received, r.1 ≠ id) →
      ∃ t, step p s (.receive payload) = some t ∧ t.reader = .receiving ∧ t.fatalCalls = s.fatalCalls ∧
        t.shared.fatalError = s.shared.fatalError ∧ id ∉ t.shared.pendingRequests) ∧
    (∀ action t id c, step p s action = some t → s.shared.pendingWaiters.lookup id = some c →
      t.shared.pendingWaiters.lookup id ≠ some c →
      (action = .giveUp c ∧ t.commands c = .expired id) ∨ t.InTransit c ∨ (t.waiters c).done = true) ∧
    (∀ c, s.InTransit c →
      (∀ later t, Run (step p) Uninterrupted s later t → t.InTransit c ∨ (t.waiters c).done = true) ∧
      (s.aborted = false → ∃ later t,
        (later = [.completeWaiter] ∨ ∃ caller n, later = List.replicate n (.setFatalError caller)) ∧
        Run (step p) Uninterrupted s later t ∧ (t.waiters c).done = true)) ∧
    (∀ caller, s.fatalCalls caller = .returned → ∀ later t, Run (step p) always s later t →
      t.shared.pendingWaiters = ∅ ∧ t.shared.pendingRequests = ∅) := by
  have hs := ordered h
  refine ⟨?_, ?_, hs.no_missing_waiter, ?_, hs.completed_once, ?_, ?_, ?_, ?_, ?_⟩
  · intro id request hrequest
    cases hignore : request.ignoreResponse with
    | true => exact Or.inr rfl
    | false =>
      obtain ⟨c, hc⟩ := hs.commands.request_waiter id request hrequest hignore
      exact Or.inl (mem_of_lookup hc)
  · intro id hmem
    obtain ⟨c, hc⟩ := Option.isSome_iff_exists.mp (AList.lookup_isSome.mpr hmem)
    obtain ⟨request, hrequest, _⟩ := hs.commands.waiter_request id c hc
    exact mem_of_lookup hrequest
  · exact fun later t hrun c c' id hid hid' => hs.id_once hrun hid hid'
  · exact fun c id result hreturned => hs.commands.returned_value c id _ hreturned result rfl
  · exact fun c id payload error result hexpired hreader hrunning hpayload hreadable hnew =>
      hs.late_response hexpired hreader hrunning hpayload hreadable hnew
  · exact fun action t id c hstep hmap hgone => hs.removal (step_spec hstep) hmap hgone
  · exact fun c htransit => ⟨fun later t hrun => hs.transit_run htransit hrun, htransit.completes⟩
  · exact fun caller hcall later t hrun => hs.empty_after_fatal hcall hrun

/-- Parsers for the answers to the first two commands. -/
private def answerParsers : CdpParsers where
  una := asciiUna
  parseJson text :=
    if text = ascii "\x7b\"id\":1,\"result\":\x7b\x7d\x7d" then
      some (.object [(ascii "id", .number (some 1)), (ascii "result", .object [])])
    else if text = ascii "\x7b\"id\":2,\"result\":\x7b\x7d\x7d" then
      some (.object [(ascii "id", .number (some 2)), (ascii "result", .object [])])
    else none
  asCdpError _ := .jsonException
  asCdpEventMessage _ := .jsonException

/-- The first of two commands times out before both are answered. -/
private def lateAnswer : List Action :=
  [.sendRaw 0 (ascii "Page.enable") none, .sent 0, .sendRaw 1 (ascii "Network.enable") none, .sent 1, .waitUntilFails 0,
    .giveUp 0, .receive (ascii "\x7b\"id\":2,\"result\":\x7b\x7d\x7d"), .completeWaiter, .wake 1,
    .receive (ascii "\x7b\"id\":1,\"result\":\x7b\x7d\x7d")]

private def CommandPhase.answered : CommandPhase → Option Int
  | returned (some id) (.ok _) => some id
  | _ => none

private theorem CommandPhase.answered_eq {phase : CommandPhase} {id : Int} (h : phase.answered = some id) :
    ∃ result, phase = .returned (some id) (.ok result) := by
  cases phase with
  | returned id' outcome =>
    cases id' with
    | none => cases h
    | some id' =>
      cases outcome with
      | error e => cases h
      | ok result =>
        cases h
        exact ⟨result, rfl⟩
  | _ => cases h

theorem commands_routed_late_answer :
    ∃ s, Run (step answerParsers) always {} lateAnswer s ∧
      ∃ result, s.commands 1 = .returned (some 2) (.ok result) ∧ (2, result) ∈ s.history.received := by
  have hexec : (execute (step answerParsers) {} lateAnswer).any
      (fun s => (s.commands 1).answered == some 2) = true := by decide +kernel
  obtain ⟨s, hrun, hanswered⟩ := Run.exists_of_execute _ hexec
  obtain ⟨result, hresult⟩ := CommandPhase.answered_eq (eq_of_beq hanswered)
  obtain ⟨-, -, -, -, -, hreturned, -⟩ := commands_routed answerParsers hrun
  exact ⟨s, hrun, result, hresult, hreturned 1 2 result hresult⟩

private def ReaderPhase.leaves : ReaderPhase → Option (Nat × Int)
  | died (some (waiter, id, _)) => some (waiter, id)
  | _ => none

private theorem ReaderPhase.leaves_eq {phase : ReaderPhase} {c : Nat} {id : Int} (h : phase.leaves = some (c, id)) :
    ∃ reply, phase = .died (some (c, id, reply)) := by
  unfold ReaderPhase.leaves at h
  split at h
  · cases h
    exact ⟨_, rfl⟩
  · cases h

private def CommandPhase.awaits : CommandPhase → Option Int
  | waiting id => some id
  | _ => none

private theorem CommandPhase.awaits_eq {phase : CommandPhase} {id : Int} (h : phase.awaits = some id) :
    phase = .waiting id := by
  unfold CommandPhase.awaits at h
  split at h
  · cases h
    rfl
  · cases h

/-- A reader that died stays dead. -/
private theorem Step.died_kept (h : Step p s a t) {owed : Option (Nat × Int × Except CdpError (Option Json))}
    (hdied : s.reader = .died owed) : t.reader = .died owed := by
  cases h with
  | readerFails h | readerDies h | readerInterrupted h | consumedInterrupted h | responseInterrupted h | response h
  | eventRouted h | completeWaiter h | deliverEvent h | endReader h => cases hdied.symm.trans h
  | _ => exact hdied

/-- The client is stopped while the response of its only command is traced. -/
private def cutOff : List Action :=
  [.sendRaw 0 (ascii "Page.enable") none, .sent 0, .receive (ascii "\x7b\"id\":1,\"result\":\x7b\x7d\x7d"), .stop 0,
    .traceThrows .response, .closed 0]

/-- The waiter has left the map with its response, and nothing ever completes it. -/
theorem response_left_behind : ∃ s, Run (step answerParsers) always {} cutOff s ∧
    s.commands 0 = .waiting 1 ∧ s.shared.pendingWaiters.lookup 1 = none ∧ s.aborted = false ∧
    ∀ later t, Run (step answerParsers) always s later t → ¬ t.InTransit 0 ∧ (t.waiters 0).done = false := by
  have hexec : (execute (step answerParsers) {} cutOff).any (fun s =>
      (s.reader.leaves == some (0, 1)) && (((s.commands 0).awaits == some 1) &&
        (decide (s.shared.pendingWaiters.lookup 1 = none) && !s.aborted))) = true := by decide +kernel
  obtain ⟨s, hrun, htest⟩ := Run.exists_of_execute _ hexec
  simp only [Bool.and_eq_true, decide_eq_true_eq, Bool.not_eq_true'] at htest
  obtain ⟨hleaves, hcommand, hmap, hrunning⟩ := htest
  obtain ⟨reply, hdied⟩ := ReaderPhase.leaves_eq (eq_of_beq hleaves)
  refine ⟨s, hrun, CommandPhase.awaits_eq (eq_of_beq hcommand), hmap, hrunning, fun later t hlater => ?_⟩
  have hdied' : t.reader = .died (some (0, 1, reply)) :=
    hlater.invariant (fun s => s.reader = .died (some (0, 1, reply))) hdied
      fun _ _ _ _ hstep hs => (step_spec hstep).died_kept hs
  obtain ⟨-, hopen, -, -, hqueue⟩ := ((ordered hrun).run hlater).commands.claimed_open 0 1 reply
    (congrArg ReaderPhase.claimed hdied')
  refine ⟨?_, ?_⟩
  · rintro (⟨id, reply', hreader⟩ | ⟨caller, error, waiters, sessions, hcall, hmem⟩)
    · cases hdied'.symm.trans hreader
    · exact hqueue caller waiters (congrArg FatalCall.queue hcall) hmem
  · rw [show t.waiters 0 = {} from hopen]

end Runs
end Webshot.Crawler
