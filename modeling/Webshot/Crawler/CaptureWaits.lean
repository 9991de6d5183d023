import Webshot.Crawler.TrackerInvariant

/-! `WaitForPredicate` beside the event loop of a capture: each check of the one interleaves freely with the
events of the other. -/
namespace Webshot.Crawler
open Text Foundation.TransitionRuns

/-- The three places where the predicate is evaluated. -/
inductive PredicateCheck where
  | head
  | again (version : Nat)
  | final

/-- The four places where `CurrentWaitError` is called. -/
inductive ErrorCheck where
  | first
  | second (version : Nat)
  | final
  | leaving

/-- Where `WaitForPredicate` stands; an error check reads the interception error and then the tracker's. -/
inductive WaitPhase where
  | idle
  | evaluating (check : PredicateCheck)
  | readingInterception (check : ErrorCheck)
  | readingTracker (check : ErrorCheck)
  | readingVersion
  | relocking (version : Nat)
  | waiting (version : Nat)
  | returned (outcome : Except Bytes Unit)

/-- Where `RunEventLoop` stands; `last` marks the turn after which it returns. -/
inductive LoopPhase where
  | receiving
  | failing (reason : Bytes) (last : Bool)
  | handled (last : Bool)
  | checking
  | ended

/-- What the two tasks of a `CaptureSession` share. `seenError` is what `CurrentWaitError` would have been at
the last evaluation of the predicate that was true. -/
structure CaptureState where
  tracker : TrackerData
  interceptionError : Option Bytes := none
  version : Nat := 0
  loop : LoopPhase := .receiving
  wait : WaitPhase := .idle
  predicate : TrackerData → Bool := fun _ => false
  timeoutMessage : Bytes := []
  seenError : Option Bytes := none

inductive CaptureAction where
  | prepare (call : TrackerCall)
  | waitForPredicate (predicate : TrackerData → Bool) (timeoutMessage : Bytes)
  | wait
  | timeOut
  | trackerEvent (event : CdpEvent) (clocks : Clocks)
  | fetchEvent (failure : Option Bytes)
  | waitEventFails (stopping : Bool) (reason : Bytes)
  | failTracker
  | noteEventProgress
  | nextTurn (stopping : Bool)

def ErrorCheck.ofPredicate : PredicateCheck → ErrorCheck
  | .head => .first
  | .again version => .second version
  | .final => .final

/-- The calls the capturing task makes between its waits. -/
def TrackerCall.isSetup : TrackerCall → Bool
  | .beginSeedNavigation _ | .setMainFrameId _ | .setExpectedMainLoaderId _ => true
  | _ => false

/-- The capturing task is not inside a wait. -/
def WaitPhase.isFree : WaitPhase → Bool
  | idle | returned (.ok _) => true
  | _ => false

namespace CaptureState
variable (s : CaptureState)

def currentWaitError : Option Bytes := s.interceptionError.or s.tracker.mainRequestError

/-- What follows an error check that found nothing. -/
def afterErrorCheck : ErrorCheck → WaitPhase
  | .first => .readingVersion
  | .second version => .relocking version
  | .final => .returned (.error s.timeoutMessage)
  | .leaving => .returned (.ok ())

/-- The evaluation of the predicate: only the one at the head of the loop is followed by an error check when
it is true. -/
def evaluate (check : PredicateCheck) : CaptureState :=
  if s.predicate s.tracker then
    { s with
      seenError := s.currentWaitError
      wait :=
        match check with
        | .head => .readingInterception .leaving
        | .again _ | .final => .returned (.ok ()) }
  else { s with wait := .readingInterception (.ofPredicate check) }

/-- The next stretch of `WaitForPredicate`; a wait goes on once the version has changed. -/
def waitStep : Option CaptureState :=
  match s.wait with
  | .evaluating check => some (s.evaluate check)
  | .readingInterception check =>
    match s.interceptionError with
    | some error => some { s with wait := .returned (.error error) }
    | none => some { s with wait := .readingTracker check }
  | .readingTracker check =>
    match s.tracker.mainRequestError with
    | some error => some { s with wait := .returned (.error error) }
    | none => some { s with wait := s.afterErrorCheck check }
  | .readingVersion => some { s with wait := .evaluating (.again s.version) }
  | .relocking version => some { s with wait := if s.version = version then .waiting version else .evaluating .head }
  | .waiting version => if s.version = version then none else some { s with wait := .evaluating .head }
  | _ => none

/-- `NoteInterceptionError` as far as its own lock: only the first error is kept and passed on to the tracker. -/
def noteInterceptionError (reason : Bytes) (last : Bool) : CaptureState :=
  if s.interceptionError.isSome then { s with loop := .handled last }
  else { s with interceptionError := some reason, loop := .failing reason last }

end CaptureState

/-- One step of one of the two tasks; an abort leaves no state. -/
def captureStep (env : CaptureEnv) (parsers : EventParsers) (s : CaptureState) : CaptureAction → Option CaptureState
  | .prepare call =>
    if s.wait.isFree && call.isSetup then
      (trackerStep env parsers s.tracker call).map fun tracker => { s with tracker := tracker }
    else none
  | .waitForPredicate predicate timeoutMessage =>
    if s.wait.isFree then
      some { s with predicate := predicate, timeoutMessage := timeoutMessage, wait := .evaluating .head }
    else none
  | .wait => s.waitStep
  | .timeOut =>
    match s.wait with
    | .waiting version => if s.version = version then some { s with wait := .evaluating .final } else none
    | _ => none
  | .trackerEvent event clocks =>
    match s.loop, env.handleEvent parsers s.tracker event clocks with
    | .receiving, .done tracker => some { s with tracker := tracker, loop := .handled false }
    | .receiving, .threw => some { s with loop := .ended }
    | _, _ => none
  | .fetchEvent failure =>
    match s.loop, failure with
    | .receiving, none => some { s with loop := .handled false }
    | .receiving, some reason => some (s.noteInterceptionError reason false)
    | _, _ => none
  | .waitEventFails stopping reason =>
    match s.loop with
    | .receiving => some (if stopping then { s with loop := .ended } else s.noteInterceptionError reason true)
    | _ => none
  | .failTracker =>
    match s.loop with
    | .failing reason last => some { s with tracker := s.tracker.fail reason, loop := .handled last }
    | _ => none
  | .noteEventProgress =>
    match s.loop with
    | .handled last => some { s with version := s.version + 1, loop := if last then .ended else .checking }
    | _ => none
  | .nextTurn stopping =>
    match s.loop with
    | .checking => some { s with loop := if stopping || s.currentWaitError.isSome then .ended else .receiving }
    | _ => none

/-- An error that is still to be passed on to the tracker has been recorded. -/
def CaptureState.Noted (s : CaptureState) : Prop :=
  ∀ reason last, s.loop = .failing reason last → s.interceptionError.isSome

/-- A step outside the wait: an event may advance the tracker, an error may be recorded. -/
structure Progresses (s t : CaptureState) : Prop where
  tracker : Advances s.tracker t.tracker
  noted : s.Noted → t.Noted
  interception : s.interceptionError.isSome → t.interceptionError.isSome
  wait : t.wait = s.wait
  predicate : t.predicate = s.predicate
  seenError : t.seenError = s.seenError

/-- The error check is over, and the predicate is next evaluated where it ends the wait at once. -/
def WaitPhase.unguarded : WaitPhase → Bool
  | readingVersion | evaluating (.again _) | evaluating .final => true
  | _ => false

/-- The interception error has been read, and the predicate is next evaluated where it ends the wait at once. -/
def WaitPhase.pastInterception : WaitPhase → Bool
  | readingTracker .first => true
  | phase => phase.unguarded

/-- An active request id is announced again only by a redirect; no error is recorded between an error check and the
evaluation of the predicate that follows it; and a wait does not run out while an error is recorded of which its
version does not tell yet. -/
def Clean (env : CaptureEnv) (parsers : EventParsers) (s : CaptureState) : CaptureAction → Prop
  | .trackerEvent event clocks => RedirectHops env parsers s.tracker (.handleEvent event clocks) ∧
      (s.wait.unguarded = true → ∀ tracker, env.handleEvent parsers s.tracker event clocks = .done tracker →
        tracker.mainRequestError = none)
  | .fetchEvent (some _) | .waitEventFails false _ => s.wait.pastInterception = false
  | .timeOut => s.currentWaitError = none
  | _ => True

/-- The step records no error where the wait would not see it. -/
structure Unseen (s t : CaptureState) : Prop where
  interception : s.wait.pastInterception = true → s.interceptionError = none → t.interceptionError = none
  tracker : s.wait.unguarded = true → s.currentWaitError = none → t.tracker.mainRequestError = none

/-- What a step can do. -/
inductive CaptureMove (s : CaptureState) : CaptureAction → CaptureState → Prop where
  | progress {a : CaptureAction} {t : CaptureState} : Progresses s t → Unseen s t → CaptureMove s a t
  | wait {t : CaptureState} : s.waitStep = some t → CaptureMove s .wait t
  | enter {a : CaptureAction} (predicate : TrackerData → Bool) (message : Bytes) :
      CaptureMove s a { s with wait := .evaluating .head, predicate := predicate, timeoutMessage := message }
  | timeOut {a : CaptureAction} : s.currentWaitError = none → CaptureMove s a { s with wait := .evaluating .final }

/-- A true evaluation of `HasMainDocumentOrError` found a completed main document or an error. -/
def CaptureState.MainSeen (s : CaptureState) : Prop :=
  s.predicate = TrackerData.hasMainDocumentOrError →
    s.tracker.completedMainRequest.isSome ∨ s.tracker.mainRequestError.isSome

/-- While `WaitForPredicate` checks for errors on its way out, an error that was there at the evaluation is still
there to be found. -/
structure WaitInv (s : CaptureState) : Prop where
  tracked : MainTracked s.tracker
  noted : s.Noted
  reading : s.wait.pastInterception = true → s.interceptionError = none
  unguarded : s.wait.unguarded = true → s.currentWaitError = none
  leaving : s.wait = .readingInterception .leaving →
    (s.seenError.isSome → s.interceptionError.isSome ∨ s.tracker.mainRequestError.isSome) ∧ s.MainSeen
  leavingTracker : s.wait = .readingTracker .leaving →
    (s.seenError.isSome → s.tracker.mainRequestError.isSome) ∧ s.MainSeen
  succeeded : s.wait = .returned (.ok ()) → s.seenError = none ∧
    (s.predicate = TrackerData.hasMainDocumentOrError → s.tracker.completedMainRequest.isSome)

section Steps
variable {env : CaptureEnv} {parsers : EventParsers} {s t : CaptureState} {a : CaptureAction}

theorem WaitPhase.pastInterception_of_unguarded {phase : WaitPhase} (h : phase.unguarded = true) :
    phase.pastInterception = true := by
  unfold WaitPhase.pastInterception
  split
  · rfl
  · exact h

/-- A step of the event loop, or a call between the waits. -/
theorem WaitInv.progress (h : WaitInv s) (hprogress : Progresses s t) (hunseen : Unseen s t) : WaitInv t := by
  obtain ⟨hwait, hpredicate, hseen⟩ := And.intro hprogress.wait (And.intro hprogress.predicate hprogress.seenError)
  have hmain : s.MainSeen → t.MainSeen := by
    intro hmain hpredicate'
    exact (hmain (hpredicate ▸ hpredicate')).imp hprogress.tracker.completed hprogress.tracker.error
  have hreading : t.wait.pastInterception = true → t.interceptionError = none := by
    intro hphase
    rw [hwait] at hphase
    exact hunseen.interception hphase (h.reading hphase)
  refine ⟨hprogress.tracker.tracked h.tracked, hprogress.noted h.noted, hreading, ?_, ?_, ?_, ?_⟩
  · intro hphase
    rw [CaptureState.currentWaitError, hreading (WaitPhase.pastInterception_of_unguarded hphase), Option.none_or]
    rw [hwait] at hphase
    exact hunseen.tracker hphase (h.unguarded hphase)
  · intro hleaving
    obtain ⟨herror, hmain'⟩ := h.leaving (hwait ▸ hleaving)
    rw [hseen]
    exact ⟨fun hsome => (herror hsome).imp hprogress.interception hprogress.tracker.error, hmain hmain'⟩
  · intro hleaving
    obtain ⟨herror, hmain'⟩ := h.leavingTracker (hwait ▸ hleaving)
    rw [hseen]
    exact ⟨fun hsome => hprogress.tracker.error (herror hsome), hmain hmain'⟩
  · intro hreturned
    obtain ⟨herror, hcompleted⟩ := h.succeeded (hwait ▸ hreturned)
    rw [hseen, hpredicate]
    exact ⟨herror, fun hp => hprogress.tracker.completed (hcompleted hp)⟩

/-- A phase in which nothing is promised but that the tracker is in order. -/
theorem WaitInv.elsewhere (h : WaitInv s) {phase : WaitPhase} {predicate : TrackerData → Bool} {message : Bytes}
    (hpast : phase.pastInterception = false)
    (hinterception : phase ≠ .readingInterception .leaving) (htracker : phase ≠ .readingTracker .leaving)
    (hreturned : phase ≠ .returned (.ok ())) :
    WaitInv { s with wait := phase, predicate := predicate, timeoutMessage := message } := by
  refine ⟨h.tracked, h.noted, fun hphase => ?_, fun hphase => ?_, fun hphase => absurd hphase hinterception,
    fun hphase => absurd hphase htracker, fun hphase => absurd hphase hreturned⟩
  · cases hpast.symm.trans hphase
  · cases hpast.symm.trans (WaitPhase.pastInterception_of_unguarded hphase)

/-- A phase in which no error is recorded, as the wait has just seen. -/
theorem WaitInv.quiet (h : WaitInv s) {phase : WaitPhase} (herror : s.currentWaitError = none)
    (hinterception : phase ≠ .readingInterception .leaving) (htracker : phase ≠ .readingTracker .leaving)
    (hreturned : phase ≠ .returned (.ok ())) : WaitInv { s with wait := phase } :=
  ⟨h.tracked, h.noted, fun _ => (Option.or_eq_none_iff.mp herror).1, fun _ => herror, fun hphase => absurd hphase hinterception,
    fun hphase => absurd hphase htracker, fun hphase => absurd hphase hreturned⟩

private theorem main_seen_of_true (h : WaitInv s) (htrue : s.predicate s.tracker = true) : s.MainSeen := by
  intro hpredicate
  rw [hpredicate] at htrue
  cases herror : s.tracker.mainRequestError with
  | none => exact Or.inl (h.tracked.completed_of_main htrue herror)
  | some error => exact Or.inr rfl

theorem WaitInv.evaluate (h : WaitInv s) {check : PredicateCheck} (hphase : s.wait = .evaluating check) :
    WaitInv (s.evaluate check) := by
  unfold CaptureState.evaluate
  split
  · rename_i htrue
    have hmain := main_seen_of_true h htrue
    have hclean : s.currentWaitError = none → s.currentWaitError = none ∧
        (s.predicate = TrackerData.hasMainDocumentOrError → s.tracker.completedMainRequest.isSome) := by
      intro hnone
      refine ⟨hnone, fun hpredicate => (hmain hpredicate).elim id fun herror => ?_⟩
      rw [(Option.or_eq_none_iff.mp hnone).2] at herror
      cases herror
    cases check with
    | head =>
      refine ⟨h.tracked, h.noted, nofun, nofun, fun _ => ⟨?_, hmain⟩, nofun, nofun⟩
      change s.currentWaitError.isSome → _
      unfold CaptureState.currentWaitError
      rw [Option.isSome_or, Bool.or_eq_true]
      exact id
    | again version => exact ⟨h.tracked, h.noted, nofun, nofun, nofun, nofun, fun _ => hclean (h.unguarded (by rw [hphase]; rfl))⟩
    | final => exact ⟨h.tracked, h.noted, nofun, nofun, nofun, nofun, fun _ => hclean (h.unguarded (by rw [hphase]; rfl))⟩
  · cases check with
    | head => exact h.elsewhere rfl nofun nofun nofun
    | again version => exact h.elsewhere rfl nofun nofun nofun
    | final => exact h.elsewhere rfl nofun nofun nofun

theorem WaitInv.waitStep (h : WaitInv s) (hstep : s.waitStep = some t) : WaitInv t := by
  unfold CaptureState.waitStep at hstep
  split at hstep
  · rename_i check hphase
    cases hstep
    exact h.evaluate hphase
  · rename_i check hphase
    split at hstep
    · cases hstep
      exact h.elsewhere rfl nofun nofun nofun
    · rename_i hinterception
      cases hstep
      refine ⟨h.tracked, h.noted, fun _ => hinterception, nofun, nofun, ?_, nofun⟩
      rintro ⟨⟩
      obtain ⟨herror, hmain⟩ := h.leaving hphase
      refine ⟨fun hsome => (herror hsome).resolve_left ?_, hmain⟩
      rw [hinterception]
      nofun
  · rename_i check hphase
    split at hstep
    · cases hstep
      exact h.elsewhere rfl nofun nofun nofun
    · rename_i htracker
      cases hstep
      cases check with
      | leaving =>
        obtain ⟨herror, hmain⟩ := h.leavingTracker hphase
        rw [htracker] at herror
        refine ⟨h.tracked, h.noted, nofun, nofun, nofun, nofun, fun _ => ⟨?_, ?_⟩⟩
        · exact Option.not_isSome_iff_eq_none.mp fun hsome => nomatch herror hsome
        · intro hpredicate
          refine (hmain hpredicate).resolve_right ?_
          rw [htracker]
          nofun
      | first =>
        have hinterception : s.interceptionError = none := h.reading (by rw [hphase]; rfl)
        exact h.quiet (Option.or_eq_none_iff.mpr ⟨hinterception, htracker⟩) nofun nofun nofun
      | second version => exact h.elsewhere rfl nofun nofun nofun
      | final => exact h.elsewhere rfl nofun nofun nofun
  · rename_i hphase
    cases hstep
    exact h.quiet (h.unguarded (by rw [hphase]; rfl)) nofun nofun nofun
  · rename_i version _
    cases hstep
    by_cases hsame : s.version = version
    · rw [if_pos hsame]
      exact h.elsewhere rfl nofun nofun nofun
    · rw [if_neg hsame]
      exact h.elsewhere rfl nofun nofun nofun
  · split at hstep
    · cases hstep
    · cases hstep
      exact h.elsewhere rfl nofun nofun nofun
  · cases hstep

/-- Nothing of the tracker changes inside the wait. -/
theorem waitStep_tracker (hstep : s.waitStep = some t) : t.tracker = s.tracker := by
  unfold CaptureState.waitStep at hstep
  split at hstep
  · cases hstep
    unfold CaptureState.evaluate
    split <;> rfl
  · split at hstep <;> (cases hstep; rfl)
  · split at hstep <;> (cases hstep; rfl)
  · cases hstep
    rfl
  · cases hstep
    rfl
  · split at hstep
    · cases hstep
    · cases hstep
      rfl
  · cases hstep

private theorem loop_progresses {phase : LoopPhase} (hphase : ∀ reason last, phase ≠ .failing reason last)
    (version : Nat) : Progresses s { s with loop := phase, version := version } :=
  ⟨.refl _, fun _ reason last hfailing => absurd hfailing (hphase reason last), id, rfl, rfl, rfl⟩

private theorem loop_unseen (phase : LoopPhase) (version : Nat) : Unseen s { s with loop := phase, version := version } :=
  ⟨fun _ hnone => hnone, fun _ hnone => (Option.or_eq_none_iff.mp hnone).2⟩

private theorem noteInterceptionError_progresses (reason : Bytes) (last : Bool) :
    Progresses s (s.noteInterceptionError reason last) := by
  unfold CaptureState.noteInterceptionError
  split
  · exact loop_progresses (by rintro _ _ ⟨⟩) _
  · exact ⟨.refl _, fun _ _ _ _ => rfl, fun _ => rfl, rfl, rfl, rfl⟩

/-- An interception error that the wait does not look for again just now. -/
private theorem noteInterceptionError_unseen (hpast : s.wait.pastInterception = false) (reason : Bytes) (last : Bool) :
    Unseen s (s.noteInterceptionError reason last) := by
  refine ⟨fun hphase => ?_, fun hphase => ?_⟩
  · cases hpast.symm.trans hphase
  · cases hpast.symm.trans (WaitPhase.pastInterception_of_unguarded hphase)

theorem captureStep_spec (hnoted : s.Noted) (hok : Clean env parsers s a) (hstep : captureStep env parsers s a = some t) :
    CaptureMove s a t := by
  cases a with
  | prepare call =>
    simp only [captureStep] at hstep
    split at hstep
    · rename_i htest
      obtain ⟨hfree, hcall⟩ := Bool.and_eq_true_iff.mp htest
      obtain ⟨tracker, htracker, rfl⟩ := Option.map_eq_some_iff.mp hstep
      have hsetup : RedirectHops env parsers s.tracker call := by
        cases call with
        | handleEvent event clocks => cases hcall
        | _ => trivial
      have hprogress : Progresses s { s with tracker := tracker } :=
        ⟨trackerStep_advances hsetup htracker, fun hs => hs, id, rfl, rfl, rfl⟩
      refine .progress hprogress ⟨fun _ hnone => hnone, fun hphase => ?_⟩
      -- the capturing task is not inside a wait
      revert hfree hphase
      cases s.wait with
      | evaluating check => exact fun hfree => nomatch hfree
      | readingVersion => exact fun hfree => nomatch hfree
      | _ => exact fun _ hphase => nomatch hphase
    · cases hstep
  | waitForPredicate predicate message =>
    simp only [captureStep] at hstep
    split at hstep
    · cases hstep
      exact .enter predicate message
    · cases hstep
  | wait => exact .wait hstep
  | timeOut =>
    simp only [captureStep] at hstep
    split at hstep
    · split at hstep
      · cases hstep
        exact .timeOut hok
      · cases hstep
    · cases hstep
  | trackerEvent event clocks =>
    simp only [captureStep] at hstep
    split at hstep
    · rename_i tracker _ hdone
      cases hstep
      have hprogress : Progresses s { s with tracker := tracker, loop := .handled false } :=
        ⟨handleEvent_advances hok.1 hdone, fun _ _ _ h => (nomatch h), id, rfl, rfl, rfl⟩
      exact .progress hprogress ⟨fun _ hnone => hnone, fun hphase _ => hok.2 hphase tracker hdone⟩
    · cases hstep
      exact .progress (loop_progresses (by rintro _ _ ⟨⟩) _) (loop_unseen _ _)
    · cases hstep
  | fetchEvent failure =>
    simp only [captureStep] at hstep
    split at hstep
    · cases hstep
      exact .progress (loop_progresses (by rintro _ _ ⟨⟩) _) (loop_unseen _ _)
    · cases hstep
      exact .progress (noteInterceptionError_progresses _ _) (noteInterceptionError_unseen hok _ _)
    · cases hstep
  | waitEventFails stopping reason =>
    simp only [captureStep] at hstep
    split at hstep
    · cases hstep
      cases stopping with
      | true => exact .progress (loop_progresses (by rintro _ _ ⟨⟩) _) (loop_unseen _ _)
      | false => exact .progress (noteInterceptionError_progresses reason true) (noteInterceptionError_unseen hok reason true)
    · cases hstep
  | failTracker =>
    simp only [captureStep] at hstep
    split at hstep
    · rename_i reason last hfailing
      cases hstep
      have hprogress : Progresses s { s with tracker := s.tracker.fail reason, loop := .handled last } :=
        ⟨.fail _, fun _ _ _ h => (nomatch h), id, rfl, rfl, rfl⟩
      refine .progress hprogress ⟨fun _ hnone => hnone, fun _ hnone => ?_⟩
      have hsome := hnoted reason last hfailing
      rw [(Option.or_eq_none_iff.mp hnone).1] at hsome
      cases hsome
    · cases hstep
  | noteEventProgress =>
    simp only [captureStep] at hstep
    split at hstep
    · rename_i last _
      cases hstep
      cases last with
      | true => exact .progress (loop_progresses (by rintro _ _ ⟨⟩) _) (loop_unseen _ _)
      | false => exact .progress (loop_progresses (by rintro _ _ ⟨⟩) _) (loop_unseen _ _)
    · cases hstep
  | nextTurn stopping =>
    simp only [captureStep] at hstep
    split at hstep
    · cases hstep
      refine .progress (loop_progresses (fun reason last => ?_) _) (loop_unseen _ _)
      split
      · exact fun h => nomatch h
      · exact fun h => nomatch h
    · cases hstep

theorem WaitInv.step (h : WaitInv s) (hok : Clean env parsers s a) (hstep : captureStep env parsers s a = some t) :
    WaitInv t := by
  cases captureStep_spec h.noted hok hstep with
  | progress hprogress hunseen => exact h.progress hprogress hunseen
  | wait hwait => exact h.waitStep hwait
  | enter predicate message => exact h.elsewhere rfl nofun nofun nofun
  | timeOut herror => exact h.quiet herror nofun nofun nofun

theorem captureStep_advances (hnoted : s.Noted) (hok : Clean env parsers s a)
    (hstep : captureStep env parsers s a = some t) : Advances s.tracker t.tracker := by
  cases captureStep_spec hnoted hok hstep with
  | progress hprogress _ => exact hprogress.tracker
  | wait hwait =>
    rw [waitStep_tracker hwait]
    exact .refl _
  | enter predicate message => exact .refl _
  | timeOut _ => exact .refl _

end Steps

section Runs
variable {env : CaptureEnv} {parsers : EventParsers} {s t : CaptureState} {actions later : List CaptureAction}

theorem WaitInv.run (h : WaitInv s) (hrun : Run (captureStep env parsers) (Clean env parsers) s later t) : WaitInv t :=
  hrun.invariant WaitInv h fun _ _ _ hok hstep hs => hs.step hok hstep

theorem WaitInv.initial (sessionId targetId pageId : Bytes) (lastNetworkAt : Int) : WaitInv { tracker :=
    { sessionId := sessionId, targetId := targetId, pageId := pageId, lastNetworkAt := lastNetworkAt } } :=
  ⟨.initial sessionId targetId pageId lastNetworkAt, nofun, nofun, nofun, nofun, nofun, nofun⟩

/-- A main document that was completed gives every exchange its response. -/
theorem makeExchange_isSome {data : TrackerData} (h : MainTracked data) (hcompleted : data.completedMainRequest.isSome)
    (finalUrl : Bytes) (title : Option Bytes) (body : Bytes) (resources : List CapturedResource) :
    (data.makeExchange finalUrl title body resources).isSome := by
  rw [TrackerData.makeExchange, Option.isSome_map]
  exact h.selectMainResponse_isSome hcompleted finalUrl

/-- In a run in which no error is recorded between an error check and the evaluation that follows it, a wait that
succeeds found no error recorded when it found its predicate true; and once the wait for the main document has
succeeded, an exchange can be made from then on. -/
theorem wait_succeeds_without_error (env : CaptureEnv) (parsers : EventParsers) (sessionId targetId pageId : Bytes)
    (lastNetworkAt : Int) {actions : List CaptureAction} {s : CaptureState}
    (h : Run (captureStep env parsers) (Clean env parsers) { tracker :=
      { sessionId := sessionId, targetId := targetId, pageId := pageId, lastNetworkAt := lastNetworkAt } } actions s)
    (hsuccess : s.wait = .returned (.ok ())) :
    s.seenError = none ∧
    (s.predicate = TrackerData.hasMainDocumentOrError →
      ∀ later t, Run (captureStep env parsers) (Clean env parsers) s later t →
        ∀ finalUrl title body resources, (t.tracker.makeExchange finalUrl title body resources).isSome) := by
  have hs : WaitInv s := (WaitInv.initial sessionId targetId pageId lastNetworkAt).run h
  obtain ⟨hseen, hcompleted⟩ := hs.succeeded hsuccess
  refine ⟨hseen, fun hpredicate later t hrun => ?_⟩
  have hlater : WaitInv t ∧ Advances s.tracker t.tracker :=
    hrun.invariant (fun t => WaitInv t ∧ Advances s.tracker t.tracker) ⟨hs, .refl _⟩ fun _ _ _ hok hstep hlater =>
      ⟨hlater.1.step hok hstep, hlater.2.trans (captureStep_advances hlater.1.noted hok hstep)⟩
  have hadvances := hlater.2
  exact makeExchange_isSome (hadvances.tracked hs.tracked) (hadvances.completed (hcompleted hpredicate))

/-- `Clean` as a test. -/
private def isClean (env : CaptureEnv) (parsers : EventParsers) (s : CaptureState) : CaptureAction → Bool
  | .trackerEvent event clocks =>
    redirectHops env parsers s.tracker (.handleEvent event clocks) &&
      (!s.wait.unguarded ||
        match env.handleEvent parsers s.tracker event clocks with
        | .done tracker => tracker.mainRequestError.isNone
        | _ => true)
  | .fetchEvent (some _) | .waitEventFails false _ => !s.wait.pastInterception
  | .timeOut => s.currentWaitError.isNone
  | _ => true

private theorem isClean_sound (s : CaptureState) (a : CaptureAction) (h : isClean env parsers s a = true) :
    Clean env parsers s a := by
  unfold isClean at h
  split at h
  · rename_i event clocks
    obtain ⟨hhops, hquiet⟩ := Bool.and_eq_true_iff.mp h
    refine ⟨redirectHops_sound _ _ hhops, fun hphase tracker hdone => ?_⟩
    rw [hphase, Bool.not_true, Bool.false_or, hdone] at hquiet
    exact Option.isNone_iff_eq_none.mp hquiet
  · change s.wait.pastInterception = false
    simpa using h
  · change s.wait.pastInterception = false
    simpa using h
  · exact Option.isNone_iff_eq_none.mp h
  · rename_i htracker hfetch hwait htimeOut
    unfold Clean
    split
    · exact absurd rfl (htracker _ _)
    · exact absurd rfl (hfetch _)
    · exact absurd rfl (hwait _)
    · exact absurd rfl htimeOut
    · trivial

/-- The seed is requested, answered and loaded. -/
private def loadSeed : List CaptureAction :=
  [.prepare (.setMainFrameId (ascii "F")), .prepare (.beginSeedNavigation (ascii "http://a/")),
    .trackerEvent (seedEvent "Network.requestWillBeSent") seedClocks, .noteEventProgress, .nextTurn false,
    .trackerEvent (seedEvent "Network.responseReceived") seedClocks, .noteEventProgress, .nextTurn false,
    .trackerEvent (seedEvent "Network.loadingFinished") seedClocks]

private def WaitPhase.succeeded : WaitPhase → Bool
  | returned (.ok _) => true
  | _ => false

private theorem WaitPhase.eq_of_succeeded {phase : WaitPhase} (h : phase.succeeded = true) :
    phase = .returned (.ok ()) := by
  cases phase with
  | returned outcome =>
    cases outcome with
    | ok u => rfl
    | error e => cases h
  | _ => cases h

/-- The wait for a main document that is there already. -/
private theorem run_of_main_document (hmain : s.tracker.hasMainDocumentOrError = true)
    (htracker : s.tracker.mainRequestError = none) (hinterception : s.interceptionError = none)
    (hfree : s.wait.isFree = true) :
    Run (captureStep env parsers) (Clean env parsers) s
      [.waitForPredicate TrackerData.hasMainDocumentOrError [], .wait, .wait, .wait]
      { s with
        predicate := TrackerData.hasMainDocumentOrError
        timeoutMessage := []
        seenError := none
        wait := .returned (.ok ()) } := by
  refine Run.of_checked isClean_sound (Run.of_execute ?_)
  simp [execute, isClean, captureStep, CaptureState.waitStep, CaptureState.evaluate, CaptureState.afterErrorCheck,
    CaptureState.currentWaitError, hmain, htracker, hinterception, hfree]

theorem wait_succeeds_seed : ∃ actions s,
    Run (captureStep seedEnv seedParsers) (Clean seedEnv seedParsers)
      { tracker := { sessionId := ascii "S", targetId := ascii "T", pageId := [] } } actions s ∧
    s.wait = .returned (.ok ()) ∧ s.seenError = none ∧
    ∀ finalUrl title body resources, (s.tracker.makeExchange finalUrl title body resources).isSome := by
  have hexec : (execute
      (fun s a => if isClean seedEnv seedParsers s a then captureStep seedEnv seedParsers s a else none)
      { tracker := { sessionId := ascii "S", targetId := ascii "T", pageId := [] } } loadSeed).any
      (fun s => s.tracker.hasMainDocumentOrError && (s.tracker.mainRequestError.isNone &&
        (s.interceptionError.isNone && s.wait.isFree))) = true := by decide +kernel
  obtain ⟨s, hrun, htest⟩ := Run.exists_of_execute _ hexec
  simp only [Bool.and_eq_true, Option.isNone_iff_eq_none] at htest
  obtain ⟨hmain, htracker, hinterception, hfree⟩ := htest
  have hload : Run (captureStep seedEnv seedParsers) (Clean seedEnv seedParsers) _ loadSeed s :=
    Run.of_checked isClean_sound hrun
  have hall := hload.append (run_of_main_document hmain htracker hinterception hfree)
  obtain ⟨hseen, hexchange⟩ := wait_succeeds_without_error seedEnv seedParsers _ _ _ _ hall rfl
  exact ⟨_, _, hall, rfl, hseen, hexchange rfl _ _ (.nil _)⟩

/-- An error recorded between the first error check and the second evaluation of the predicate: the wait for the main
document succeeds, and the exchange cannot be made. -/
theorem wait_succeeds_with_error : ∃ s,
    Run (captureStep seedEnv seedParsers) always
      { tracker := { sessionId := ascii "S", targetId := ascii "T", pageId := [] } }
      [.waitForPredicate TrackerData.hasMainDocumentOrError (ascii "timed out waiting for main document response"),
        .wait, .wait, .wait, .wait, .trackerEvent ⟨ascii "Network.loadingFinished", none, some (ascii "S")⟩ seedClocks,
        .wait] s ∧
    s.wait = .returned (.ok ()) ∧ s.seenError ≠ none ∧
    ∀ finalUrl title body resources, s.tracker.makeExchange finalUrl title body resources = none := by
  have hexec : (execute (captureStep seedEnv seedParsers)
      { tracker := { sessionId := ascii "S", targetId := ascii "T", pageId := [] } }
      [.waitForPredicate TrackerData.hasMainDocumentOrError (ascii "timed out waiting for main document response"),
        .wait, .wait, .wait, .wait, .trackerEvent ⟨ascii "Network.loadingFinished", none, some (ascii "S")⟩ seedClocks,
        .wait]).any
      (fun s => s.wait.succeeded && (s.seenError.isSome && (s.tracker.completedMainRequest.isNone &&
        s.tracker.mainRequestId.isNone))) = true := by decide +kernel
  obtain ⟨s, hrun, htest⟩ := Run.exists_of_execute _ hexec
  simp only [Bool.and_eq_true, Option.isNone_iff_eq_none] at htest
  obtain ⟨hwait, hseen, hcompleted, hmain⟩ := htest
  refine ⟨s, hrun, WaitPhase.eq_of_succeeded hwait, Option.isSome_iff_ne_none.mp hseen, ?_⟩
  intro finalUrl title body resources
  simp [TrackerData.makeExchange, TrackerData.selectMainResponse, TrackerData.completedResponse,
    TrackerData.activeMainRequest, hcompleted, hmain]

end Runs
end Webshot.Crawler
