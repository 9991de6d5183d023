import Webshot.Crawler.NetworkActivity

/-! `WaitForIdle` beside the event loop of a capture, and what its success says of the network of the page. -/
namespace Webshot.Crawler
open Text Foundation.TransitionRuns

/-- The three places where `IsIdleFor` is evaluated; the deadline is the earlier of the two. -/
inductive IdleCheck where
  | head
  | again (version : Nat) (deadline : Int)
  | final

/-- The four places where `CurrentWaitError` is called. -/
inductive IdleErrorCheck where
  | first
  | second (version : Nat) (deadline : Int)
  | final
  | leaving

/-- Where `WaitForIdle` stands. From the version to the deadline it holds the lock of the progress. -/
inductive IdlePhase where
  | outside
  | evaluating (check : IdleCheck)
  | readingInterception (check : IdleErrorCheck)
  | readingTracker (check : IdleErrorCheck)
  | readingVersion
  | readingDeadline (version : Nat)
  | relocking (version : Nat) (deadline : Int)
  | waiting (version : Nat) (deadline : Int)
  | checkingDeadline
  | returned (outcome : Except Bytes Unit)

def IdlePhase.isFree : IdlePhase → Bool
  | outside | returned _ => true
  | _ => false

def IdlePhase.holdsProgress : IdlePhase → Bool
  | readingDeadline _ => true
  | _ => false

def IdleErrorCheck.ofCheck : IdleCheck → IdleErrorCheck
  | .head => .first
  | .again version deadline => .second version deadline
  | .final => .final

/-- A capture with the steady clock and its deadline. -/
structure IdleState where
  capture : CaptureState
  now : Int
  deadline : Int
  idle : Int := 0
  phase : IdlePhase := .outside

inductive IdleAction where
  | loop (action : CaptureAction)
  | tick (elapsed : Nat)
  | waitForIdle (idle : Int)
  | wait
  | timeOut
  | cancel

/-- The event loop's steps; the others are the capturing task's, which is inside the wait. -/
def CaptureAction.isLoops : CaptureAction → Bool
  | .trackerEvent .. | .fetchEvent _ | .waitEventFails .. | .failTracker | .noteEventProgress | .nextTurn _ => true
  | _ => false

def CaptureAction.isNote : CaptureAction → Bool
  | .noteEventProgress => true
  | _ => false

/-- Events are handled under the reading of the one clock. -/
def CaptureAction.isAt (now : Int) : CaptureAction → Bool
  | .trackerEvent _ clocks => clocks.steady = now
  | _ => true

namespace IdleState
variable (s : IdleState)

def lastNetworkAt : Int := s.capture.tracker.lastNetworkAt

def isIdle : Bool := s.capture.tracker.inflight = ∅ && s.idle ≤ s.now - s.lastNetworkAt

def idleDeadline : Int := s.lastNetworkAt + s.idle

/-- What follows an error check that found nothing. -/
def afterErrorCheck : IdleErrorCheck → IdlePhase
  | .first => .readingVersion
  | .second version deadline => .relocking version deadline
  | .final => .checkingDeadline
  | .leaving => .returned (.ok ())

/-- Only the evaluation at the head of the loop is followed by an error check when it is true. -/
def evaluate (check : IdleCheck) : IdlePhase :=
  if s.isIdle then
    match check with
    | .head => .readingInterception .leaving
    | .again .. | .final => .returned (.ok ())
  else .readingInterception (.ofCheck check)

/-- The next stretch of `WaitForIdle`, as far as it is not for time to pass. -/
def nextPhase : Option IdlePhase :=
  match s.phase with
  | .evaluating check => some (s.evaluate check)
  | .readingInterception check =>
    match s.capture.interceptionError with
    | some error => some (.returned (.error error))
    | none => some (.readingTracker check)
  | .readingTracker check =>
    match s.capture.tracker.mainRequestError with
    | some error => some (.returned (.error error))
    | none => some (afterErrorCheck check)
  | .readingVersion => some (.readingDeadline s.capture.version)
  | .readingDeadline version => some (.evaluating (.again version (min s.deadline s.idleDeadline)))
  | .relocking version deadline =>
    some (if s.capture.version = version then .waiting version deadline else .evaluating .head)
  | .waiting version _ => if s.capture.version = version then none else some (.evaluating .head)
  | .checkingDeadline =>
    some (if s.deadline ≤ s.now then .returned (.error (ascii "timed out waiting for network idle"))
      else .evaluating .head)
  | .outside | .returned _ => none

/-- The wait on the condition variable ends at its deadline, without a change of the version. -/
def timeOutPhase : Option IdlePhase :=
  match s.phase with
  | .waiting version deadline =>
    if s.capture.version = version ∧ deadline ≤ s.now then some (.evaluating .final) else none
  | _ => none

/-- The wait on the condition variable of a cancelled task ends at any time, as at the deadline. -/
def cancelledPhase : Option IdlePhase :=
  match s.phase with
  | .waiting version _ => if s.capture.version = version then some (.evaluating .final) else none
  | _ => none

end IdleState

/-- One step of one of the tasks, or the clock. -/
def idleStep (env : CaptureEnv) (parsers : EventParsers) (s : IdleState) : IdleAction → Option IdleState
  | .loop action =>
    if action.isLoops && action.isAt s.now && !(action.isNote && s.phase.holdsProgress) then
      (captureStep env parsers s.capture action).map fun capture => { s with capture := capture }
    else none
  | .tick elapsed => some { s with now := s.now + elapsed }
  | .waitForIdle idle =>
    if s.phase.isFree && s.capture.wait.isFree then some { s with idle := idle, phase := .evaluating .head } else none
  | .wait => s.nextPhase.map fun phase => { s with phase := phase }
  | .timeOut => s.timeOutPhase.map fun phase => { s with phase := phase }
  | .cancel => s.cancelledPhase.map fun phase => { s with phase := phase }

/-- An event was handled, and the note of it is still to come. -/
def LoopPhase.isPending : LoopPhase → Bool
  | failing .. | handled _ => true
  | _ => false

section Steps
variable {env : CaptureEnv} {parsers : EventParsers} {c c' : CaptureState} {s t : IdleState} {now : Int}

/-- What the event loop can do: what an event changes is noted by a new version, before the next event. -/
inductive LoopMove (now : Int) (c c' : CaptureState) : Prop where
  | quiet : c'.version = c.version → SameNetwork c.tracker c'.tracker →
      (c.loop.isPending = true → c'.loop.isPending = true) → LoopMove now c c'
  | handled : c'.version = c.version → NetworkMove now c.tracker c'.tracker → c'.loop.isPending = true → LoopMove now c c'
  | noted : c'.version = c.version + 1 → SameNetwork c.tracker c'.tracker → LoopMove now c c'

private theorem noteInterceptionError_move (reason : Bytes) (last : Bool) :
    LoopMove now c (c.noteInterceptionError reason last) := by
  unfold CaptureState.noteInterceptionError
  split
  · exact .quiet rfl (.refl _) fun _ => rfl
  · exact .quiet rfl (.refl _) fun _ => rfl

theorem loop_move {action : CaptureAction} (hloops : action.isLoops = true) (hat : action.isAt now = true)
    (hstep : captureStep env parsers c action = some c') : LoopMove now c c' := by
  cases action with
  | prepare call => cases hloops
  | waitForPredicate predicate message => cases hloops
  | wait => cases hloops
  | timeOut => cases hloops
  | trackerEvent event clocks =>
    simp only [captureStep] at hstep
    split at hstep
    · rename_i hdone
      cases hstep
      have hclock : clocks.steady = now := of_decide_eq_true hat
      exact .handled rfl (hclock ▸ CaptureEnv.handleEvent_network hdone) rfl
    · rename_i hloop _
      cases hstep
      exact .quiet rfl (.refl _) fun hpending => by rw [hloop] at hpending; cases hpending
    · cases hstep
  | fetchEvent failure =>
    simp only [captureStep] at hstep
    split at hstep
    · cases hstep
      exact .quiet rfl (.refl _) fun _ => rfl
    · cases hstep
      exact noteInterceptionError_move _ _
    · cases hstep
  | waitEventFails stopping reason =>
    simp only [captureStep] at hstep
    split at hstep
    · rename_i hloop
      cases hstep
      cases stopping with
      | true => exact .quiet rfl (.refl _) fun hpending => by rw [hloop] at hpending; cases hpending
      | false => exact noteInterceptionError_move reason true
    · cases hstep
  | failTracker =>
    simp only [captureStep] at hstep
    split at hstep
    · cases hstep
      exact .quiet rfl ⟨rfl, rfl⟩ fun _ => rfl
    · cases hstep
  | noteEventProgress =>
    simp only [captureStep] at hstep
    split at hstep
    · cases hstep
      exact .noted rfl (.refl _)
    · cases hstep
  | nextTurn stopping =>
    simp only [captureStep] at hstep
    split at hstep
    · rename_i hloop
      cases hstep
      exact .quiet rfl (.refl _) fun hpending => by rw [hloop] at hpending; cases hpending
    · cases hstep

/-- What a step can do: the event loop moves, or the clock, or the wait. -/
inductive IdleMove (s : IdleState) : IdleAction → IdleState → Prop where
  | loop {action : CaptureAction} {capture : CaptureState} : LoopMove s.now s.capture capture →
      (action.isNote = true → s.phase.holdsProgress = false) → IdleMove s (.loop action) { s with capture := capture }
  | tick (elapsed : Nat) : IdleMove s (.tick elapsed) { s with now := s.now + elapsed }
  | call (idle : Int) : s.phase.isFree = true → IdleMove s (.waitForIdle idle) { s with idle := idle, phase := .evaluating .head }
  | wait {phase : IdlePhase} : s.nextPhase = some phase → IdleMove s .wait { s with phase := phase }
  | timeOut {phase : IdlePhase} : s.timeOutPhase = some phase → IdleMove s .timeOut { s with phase := phase }
  | cancel {phase : IdlePhase} : s.cancelledPhase = some phase → IdleMove s .cancel { s with phase := phase }

/-- Both ends of the wait without a change lead to the last evaluation. -/
theorem timeOutPhase_eq {phase : IdlePhase} (hphase : s.timeOutPhase = some phase) : phase = .evaluating .final := by
  unfold IdleState.timeOutPhase at hphase
  split at hphase
  · split at hphase
    · cases hphase
      rfl
    · cases hphase
  · cases hphase

theorem cancelledPhase_eq {phase : IdlePhase} (hphase : s.cancelledPhase = some phase) : phase = .evaluating .final := by
  unfold IdleState.cancelledPhase at hphase
  split at hphase
  · split at hphase
    · cases hphase
      rfl
    · cases hphase
  · cases hphase

theorem idleStep_spec {a : IdleAction} (hstep : idleStep env parsers s a = some t) : IdleMove s a t := by
  cases a with
  | loop action =>
    simp only [idleStep] at hstep
    split at hstep
    · rename_i htest
      obtain ⟨capture, hcapture, rfl⟩ := Option.map_eq_some_iff.mp hstep
      obtain ⟨htest, hnote⟩ := Bool.and_eq_true_iff.mp htest
      obtain ⟨hloops, hat⟩ := Bool.and_eq_true_iff.mp htest
      refine .loop (loop_move hloops hat hcapture) fun hisNote => ?_
      rw [hisNote, Bool.true_and, Bool.not_eq_true'] at hnote
      exact hnote
    · cases hstep
  | tick elapsed =>
    cases hstep
    exact .tick elapsed
  | waitForIdle idle =>
    simp only [idleStep] at hstep
    split at hstep
    · rename_i htest
      cases hstep
      exact .call idle (Bool.and_eq_true_iff.mp htest).1
    · cases hstep
  | wait =>
    obtain ⟨phase, hphase, rfl⟩ := Option.map_eq_some_iff.mp hstep
    exact .wait hphase
  | timeOut =>
    obtain ⟨phase, hphase, rfl⟩ := Option.map_eq_some_iff.mp hstep
    exact .timeOut hphase
  | cancel =>
    obtain ⟨phase, hphase, rfl⟩ := Option.map_eq_some_iff.mp hstep
    exact .cancel hphase

end Steps

section Clock
variable {env : CaptureEnv} {parsers : EventParsers} {s t : IdleState} {a : IdleAction} {as : List IdleAction}

/-- Activity is never noted for a time to come. -/
def IdleState.Timely (s : IdleState) : Prop := s.lastNetworkAt ≤ s.now

theorem LoopMove.network {now : Int} {c c' : CaptureState} (h : LoopMove now c c') :
    NetworkMove now c.tracker c'.tracker := by
  cases h with
  | quiet _ hsame _ => exact Or.inl hsame
  | handled _ hmove _ => exact hmove
  | noted _ hsame => exact Or.inl hsame

theorem IdleMove.network (h : IdleMove s a t) : NetworkMove s.now s.capture.tracker t.capture.tracker := by
  cases h with
  | loop hloop _ => exact hloop.network
  | tick elapsed => exact Or.inl (.refl _)
  | call idle _ => exact Or.inl (.refl _)
  | wait _ => exact Or.inl (.refl _)
  | timeOut _ => exact Or.inl (.refl _)
  | cancel _ => exact Or.inl (.refl _)

theorem IdleMove.now_le (h : IdleMove s a t) : s.now ≤ t.now := by
  cases h with
  | tick elapsed => exact Int.le_add_of_nonneg_right (Int.natCast_nonneg elapsed)
  | loop _ _ => exact le_refl s.now
  | call _ _ => exact le_refl s.now
  | wait _ => exact le_refl s.now
  | timeOut _ => exact le_refl s.now
  | cancel _ => exact le_refl s.now

theorem IdleMove.lastNetworkAt_le (h : IdleMove s a t) (htimely : s.Timely) : s.lastNetworkAt ≤ t.lastNetworkAt := by
  rcases h.network with hsame | hnow
  · exact le_of_eq hsame.2.symm
  · exact le_trans htimely (le_of_eq hnow.symm)

theorem IdleMove.timely (h : IdleMove s a t) (htimely : s.Timely) : t.Timely := by
  rcases h.network with hsame | hnow
  · exact le_trans (le_of_eq hsame.2) (le_trans htimely h.now_le)
  · exact le_trans (le_of_eq hnow) h.now_le

/-- Time passes and activity becomes more recent along a run. -/
theorem timely_run (hrun : Run (idleStep env parsers) always s as t) (htimely : s.Timely) :
    t.Timely ∧ s.lastNetworkAt ≤ t.lastNetworkAt := by
  induction hrun with
  | nil s => exact ⟨htimely, le_refl _⟩
  | cons _ hstep _ ih =>
    have hmove := idleStep_spec hstep
    obtain ⟨htimely', hle⟩ := ih (hmove.timely htimely)
    exact ⟨htimely', le_trans (hmove.lastNetworkAt_le htimely) hle⟩

end Clock

section Leaving
variable {env : CaptureEnv} {parsers : EventParsers} {s t : IdleState} {a : IdleAction} {as : List IdleAction}

/-- The wait has found the page idle and only checks for errors. -/
def IdlePhase.Leaving (phase : IdlePhase) : Prop :=
  phase = .readingInterception .leaving ∨ phase = .readingTracker .leaving ∨ phase = .returned (.ok ())

private theorem evaluate_leaving {check : IdleCheck} (h : (s.evaluate check).Leaving) : s.isIdle = true := by
  unfold IdleState.evaluate at h
  split at h
  · assumption
  · cases check <;> rcases h with h | h | h <;> cases h

private theorem nextPhase_leaving {phase : IdlePhase} (hphase : s.nextPhase = some phase) (h : phase.Leaving) :
    s.phase.Leaving ∨ s.isIdle = true := by
  unfold IdleState.nextPhase at hphase
  split at hphase
  · cases hphase
    exact Or.inr (evaluate_leaving h)
  · rename_i check hcheck
    split at hphase
    · cases hphase
      rcases h with h | h | h <;> cases h
    · cases hphase
      rcases h with h | h | h
      · cases h
      · cases h
        exact Or.inl (Or.inl hcheck)
      · cases h
  · rename_i check hcheck
    split at hphase
    · cases hphase
      rcases h with h | h | h <;> cases h
    · cases hphase
      cases check <;> rcases h with h | h | h <;> cases h
      exact Or.inl (Or.inr (Or.inl hcheck))
  · cases hphase
    rcases h with h | h | h <;> cases h
  · cases hphase
    rcases h with h | h | h <;> cases h
  · cases hphase
    split at h <;> rcases h with h | h | h <;> cases h
  · split at hphase
    · cases hphase
    · cases hphase
      rcases h with h | h | h <;> cases h
  · cases hphase
    split at h <;> rcases h with h | h | h <;> cases h
  · cases hphase
  · cases hphase

private theorem step_leaving (hstep : idleStep env parsers s a = some t) (h : t.phase.Leaving) :
    s.phase.Leaving ∨ s.isIdle = true := by
  cases idleStep_spec hstep with
  | loop _ _ => exact Or.inl h
  | tick elapsed => exact Or.inl h
  | call idle _ => rcases h with h | h | h <;> cases h
  | wait hphase => exact nextPhase_leaving hphase h
  | timeOut hphase =>
    cases timeOutPhase_eq hphase
    rcases h with h | h | h <;> cases h
  | cancel hphase =>
    cases cancelledPhase_eq hphase
    rcases h with h | h | h <;> cases h

/-- A wait that leaves found the page idle on its way. -/
theorem idle_on_the_way (hrun : Run (idleStep env parsers) always s as t) (h : t.phase.Leaving) :
    s.phase.Leaving ∨ ∃ before after m, as = before ++ after ∧ Run (idleStep env parsers) always s before m ∧
      Run (idleStep env parsers) always m after t ∧ m.isIdle = true := by
  induction hrun with
  | nil s => exact Or.inl h
  | @cons s u t a as hok hstep hrest ih =>
    rcases ih h with hleaving | ⟨before, after, m, rfl, hbefore, hafter, hidle⟩
    · rcases step_leaving hstep hleaving with hleaving | hidle
      · exact Or.inl hleaving
      · exact Or.inr ⟨[], a :: as, s, rfl, .nil s, .cons hok hstep hrest, hidle⟩
    · exact Or.inr ⟨a :: before, after, m, rfl, .cons hok hstep hbefore, hafter, hidle⟩

end Leaving

theorem idle_of_run {env : CaptureEnv} {parsers : EventParsers} {s t : IdleState} {as : List IdleAction}
    (hrun : Run (idleStep env parsers) always s as t) (hcalls : ∀ idle, .waitForIdle idle ∉ as) : t.idle = s.idle := by
  induction hrun with
  | nil s => rfl
  | cons _ hstep _ ih =>
    rw [ih fun idle hmem => hcalls idle (List.mem_cons_of_mem _ hmem)]
    cases idleStep_spec hstep with
    | call idle _ => exact absurd List.mem_cons_self (hcalls idle)
    | _ => rfl

/-- Once `WaitForIdle` has succeeded there was a moment since the call with no request in flight and with a network that
had been quiet for as long as was asked: in whatever run that moment was reached, all activity was that old. -/
theorem idle_wait_sound (env : CaptureEnv) (parsers : EventParsers) {s t : IdleState} {as : List IdleAction}
    (hcall : s.phase = .evaluating .head) (hwait : Run (idleStep env parsers) always s as t)
    (hcalls : ∀ idle, .waitForIdle idle ∉ as) (hreturned : t.phase = .returned (.ok ())) :
    ∃ before after m, as = before ++ after ∧ Run (idleStep env parsers) always s before m ∧
      Run (idleStep env parsers) always m after t ∧ m.capture.tracker.inflight = ∅ ∧
      ∀ start pre u a u' post, start.Timely → Run (idleStep env parsers) always start pre u →
        idleStep env parsers u a = some u' → Run (idleStep env parsers) always u' post m →
        ¬ SameNetwork u.capture.tracker u'.capture.tracker → u.now + s.idle ≤ m.now := by
  have hleaving : ¬ s.phase.Leaving := by
    rw [hcall]
    rintro (h | h | h) <;> cases h
  obtain hleft | ⟨before, after, m, rfl, hbefore, hafter, hidle⟩ := idle_on_the_way hwait (Or.inr (Or.inr hreturned))
  · exact absurd hleft hleaving
  · obtain ⟨hinflight, hquiet⟩ := Bool.and_eq_true_iff.mp hidle
    refine ⟨before, after, m, rfl, hbefore, hafter, of_decide_eq_true hinflight, ?_⟩
    intro start pre u a u' post htimely hpre hstep hpost hactive
    have hmove := idleStep_spec hstep
    have hu := (timely_run hpre htimely).1
    have hlast := (timely_run hpost (hmove.timely hu)).2
    have hnoted : u'.lastNetworkAt = u.now := hmove.network.resolve_left hactive
    have hasked : m.idle = s.idle := idle_of_run hbefore fun idle hmem => hcalls idle (List.mem_append_left after hmem)
    have hidle : m.idle ≤ m.now - m.lastNetworkAt := of_decide_eq_true hquiet
    omega

/-- The seed is about to be requested. -/
def idleStart : IdleState where
  capture :=
    { tracker :=
        { sessionId := ascii "S"
          targetId := ascii "T"
          pageId := []
          mainFrameId := some (ascii "F")
          seedNavigationUrl := some (ascii "http://a/")
          seedNavigationStarted := true } }
  now := 1
  deadline := 10

/-- A request begins and ends while the wait reads the version. -/
def idleActions : List IdleAction :=
  [.wait, .loop (.trackerEvent (seedEvent "Network.requestWillBeSent") seedClocks), .wait, .wait,
    .loop .noteEventProgress, .loop (.nextTurn false),
    .loop (.trackerEvent (seedEvent "Network.loadingFinished") seedClocks), .wait, .wait, .loop .noteEventProgress]

private def IdlePhase.succeeded : IdlePhase → Bool
  | returned (.ok _) => true
  | _ => false

private theorem IdlePhase.eq_of_succeeded {phase : IdlePhase} (h : phase.succeeded = true) :
    phase = .returned (.ok ()) := by
  cases phase with
  | returned outcome =>
    cases outcome with
    | ok u => rfl
    | error e => cases h
  | _ => cases h

private theorem IdleAction.isCall_iff {as : List IdleAction} (h : (as.all fun | .waitForIdle _ => false | _ => true) = true) :
    ∀ idle, .waitForIdle idle ∉ as := by
  intro idle hmem
  cases List.all_eq_true.mp h _ hmem

theorem idle_wait_sound_seed : ∃ as m t, Run (idleStep seedEnv seedParsers) always
      { idleStart with idle := 2, phase := .evaluating .head } as t ∧ t.phase = .returned (.ok ()) ∧
    m.capture.tracker.inflight = ∅ ∧ ∃ later, Run (idleStep seedEnv seedParsers) always m later t := by
  have hexec : (execute (idleStep seedEnv seedParsers) { idleStart with idle := 2, phase := .evaluating .head }
      (idleActions ++ [.tick 2, .wait])).any (fun t => t.phase.succeeded) = true := by decide +kernel
  obtain ⟨t, hrun, htest⟩ := Run.exists_of_execute _ hexec
  have hreturned := IdlePhase.eq_of_succeeded htest
  obtain ⟨before, after, m, _, _, hafter, hinflight, _⟩ :=
    idle_wait_sound seedEnv seedParsers rfl hrun (IdleAction.isCall_iff (by decide +kernel)) hreturned
  exact ⟨_, m, t, hrun, hreturned, hinflight, after, hafter⟩

end Webshot.Crawler
