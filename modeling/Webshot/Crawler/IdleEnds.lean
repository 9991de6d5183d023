import Webshot.Crawler.IdleWaits

/-! `WaitForIdle` misses no wake-up: it ends when the page is idle, or at its deadline. -/
namespace Webshot.Crawler
open Text Foundation.TransitionRuns

/-- The version and the deadline that the wait has read and not yet slept on, or sleeps on. -/
def IdlePhase.ticket : IdlePhase → Option (Nat × Int)
  | evaluating (.again version deadline) => some (version, deadline)
  | readingInterception (.second version deadline) => some (version, deadline)
  | readingTracker (.second version deadline) => some (version, deadline)
  | relocking version deadline => some (version, deadline)
  | waiting version deadline => some (version, deadline)
  | _ => none

/-- While the version is the one read, the deadline is the one that the network gives now, or a note is to come. -/
structure IdleState.TicketInv (s : IdleState) (version : Nat) (deadline : Int) : Prop where
  version_le : version ≤ s.capture.version
  deadline_le : deadline ≤ s.deadline
  current : version = s.capture.version → s.capture.loop.isPending = true ∨ deadline = min s.deadline s.idleDeadline

structure IdleState.WakeInv (s : IdleState) : Prop where
  reading : ∀ version, s.phase = .readingDeadline version → version ≤ s.capture.version
  ticket : ∀ version deadline, s.phase.ticket = some (version, deadline) → s.TicketInv version deadline

section Invariant
variable {env : CaptureEnv} {parsers : EventParsers} {s t : IdleState} {a : IdleAction} {as : List IdleAction}

/-- The event loop: an event leaves a note to come, and the note makes the version another. -/
private theorem ticket_loop {capture : CaptureState} (hmove : LoopMove s.now s.capture capture) {version : Nat}
    {deadline : Int} (h : s.TicketInv version deadline) :
    ({ s with capture := capture } : IdleState).TicketInv version deadline := by
  cases hmove with
  | quiet hversion hsame hpending =>
    refine ⟨hversion ▸ h.version_le, h.deadline_le, fun hcurrent => ?_⟩
    rcases h.current (hcurrent.trans hversion) with hnote | hdeadline
    · exact Or.inl (hpending hnote)
    · right
      rw [hdeadline]
      exact congrArg (fun last => min s.deadline (last + s.idle)) hsame.2.symm
  | handled hversion _ hpending =>
    exact ⟨hversion ▸ h.version_le, h.deadline_le, fun _ => Or.inl hpending⟩
  | noted hversion _ =>
    have hle := h.version_le
    refine ⟨?_, h.deadline_le, fun hcurrent => ?_⟩
    · change version ≤ capture.version
      omega
    · change version = capture.version at hcurrent
      omega

/-- A ticket is carried on, or it has just been completed by the deadline. -/
private theorem nextPhase_ticket {phase : IdlePhase} (hphase : s.nextPhase = some phase) {version : Nat} {deadline : Int}
    (h : phase.ticket = some (version, deadline)) : s.phase.ticket = some (version, deadline) ∨
      (s.phase = .readingDeadline version ∧ deadline = min s.deadline s.idleDeadline) := by
  unfold IdleState.nextPhase at hphase
  split at hphase
  · rename_i check hcheck
    cases hphase
    unfold IdleState.evaluate at h
    split at h
    · cases check <;> cases h
    · cases check with
      | again v d => exact Or.inl (hcheck ▸ h)
      | head => cases h
      | final => cases h
  · rename_i check hcheck
    split at hphase
    · cases hphase
      cases h
    · cases hphase
      cases check with
      | second v d => exact Or.inl (hcheck ▸ h)
      | _ => cases h
  · rename_i check hcheck
    split at hphase
    · cases hphase
      cases h
    · cases hphase
      cases check with
      | second v d => exact Or.inl (hcheck ▸ h)
      | _ => cases h
  · cases hphase
    cases h
  · rename_i v hv
    cases hphase
    cases h
    exact Or.inr ⟨hv, rfl⟩
  · rename_i v d hv
    cases hphase
    split at h
    · exact Or.inl (hv ▸ h)
    · cases h
  · split at hphase
    · cases hphase
    · cases hphase
      cases h
  · cases hphase
    split at h <;> cases h
  · cases hphase
  · cases hphase

private theorem nextPhase_reading {version : Nat} (hphase : s.nextPhase = some (.readingDeadline version)) :
    version = s.capture.version := by
  unfold IdleState.nextPhase at hphase
  split at hphase
  · rename_i check _
    unfold IdleState.evaluate at hphase
    split at hphase <;> cases check <;> cases hphase
  · split at hphase <;> cases hphase
  · rename_i check _
    split at hphase
    · cases hphase
    · cases check <;> cases hphase
  · cases hphase
    rfl
  · cases hphase
  · split at hphase <;> cases hphase
  · split at hphase <;> cases hphase
  · split at hphase <;> cases hphase
  · cases hphase
  · cases hphase

theorem IdleMove.wake (hmove : IdleMove s a t) (h : s.WakeInv) : t.WakeInv := by
  cases hmove with
  | loop hloop _ =>
    constructor
    · intro version hversion
      have hle := h.reading version hversion
      cases hloop with
      | quiet hsame _ _ => exact hsame ▸ hle
      | handled hsame _ _ => exact hsame ▸ hle
      | noted hnext _ => exact le_trans hle (le_of_le_of_eq (Nat.le_succ _) hnext.symm)
    · exact fun version deadline hticket => ticket_loop hloop (h.ticket version deadline hticket)
  | tick elapsed =>
    refine ⟨h.reading, fun version deadline hticket => ?_⟩
    obtain ⟨hversion, hdeadline, hcurrent⟩ := h.ticket version deadline hticket
    exact ⟨hversion, hdeadline, hcurrent⟩
  | call idle _ => exact ⟨nofun, nofun⟩
  | wait hphase =>
    constructor
    · intro version hversion
      have hreading : s.nextPhase = some (.readingDeadline version) := hversion ▸ hphase
      have hsame := nextPhase_reading hreading
      exact le_of_eq hsame
    · intro version deadline hticket
      rcases nextPhase_ticket hphase hticket with hticket | ⟨hreading, rfl⟩
      · obtain ⟨hversion, hdeadline, hcurrent⟩ := h.ticket version deadline hticket
        exact ⟨hversion, hdeadline, hcurrent⟩
      · exact ⟨h.reading version hreading, min_le_left _ _, fun _ => Or.inr rfl⟩
  | timeOut hphase =>
    cases timeOutPhase_eq hphase
    exact ⟨nofun, nofun⟩
  | cancel hphase =>
    cases cancelledPhase_eq hphase
    exact ⟨nofun, nofun⟩

theorem wake_run (hrun : Run (idleStep env parsers) always s as t) (h : s.WakeInv) : t.WakeInv :=
  hrun.invariant IdleState.WakeInv h fun _ _ _ _ hstep hs => (idleStep_spec hstep).wake hs

end Invariant

section Ending
variable {env : CaptureEnv} {parsers : EventParsers} {s : IdleState} {n : Nat} {phase next : IdlePhase}

/-- An outcome that the state accounts for: the page is idle, or the wait had found it so and is on its way out; an error
is recorded; or the time is up. -/
def IdleState.Accounts (s : IdleState) (outcome : Except Bytes Unit) : Prop :=
  (outcome = .ok () ∧ (s.isIdle = true ∨ s.phase.Leaving)) ∨
    (∃ error, outcome = .error error ∧
      (s.capture.interceptionError = some error ∨ s.capture.tracker.mainRequestError = some error)) ∨
    (outcome = .error (ascii "timed out waiting for network idle") ∧ s.deadline ≤ s.now)

/-- The wait's own steps, at most so many, lead from a phase to an outcome. -/
def EndsWithin (env : CaptureEnv) (parsers : EventParsers) (s : IdleState) (n : Nat) (phase : IdlePhase) : Prop :=
  ∃ outcome as, s.Accounts outcome ∧ as.length ≤ n ∧ (∀ a ∈ as, a = .wait ∨ a = .timeOut) ∧
    Run (idleStep env parsers) always { s with phase := phase } as { s with phase := .returned outcome }

namespace EndsWithin

theorem mono {m : Nat} (h : EndsWithin env parsers s n phase) (hle : n ≤ m) : EndsWithin env parsers s m phase := by
  obtain ⟨outcome, as, haccounts, hlength, howns, hrun⟩ := h
  exact ⟨outcome, as, haccounts, hlength.trans hle, howns, hrun⟩

theorem returned {outcome : Except Bytes Unit} (h : s.Accounts outcome) :
    EndsWithin env parsers s 0 (.returned outcome) := ⟨outcome, [], h, le_refl 0, nofun, .nil _⟩

theorem wait (hphase : ({ s with phase := phase } : IdleState).nextPhase = some next) (h : EndsWithin env parsers s n next) :
    EndsWithin env parsers s (n + 1) phase := by
  obtain ⟨outcome, as, haccounts, hlength, howns, hrun⟩ := h
  refine ⟨outcome, .wait :: as, haccounts, Nat.succ_le_succ hlength, List.forall_mem_cons.mpr ⟨Or.inl rfl, howns⟩,
    .cons trivial ?_ hrun⟩
  rw [idleStep, hphase, Option.map_some]

theorem timeOut (hphase : ({ s with phase := phase } : IdleState).timeOutPhase = some next)
    (h : EndsWithin env parsers s n next) : EndsWithin env parsers s (n + 1) phase := by
  obtain ⟨outcome, as, haccounts, hlength, howns, hrun⟩ := h
  refine ⟨outcome, .timeOut :: as, haccounts, Nat.succ_le_succ hlength, List.forall_mem_cons.mpr ⟨Or.inr rfl, howns⟩,
    .cons trivial ?_ hrun⟩
  rw [idleStep, hphase, Option.map_some]

theorem readingTracker {check : IdleErrorCheck} (h : EndsWithin env parsers s n (IdleState.afterErrorCheck check)) :
    EndsWithin env parsers s (n + 1) (.readingTracker check) := by
  cases herror : s.capture.tracker.mainRequestError with
  | none =>
    apply wait _ h
    simp only [IdleState.nextPhase, herror]
  | some error =>
    have haccounts : s.Accounts (.error error) := Or.inr (Or.inl ⟨error, rfl, Or.inr herror⟩)
    apply (wait _ (returned haccounts)).mono (Nat.le_add_left 1 n)
    simp only [IdleState.nextPhase, herror]

theorem readingInterception {check : IdleErrorCheck} (h : EndsWithin env parsers s n (IdleState.afterErrorCheck check)) :
    EndsWithin env parsers s (n + 2) (.readingInterception check) := by
  cases herror : s.capture.interceptionError with
  | none =>
    apply wait _ (readingTracker h)
    simp only [IdleState.nextPhase, herror]
  | some error =>
    have haccounts : s.Accounts (.error error) := Or.inr (Or.inl ⟨error, rfl, Or.inl herror⟩)
    apply (wait _ (returned haccounts)).mono (Nat.le_add_left 1 (n + 1))
    simp only [IdleState.nextPhase, herror]

/-- The page is idle, or the deadline is reached. -/
def Due (s : IdleState) : Prop := s.isIdle = true ∨ s.deadline ≤ s.now

theorem Due.deadline_le (h : Due s) : min s.deadline s.idleDeadline ≤ s.now := by
  rcases h with hidle | hreached
  · have hquiet : s.idle ≤ s.now - s.lastNetworkAt := of_decide_eq_true (Bool.and_eq_true_iff.mp hidle).2
    have hidleDeadline : s.idleDeadline ≤ s.now := by
      rw [IdleState.idleDeadline]
      omega
    exact (min_le_right _ _).trans hidleDeadline
  · exact (min_le_left _ _).trans hreached

theorem leaving (hidle : s.isIdle = true) : EndsWithin env parsers s 2 (.readingInterception .leaving) :=
  readingInterception (returned (Or.inl ⟨rfl, Or.inl hidle⟩))

/-- An evaluation that is not at the head of the loop. -/
theorem evaluating {check : IdleCheck} (hhead : check ≠ .head)
    (h : s.isIdle = false → EndsWithin env parsers s n (.readingInterception (.ofCheck check))) :
    EndsWithin env parsers s (n + 1) (.evaluating check) := by
  cases hidle : s.isIdle with
  | true =>
    have hphase : ({ s with phase := .evaluating check } : IdleState).nextPhase = some (.returned (.ok ())) := by
      cases check with
      | head => exact absurd rfl hhead
      | again version deadline => exact congrArg some (if_pos hidle)
      | final => exact congrArg some (if_pos hidle)
    exact (wait hphase (returned (Or.inl ⟨rfl, Or.inl hidle⟩))).mono (Nat.le_add_left 1 n)
  | false =>
    refine wait ?_ (h hidle)
    exact congrArg some (if_neg (Bool.eq_false_iff.mp hidle))

theorem atHead (h : s.isIdle = false → EndsWithin env parsers s n (.readingInterception .first)) (hn : 2 ≤ n) :
    EndsWithin env parsers s (n + 1) (.evaluating .head) := by
  cases hidle : s.isIdle with
  | true =>
    refine (wait ?_ (leaving hidle)).mono (Nat.succ_le_succ hn)
    exact congrArg some (if_pos hidle)
  | false =>
    refine wait ?_ (h hidle)
    exact congrArg some (if_neg (Bool.eq_false_iff.mp hidle))

variable (hdue : Due s)
include hdue

theorem final : EndsWithin env parsers s 4 (.evaluating .final) := by
  refine evaluating nofun fun hbusy => ?_
  have hreached : s.deadline ≤ s.now := by
    rcases hdue with hidle | hreached
    · rw [hbusy] at hidle
      cases hidle
    · exact hreached
  apply readingInterception
  refine wait ?_ (returned (Or.inr (Or.inr ⟨rfl, hreached⟩)))
  exact congrArg some (if_pos hreached)

/-- A sleep whose deadline has passed. -/
theorem sleeping {version : Nat} {deadline : Int} (hversion : s.capture.version = version) (hdeadline : deadline ≤ s.now) :
    EndsWithin env parsers s 5 (.waiting version deadline) := by
  refine timeOut ?_ (final hdue)
  exact if_pos ⟨hversion, hdeadline⟩

theorem falling {version : Nat} {deadline : Int} (hversion : s.capture.version = version) (hdeadline : deadline ≤ s.now) :
    EndsWithin env parsers s 6 (.relocking version deadline) := by
  refine wait ?_ (sleeping hdue hversion hdeadline)
  exact congrArg some (if_pos hversion)

theorem fresh : EndsWithin env parsers s 11 (.readingVersion) := by
  refine wait rfl (wait rfl (evaluating nofun fun _ => ?_))
  exact readingInterception (falling hdue rfl hdue.deadline_le)

theorem head : EndsWithin env parsers s 14 (.evaluating .head) :=
  atHead (fun _ => readingInterception (fresh hdue)) (by decide)

/-- Nobody sleeps on a version that is not the last, nor past the deadline that was read. -/
theorem waiting {version : Nat} {deadline : Int} (h : s.capture.version = version → deadline ≤ s.now) :
    EndsWithin env parsers s 15 (.waiting version deadline) := by
  by_cases hversion : s.capture.version = version
  · exact (sleeping hdue hversion (h hversion)).mono (by decide)
  · refine wait ?_ (head hdue)
    exact if_neg hversion

theorem relocking {version : Nat} {deadline : Int} (h : s.capture.version = version → deadline ≤ s.now) :
    EndsWithin env parsers s 15 (.relocking version deadline) := by
  by_cases hversion : s.capture.version = version
  · exact (falling hdue hversion (h hversion)).mono (by decide)
  · refine wait ?_ (head hdue)
    exact congrArg some (if_neg hversion)

theorem again {version : Nat} {deadline : Int} (h : s.capture.version = version → deadline ≤ s.now) :
    EndsWithin env parsers s 18 (.evaluating (.again version deadline)) :=
  evaluating nofun fun _ => readingInterception (relocking hdue h)

theorem checkingDeadline : EndsWithin env parsers s 15 .checkingDeadline := by
  by_cases hreached : s.deadline ≤ s.now
  · refine (wait ?_ (returned (Or.inr (Or.inr ⟨rfl, hreached⟩)))).mono (by decide)
    exact congrArg some (if_pos hreached)
  · refine wait ?_ (head hdue)
    exact congrArg some (if_neg hreached)

/-- The four continuations of an error check. -/
theorem afterErrorCheck {check : IdleErrorCheck} (hleaving : check = .leaving → s.phase.Leaving)
    (h : ∀ version deadline, check = .second version deadline → s.capture.version = version → deadline ≤ s.now) :
    EndsWithin env parsers s 15 (IdleState.afterErrorCheck check) := by
  cases check with
  | first => exact (fresh hdue).mono (by decide)
  | second version deadline => exact relocking hdue (h version deadline rfl)
  | final => exact checkingDeadline hdue
  | leaving => exact (returned (Or.inl ⟨rfl, Or.inr (hleaving rfl)⟩)).mono (by decide)

end EndsWithin

end Ending

/-- In every state that a capture can reach inside `WaitForIdle`, once the page is idle and no event is still to be
noted, or once the deadline is reached, the wait ends by its own next steps, without time to pass or another event: with
success if the page is idle (or had been found so), an error recorded, or the timeout at the deadline. -/
theorem idle_wait_ends (env : CaptureEnv) (parsers : EventParsers) {start t : IdleState} {as : List IdleAction}
    (hstart : start.phase = .outside) (hrun : Run (idleStep env parsers) always start as t)
    (hwaiting : t.phase.isFree = false)
    (hdue : (t.isIdle = true ∧ t.capture.loop.isPending = false) ∨ t.deadline ≤ t.now) :
    ∃ outcome later, t.Accounts outcome ∧ later.length ≤ 19 ∧ (∀ a ∈ later, a = .wait ∨ a = .timeOut) ∧
      Run (idleStep env parsers) always t later { t with phase := .returned outcome } := by
  have hstarted : start.WakeInv := by
    constructor
    · intro version hversion
      rw [hstart] at hversion
      cases hversion
    · intro version deadline hticket
      rw [hstart] at hticket
      cases hticket
  have hwake := wake_run hrun hstarted
  have htimely : EndsWithin.Due t := hdue.imp And.left id
  have hticket : ∀ version deadline, t.phase.ticket = some (version, deadline) → t.capture.version = version →
      deadline ≤ t.now := by
    intro version deadline hphase hversion
    have hinv := hwake.ticket version deadline hphase
    rcases hdue with ⟨_, hquiet⟩ | hreached
    · rcases hinv.current hversion.symm with hpending | rfl
      · rw [hquiet] at hpending
        cases hpending
      · exact htimely.deadline_le
    · exact hinv.deadline_le.trans hreached
  have hends : EndsWithin env parsers t 19 t.phase := by
    cases hphase : t.phase with
    | outside =>
      rw [hphase] at hwaiting
      cases hwaiting
    | returned outcome =>
      rw [hphase] at hwaiting
      cases hwaiting
    | evaluating check =>
      cases check with
      | head => exact (EndsWithin.head htimely).mono (by decide)
      | again version deadline => exact (EndsWithin.again htimely (hticket version deadline (by rw [hphase]; rfl))).mono (by decide)
      | final => exact (EndsWithin.final htimely).mono (by decide)
    | readingInterception check =>
      apply (EndsWithin.readingInterception (EndsWithin.afterErrorCheck htimely _ _)).mono (by decide)
      · rintro rfl
        exact Or.inl hphase
      · rintro version deadline rfl
        exact hticket version deadline (by rw [hphase]; rfl)
    | readingTracker check =>
      apply (EndsWithin.readingTracker (EndsWithin.afterErrorCheck htimely _ _)).mono (by decide)
      · rintro rfl
        exact Or.inr (Or.inl hphase)
      · rintro version deadline rfl
        exact hticket version deadline (by rw [hphase]; rfl)
    | readingVersion => exact (EndsWithin.fresh htimely).mono (by decide)
    | readingDeadline version =>
      exact (EndsWithin.wait rfl (EndsWithin.again htimely fun _ => htimely.deadline_le)).mono (le_refl 19)
    | relocking version deadline =>
      exact (EndsWithin.relocking htimely (hticket version deadline (by rw [hphase]; rfl))).mono (by decide)
    | waiting version deadline =>
      exact (EndsWithin.waiting htimely (hticket version deadline (by rw [hphase]; rfl))).mono (by decide)
    | checkingDeadline => exact (EndsWithin.checkingDeadline htimely).mono (by decide)
  obtain ⟨outcome, later, haccounts, hlength, howns, hlater⟩ := hends
  exact ⟨outcome, later, haccounts, hlength, howns, hlater⟩

theorem idle_wait_ends_seed : ∃ as t outcome later, Run (idleStep seedEnv seedParsers) always idleStart as t ∧
    t.Accounts outcome ∧ Run (idleStep seedEnv seedParsers) always t later { t with phase := .returned outcome } := by
  have hexec : (execute (idleStep seedEnv seedParsers) idleStart (.waitForIdle 2 :: idleActions ++ [.tick 2])).any
      (fun t => t.isIdle && (!t.capture.loop.isPending && !t.phase.isFree)) = true := by decide +kernel
  obtain ⟨t, hrun, htest⟩ := Run.exists_of_execute _ hexec
  simp only [Bool.and_eq_true, Bool.not_eq_true'] at htest
  obtain ⟨outcome, later, haccounts, _, _, hlater⟩ :=
    idle_wait_ends seedEnv seedParsers rfl hrun htest.2.2 (Or.inl ⟨htest.1, htest.2.1⟩)
  exact ⟨_, t, outcome, later, hrun, haccounts, hlater⟩

end Webshot.Crawler
