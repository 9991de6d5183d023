import Mathlib.Data.List.Basic
import Mathlib.Order.Nat
import Webshot.Foundation.TransitionRuns

/-! The credentials for S3: the constructor that publishes the first ones, and the task that refreshes them. -/
namespace Webshot.Storage
open Foundation.TransitionRuns

/-- Credentials and client are known by the number of the fetch they come from. -/
structure S3ClientState where
  serial : Nat
  expiresAt : Int
  deriving DecidableEq

/-- What `s3_state` holds until something is assigned: its time is the epoch. -/
def S3ClientState.unset : S3ClientState := ⟨0, 0⟩

/-- Nanoseconds, the unit of points in time. -/
def nanosPerSecond : Int := 1000000000

/-- `ComputeRefreshDelay`; margin and result are in seconds. -/
def computeRefreshDelay (now expiresAt margin : Int) : Int :=
  let delay := expiresAt - now - margin * nanosPerSecond
  if delay < 0 then 0 else delay.tdiv nanosPerSecond

/-- Where the constructor of `Crud::Impl` is. -/
inductive ConstructorPhase where
  | fetching
  | starting (initial : S3ClientState)
  | assigning (initial : S3ClientState)
  | finished
  | aborted
  deriving DecidableEq

/-- Where `RefreshS3CredentialsTask` is; it waits while it is not being run. -/
inductive RefreshPhase where
  | notStarted
  | waiting (wakeAt : Int)
  | fetching
  | assigning (fetched : S3ClientState)
  | rescheduling (fetched : S3ClientState)
  | retrying (wakeAt : Int)
  | cancelled
  deriving DecidableEq

/-- `fetched` keeps the states of the successful fetches in their order, and `firstDelay` when the first delay was
computed and what it is. -/
structure CredentialSystem where
  now : Int
  s3State : S3ClientState := .unset
  constructing : ConstructorPhase := .fetching
  refresh : RefreshPhase := .notStarted
  fetched : List S3ClientState := []
  firstDelay : Option (Int × Int) := none
  deriving DecidableEq

/-- A fetch yields an expiry or fails. -/
inductive CredentialAction where
  | tick (elapsed : Nat)
  | fetchInitial (expiresAt : Option Int)
  | startS3RefreshTask
  | assignInitial
  | wake
  | fetch (expiresAt : Option Int)
  | assign
  | setSettings
  | retry
  | cancel
  deriving DecidableEq

namespace CredentialSystem

/-- The state the next fetch brings. -/
def next (s : CredentialSystem) (expiresAt : Int) : S3ClientState := ⟨s.fetched.length + 1, expiresAt⟩

/-- What the task has fetched and not yet assigned. -/
def inHand (s : CredentialSystem) : List S3ClientState :=
  match s.refresh with
  | .assigning fetched => [fetched]
  | _ => []

/-- One step of the constructor, the task or the clock, for a margin and a pause between failed fetches in seconds. -/
def step (margin retryDelay : Int) (s : CredentialSystem) : CredentialAction → Option CredentialSystem
  | .tick elapsed => some { s with now := s.now + elapsed }
  | .fetchInitial expiresAt =>
    if s.constructing = .fetching then
      match expiresAt with
      | none => some { s with constructing := .aborted }
      | some expiresAt =>
        some { s with constructing := .starting (s.next expiresAt), fetched := s.fetched ++ [s.next expiresAt] }
    else none
  | .startS3RefreshTask =>
    match s.constructing with
    | .starting initial =>
      let delay := computeRefreshDelay s.now s.s3State.expiresAt margin
      some { s with
        constructing := .assigning initial
        refresh := .waiting (s.now + delay * nanosPerSecond)
        firstDelay := some (s.now, delay) }
    | _ => none
  | .assignInitial =>
    match s.constructing with
    | .assigning initial => some { s with s3State := initial, constructing := .finished }
    | _ => none
  | .wake =>
    match s.refresh with
    | .waiting wakeAt => if wakeAt ≤ s.now then some { s with refresh := .fetching } else none
    | _ => none
  | .fetch expiresAt =>
    if s.refresh = .fetching then
      match expiresAt with
      | none => some { s with refresh := .retrying (s.now + retryDelay * nanosPerSecond) }
      | some expiresAt =>
        some { s with refresh := .assigning (s.next expiresAt), fetched := s.fetched ++ [s.next expiresAt] }
    else none
  | .assign =>
    match s.refresh with
    | .assigning fetched => some { s with s3State := fetched, refresh := .rescheduling fetched }
    | _ => none
  | .setSettings =>
    match s.refresh with
    | .rescheduling fetched =>
      let nextDelay := computeRefreshDelay s.now fetched.expiresAt margin
      some { s with refresh := .waiting (s.now + nextDelay * nanosPerSecond) }
    | _ => none
  | .retry =>
    match s.refresh with
    | .retrying wakeAt => if wakeAt ≤ s.now then some { s with refresh := .fetching } else none
    | _ => none
  | .cancel => if s.refresh = .fetching then some { s with refresh := .cancelled } else none

/-- What a step can do. -/
inductive Move (margin : Int) (s : CredentialSystem) : CredentialAction → CredentialSystem → Prop where
  | ticked {elapsed : Nat} : Move margin s (.tick elapsed) { s with now := s.now + elapsed }
  | initialFailed (phase : s.constructing = .fetching) :
      Move margin s (.fetchInitial none) { s with constructing := .aborted }
  | initialFetched {expiresAt : Int} (phase : s.constructing = .fetching) :
      Move margin s (.fetchInitial (some expiresAt)) { s with
        constructing := .starting (s.next expiresAt)
        fetched := s.fetched ++ [s.next expiresAt] }
  | started {initial : S3ClientState} {wakeAt : Int} (phase : s.constructing = .starting initial) :
      Move margin s .startS3RefreshTask { s with
        constructing := .assigning initial
        refresh := .waiting wakeAt
        firstDelay := some (s.now, computeRefreshDelay s.now s.s3State.expiresAt margin) }
  | initialAssigned {initial : S3ClientState} (phase : s.constructing = .assigning initial) :
      Move margin s .assignInitial { s with s3State := initial, constructing := .finished }
  | fetched {expiresAt : Int} (phase : s.refresh = .fetching) :
      Move margin s (.fetch (some expiresAt)) { s with
        refresh := .assigning (s.next expiresAt)
        fetched := s.fetched ++ [s.next expiresAt] }
  | assigned {fetched : S3ClientState} (phase : s.refresh = .assigning fetched) :
      Move margin s .assign { s with s3State := fetched, refresh := .rescheduling fetched }
  | moved {action : CredentialAction} {refresh : RefreshPhase} (running : s.refresh ≠ .notStarted)
      (handsFree : s.inHand = []) (stays : ∀ fetched, refresh ≠ .assigning fetched) :
      Move margin s action { s with refresh := refresh }

theorem move_of_step {margin retryDelay : Int} {s t : CredentialSystem} {action : CredentialAction}
    (h : step margin retryDelay s action = some t) : Move margin s action t := by
  cases action with
  | tick elapsed =>
    cases h
    exact .ticked
  | fetchInitial expiresAt =>
    simp only [step] at h
    split at h
    · rename_i phase
      cases expiresAt with
      | none =>
        cases h
        exact .initialFailed phase
      | some expiresAt =>
        cases h
        exact .initialFetched phase
    · cases h
  | startS3RefreshTask =>
    simp only [step] at h
    split at h
    · rename_i initial phase
      cases h
      exact .started phase
    · cases h
  | assignInitial =>
    simp only [step] at h
    split at h
    · rename_i initial phase
      cases h
      exact .initialAssigned phase
    · cases h
  | wake =>
    simp only [step] at h
    split at h
    · rename_i wakeAt phase
      split at h
      · cases h
        exact .moved (by rw [phase]; nofun) (by rw [inHand, phase]) nofun
      · cases h
    · cases h
  | fetch expiresAt =>
    simp only [step] at h
    split at h
    · rename_i phase
      cases expiresAt with
      | none =>
        cases h
        exact .moved (by rw [phase]; nofun) (by rw [inHand, phase]) nofun
      | some expiresAt =>
        cases h
        exact .fetched phase
    · cases h
  | assign =>
    simp only [step] at h
    split at h
    · rename_i fetched phase
      cases h
      exact .assigned phase
    · cases h
  | setSettings =>
    simp only [step] at h
    split at h
    · rename_i fetched phase
      cases h
      exact .moved (by rw [phase]; nofun) (by rw [inHand, phase]) nofun
    · cases h
  | retry =>
    simp only [step] at h
    split at h
    · rename_i wakeAt phase
      split at h
      · cases h
        exact .moved (by rw [phase]; nofun) (by rw [inHand, phase]) nofun
      · cases h
    · cases h
  | cancel =>
    simp only [step] at h
    split at h
    · rename_i phase
      cases h
      exact .moved (by rw [phase]; nofun) (by rw [inHand, phase]) nofun
    · cases h

/-- What is published at each point of the constructor. -/
def Published (s : CredentialSystem) : Prop :=
  match s.constructing with
  | .fetching => s.refresh = .notStarted ∧ s.s3State = .unset ∧ s.fetched = []
  | .starting initial => s.refresh = .notStarted ∧ s.s3State = .unset ∧ s.fetched = [initial]
  | .assigning initial => s.s3State = .unset ∧ s.fetched = initial :: s.inHand
  | .finished => ∃ earlier, s.fetched = earlier ++ s.s3State :: s.inHand
  | .aborted => s.refresh = .notStarted

structure Inv (margin : Int) (s : CredentialSystem) : Prop where
  clock : 0 ≤ s.now
  ordered : s.fetched.Pairwise fun a b => a.serial < b.serial
  numbered : ∀ state ∈ s.fetched, state.serial ≤ s.fetched.length
  firstDelay : ∀ since delay, s.firstDelay = some (since, delay) →
    0 ≤ since ∧ delay = computeRefreshDelay since S3ClientState.unset.expiresAt margin
  published : s.Published

/-- The refresh task assigns nothing before the constructor has. -/
def ConstructorFirst (s : CredentialSystem) (action : CredentialAction) : Prop :=
  action = .assign → s.constructing = .finished

instance (s : CredentialSystem) (action : CredentialAction) : Decidable (s.ConstructorFirst action) :=
  inferInstanceAs (Decidable (action = .assign → s.constructing = .finished))

variable {margin retryDelay : Int} {s t : CredentialSystem} {action : CredentialAction}

theorem Inv.initial {now : Int} (h : 0 ≤ now) : Inv margin { now } where
  clock := h
  ordered := .nil
  numbered := nofun
  firstDelay := nofun
  published := ⟨rfl, rfl, rfl⟩

/-- Another fetch keeps the numbers in order. -/
private theorem Inv.fetch (h : Inv margin s) (expiresAt : Int) :
    (s.fetched ++ [s.next expiresAt]).Pairwise (fun a b => a.serial < b.serial) ∧
      ∀ state ∈ s.fetched ++ [s.next expiresAt], state.serial ≤ (s.fetched ++ [s.next expiresAt]).length := by
  rw [List.length_append, List.length_singleton]
  refine ⟨List.pairwise_append.mpr ⟨h.ordered, List.pairwise_singleton _ _, ?_⟩, ?_⟩
  · intro state hstate new hnew
    rw [List.mem_singleton.mp hnew]
    exact Nat.lt_succ_of_le (h.numbered state hstate)
  · intro state hstate
    rcases List.mem_append.mp hstate with hstate | hstate
    · exact Nat.le_succ_of_le (h.numbered state hstate)
    · rw [List.mem_singleton.mp hstate]
      exact le_rfl

/-- Once it runs, the task changes what is published only by its assignments. -/
private theorem Published.refresh (h : s.Published) (running : s.refresh ≠ .notStarted) {refresh : RefreshPhase}
    {extra : List S3ClientState} (hands : ({ s with refresh := refresh } : CredentialSystem).inHand = s.inHand ++ extra) :
    ({ s with refresh := refresh, fetched := s.fetched ++ extra } : CredentialSystem).Published := by
  unfold Published at h ⊢
  cases hphase : s.constructing with
  | fetching =>
    rw [hphase] at h
    exact absurd h.1 running
  | starting initial =>
    rw [hphase] at h
    exact absurd h.1 running
  | assigning initial =>
    rw [hphase] at h
    obtain ⟨hunset, hfetched⟩ := h
    refine ⟨hunset, ?_⟩
    change s.fetched ++ extra = initial :: ({ s with refresh := refresh } : CredentialSystem).inHand
    rw [hands, hfetched, List.cons_append]
  | finished =>
    rw [hphase] at h
    obtain ⟨earlier, hfetched⟩ := h
    refine ⟨earlier, ?_⟩
    change s.fetched ++ extra = earlier ++ s.s3State :: ({ s with refresh := refresh } : CredentialSystem).inHand
    rw [hands, hfetched, List.append_assoc, List.cons_append]
  | aborted =>
    rw [hphase] at h
    exact absurd h running

theorem Inv.step (h : Inv margin s) (hok : s.ConstructorFirst action)
    (hstep : s.step margin retryDelay action = some t) : Inv margin t := by
  have hpublished := h.published
  cases move_of_step hstep with
  | @ticked elapsed =>
    exact ⟨Int.add_nonneg h.clock (Int.natCast_nonneg elapsed), h.ordered, h.numbered, h.firstDelay, hpublished⟩
  | initialFailed phase =>
    rw [Published, phase] at hpublished
    exact ⟨h.clock, h.ordered, h.numbered, h.firstDelay, hpublished.1⟩
  | @initialFetched expiresAt phase =>
    rw [Published, phase] at hpublished
    obtain ⟨hrefresh, hunset, hnone⟩ := hpublished
    obtain ⟨hordered, hnumbered⟩ := h.fetch expiresAt
    refine ⟨h.clock, hordered, hnumbered, h.firstDelay, hrefresh, hunset, ?_⟩
    rw [hnone, List.nil_append]
  | @started initial wakeAt phase =>
    rw [Published, phase] at hpublished
    obtain ⟨_, hunset, hfetched⟩ := hpublished
    refine ⟨h.clock, h.ordered, h.numbered, ?_, hunset, hfetched⟩
    intro since delay hdelay
    cases hdelay
    exact ⟨h.clock, by rw [hunset]⟩
  | @initialAssigned initial phase =>
    rw [Published, phase] at hpublished
    exact ⟨h.clock, h.ordered, h.numbered, h.firstDelay, [], hpublished.2⟩
  | @fetched expiresAt phase =>
    obtain ⟨hordered, hnumbered⟩ := h.fetch expiresAt
    have hrunning : s.refresh ≠ .notStarted := by rw [phase]; nofun
    have hfree : s.inHand = [] := by rw [inHand, phase]
    refine ⟨h.clock, hordered, hnumbered, h.firstDelay, hpublished.refresh hrunning ?_⟩
    rw [hfree]
    rfl
  | @assigned fetched phase =>
    have hfinished := hok rfl
    have hhand : s.inHand = [fetched] := by rw [inHand, phase]
    rw [Published, hfinished, hhand] at hpublished
    obtain ⟨earlier, hfetched⟩ := hpublished
    refine ⟨h.clock, h.ordered, h.numbered, h.firstDelay, ?_⟩
    rw [Published, hfinished]
    exact ⟨earlier ++ [s.s3State], by rw [hfetched, List.append_assoc]; rfl⟩
  | @moved _ refresh running handsFree stays =>
    have hfree : ({ s with refresh := refresh } : CredentialSystem).inHand = s.inHand ++ [] := by
      rw [handsFree]
      cases refresh with
      | assigning fetched => exact absurd rfl (stays fetched)
      | _ => rfl
    have hmoved := hpublished.refresh running hfree
    rw [List.append_nil] at hmoved
    exact ⟨h.clock, h.ordered, h.numbered, h.firstDelay, hmoved⟩

/-- The first delay comes out of an expiry that was never set, so it is zero. -/
theorem computeRefreshDelay_unset (hmargin : 0 < margin) {now : Int} (hnow : 0 ≤ now) :
    computeRefreshDelay now S3ClientState.unset.expiresAt margin = 0 := by
  have hpast : S3ClientState.unset.expiresAt - now - margin * nanosPerSecond < 0 := by
    unfold nanosPerSecond
    have hunset : S3ClientState.unset.expiresAt = 0 := rfl
    omega
  rw [computeRefreshDelay, if_pos hpast]

theorem computeRefreshDelay_eq_zero_iff {now expiresAt : Int} :
    computeRefreshDelay now expiresAt margin = 0 ↔ expiresAt < now + (margin + 1) * nanosPerSecond := by
  have hnanos : nanosPerSecond = 1000000000 := rfl
  simp only [computeRefreshDelay]
  by_cases hpast : expiresAt - now - margin * nanosPerSecond < 0
  · rw [if_pos hpast]
    rw [hnanos] at hpast ⊢
    exact iff_of_true rfl (by omega)
  · rw [if_neg hpast, Int.tdiv_eq_ediv_of_nonneg (Int.not_lt.mp hpast)]
    rw [hnanos] at hpast ⊢
    omega

/-- No assignment replaces a state by one that was fetched earlier. -/
theorem Inv.serial_le (h : Inv margin s) (hok : s.ConstructorFirst action)
    (hstep : s.step margin retryDelay action = some t) : s.s3State.serial ≤ t.s3State.serial := by
  have hpublished := h.published
  cases move_of_step hstep with
  | initialAssigned phase =>
    rw [Published, phase] at hpublished
    rw [hpublished.1]
    exact Nat.zero_le _
  | @assigned fetched phase =>
    have hhand : s.inHand = [fetched] := by rw [inHand, phase]
    rw [Published, hok rfl, hhand] at hpublished
    obtain ⟨earlier, hfetched⟩ := hpublished
    have hordered := h.ordered
    rw [hfetched, List.pairwise_append] at hordered
    exact ((List.pairwise_cons.mp hordered.2.1).1 fetched (List.mem_singleton_self fetched)).le
  | ticked => exact le_rfl
  | initialFailed _ => exact le_rfl
  | initialFetched _ => exact le_rfl
  | started _ => exact le_rfl
  | fetched _ => exact le_rfl
  | moved _ _ _ => exact le_rfl

/-- In every run in which the refresh task assigns nothing before the constructor has, the published state is the last
fetched one that the task does not still have to assign, and no step replaces it by an earlier one. The first delay is
that of the fetched state exactly if this expires before margin and one second are over. -/
theorem credentials_follow_fetches {margin retryDelay now : Int} (hmargin : 0 < margin) (hnow : 0 ≤ now)
    {actions : List CredentialAction} {s : CredentialSystem}
    (h : Run (CredentialSystem.step margin retryDelay) ConstructorFirst { now } actions s) :
    (s.constructing = .finished → ∃ earlier, s.fetched = earlier ++ s.s3State :: s.inHand) ∧
    (s.fetched.Pairwise fun a b => a.serial < b.serial) ∧
    (∀ action t, s.ConstructorFirst action → s.step margin retryDelay action = some t →
      s.s3State.serial ≤ t.s3State.serial) ∧
    (∀ since delay initial, s.firstDelay = some (since, delay) → s.fetched.head? = some initial →
      (delay = computeRefreshDelay since initial.expiresAt margin ↔
        initial.expiresAt < since + (margin + 1) * nanosPerSecond)) := by
  have hinv : Inv margin s := by
    refine h.invariant (Inv margin) (.initial hnow) ?_
    intro s action t hok hstep hs
    exact hs.step hok hstep
  refine ⟨?_, hinv.ordered, fun action t hok hstep => hinv.serial_le hok hstep, ?_⟩
  · intro hfinished
    have hpublished := hinv.published
    rw [Published, hfinished] at hpublished
    exact hpublished
  · intro since delay initial hdelay _
    obtain ⟨hsince, rfl⟩ := hinv.firstDelay since delay hdelay
    rw [computeRefreshDelay_unset hmargin hsince, eq_comm]
    exact computeRefreshDelay_eq_zero_iff

theorem credentials_follow_one_refresh :
    ∃ s, Run (step 120 10) ConstructorFirst { now := 0 }
        [.fetchInitial (some 3600000000000), .startS3RefreshTask, .assignInitial, .wake, .fetch (some 7200000000000),
          .assign] s ∧
      s.s3State.serial = 2 ∧ ∃ earlier, s.fetched = earlier ++ s.s3State :: s.inHand := by
  have hexec : (execute (fun s action => if decide (ConstructorFirst s action) then step 120 10 s action else none)
      { now := 0 } [.fetchInitial (some 3600000000000), .startS3RefreshTask, .assignInitial, .wake,
        .fetch (some 7200000000000), .assign]).any
      (fun s => s.constructing = .finished && s.s3State.serial = 2) = true := by
    rfl
  obtain ⟨s, hrun, htest⟩ := Run.exists_of_execute _ hexec
  obtain ⟨hfinished, hserial⟩ := Bool.and_eq_true_iff.mp htest
  have hrun' := Run.of_checked (fun _ _ h => of_decide_eq_true h) hrun
  have hfollows := credentials_follow_fetches (by decide) (by decide) hrun'
  exact ⟨s, hrun', of_decide_eq_true hserial, hfollows.1 (of_decide_eq_true hfinished)⟩

/-- The task fetches and assigns before the constructor assigns: the older state stays published. The first delay was
zero seconds, where the fetched state gives 3480. -/
theorem older_credentials_published :
    ∃ s, Run (step 120 10) always { now := 0 }
        [.fetchInitial (some 3600000000000), .startS3RefreshTask, .wake, .fetch (some 7200000000000), .assign,
          .setSettings, .assignInitial] s ∧
      s.constructing = .finished ∧ s.fetched = [⟨1, 3600000000000⟩, ⟨2, 7200000000000⟩] ∧ s.inHand = [] ∧
      s.s3State = ⟨1, 3600000000000⟩ ∧ s.firstDelay = some (0, 0) ∧ computeRefreshDelay 0 3600000000000 120 = 3480 := by
  have hexec : (execute (step 120 10) { now := 0 }
      [.fetchInitial (some 3600000000000), .startS3RefreshTask, .wake, .fetch (some 7200000000000), .assign,
        .setSettings, .assignInitial]).any (fun s => decide (s.constructing = .finished ∧
          s.fetched = [⟨1, 3600000000000⟩, ⟨2, 7200000000000⟩] ∧ s.inHand = [] ∧ s.s3State = ⟨1, 3600000000000⟩ ∧
          s.firstDelay = some (0, 0))) = true := by
    rfl
  obtain ⟨s, hrun, htest⟩ := Run.exists_of_execute _ hexec
  obtain ⟨hfinished, hfetched, hhand, hstate, hdelay⟩ := of_decide_eq_true htest
  exact ⟨s, hrun, hfinished, hfetched, hhand, hstate, hdelay, by decide⟩

end CredentialSystem
end Webshot.Storage
