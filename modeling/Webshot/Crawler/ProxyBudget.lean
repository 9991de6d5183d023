import Webshot.Crawler.EgressProxy
import Webshot.Foundation.Reservations
import Mathlib.Data.Fintype.Basic

/-! The byte budget of the egress proxy in every interleaving of the sends: what the counter says, and what of the
bytes it took back had reached the browser all the same. -/
namespace Webshot.Crawler
open Text Foundation.Reservations Foundation.TransitionRuns

namespace SendPhase

/-- What a call has on the counter and may still take back. -/
def held : SendPhase → Int
  | sending claim => claim
  | refunding unused _ => unused
  | _ => 0

/-- Claims and refunds are positive and at most the maximum. -/
def Fits (downBytesMax : Int) : SendPhase → Prop
  | claiming claim | sending claim => 0 < claim ∧ claim ≤ downBytesMax
  | refunding unused _ => 0 < unused ∧ unused ≤ downBytesMax
  | _ => True

def IsOver (phase : SendPhase) : Prop := phase = idle ∨ ∃ sent, phase = returned sent

instance : DecidablePred IsOver
  | idle => isTrue (.inl rfl)
  | returned sent => isTrue (.inr ⟨sent, rfl⟩)
  | claiming _ | refused _ | stopping | sending _ | refunding _ _ => isFalse fun h => by
    rcases h with h | ⟨_, h⟩
    · cases h
    · cases h

theorem Fits.held_nonneg {downBytesMax : Int} {phase : SendPhase} (h : phase.Fits downBytesMax) : 0 ≤ phase.held := by
  cases phase with
  | sending claim => exact h.1.le
  | refunding unused sent => exact h.1.le
  | _ => exact le_rfl

theorem IsOver.held_eq {phase : SendPhase} (h : phase.IsOver) : phase.held = 0 := by
  rcases h with rfl | ⟨sent, rfl⟩
  · rfl
  · rfl

end SendPhase

section Budget
variable {τ : Type} {una : UniAlgo}

/-- No `SendBudgeted` call is under way. -/
def EgressProxy.Quiescent (s : EgressProxy τ una) : Prop := ∀ t, (s.sends t).IsOver

instance [Fintype τ] (s : EgressProxy τ una) : Decidable s.Quiescent :=
  inferInstanceAs (Decidable (∀ t, (s.sends t).IsOver))

/-- The bytes `SendAll` had transmitted when it threw. -/
def lostBytes : List (ProxyAction τ una) → Int
  | [] => 0
  | .sendAllThrows _ transmitted :: rest => transmitted + lostBytes rest
  | _ :: rest => lostBytes rest

theorem lostBytes_cons (a : ProxyAction τ una) (rest : List (ProxyAction τ una)) :
    lostBytes (a :: rest) = lostBytes [a] + lostBytes rest := by
  cases a <;> simp [lostBytes]

theorem lostBytes_nonneg (actions : List (ProxyAction τ una)) : 0 ≤ lostBytes actions := by
  induction actions with
  | nil => exact le_rfl
  | cons a rest ih =>
    cases a with
    | sendAllThrows task transmitted => exact add_nonneg (Int.natCast_nonneg transmitted) ih
    | _ => exact ih

/-- The expressions over the counter that an action evaluates. -/
def counterExpressions (downBytesMax : Int) (s : EgressProxy τ una) : ProxyAction τ una → List Int
  | .sendBudgeted _ size => [min (size : Int) downBytesMax]
  | .claim task =>
    match s.sends task with
    | .claiming claim =>
      (downBytesMax - claim) :: if s.downBytes > downBytesMax - claim then [] else [s.downBytes + claim]
    | _ => []
  | .sendAllReturns task sent =>
    match s.sends task with
    | .sending claim => [claim - sent]
    | _ => []
  | .refund task =>
    match s.sends task with
    | .refunding unused _ => [s.downBytes - unused]
    | _ => []
  | _ => []

/-- The value is one of `int64_t`. -/
def Fits64 (n : Int) : Prop := -2 ^ 63 ≤ n ∧ n < 2 ^ 63

/-- The counter is what was sent plus what the calls under way hold; what was sent and then refunded is `lost`. -/
structure BudgetInv (downBytesMax lost : Int) (s : EgressProxy τ una) : Prop where
  fits : ∀ t, (s.sends t).Fits downBytesMax
  accounts : Holds (SendPhase.held ∘ s.sends) (s.downBytes + lost - s.delivered)
  lost_le : lost ≤ s.delivered
  le_max : s.downBytes ≤ downBytesMax

namespace BudgetInv
variable {downBytesMax lost : Int} {s : EgressProxy τ una}

theorem initial (hmax : 0 ≤ downBytesMax) : BudgetInv downBytesMax 0 ({} : EgressProxy τ una) :=
  ⟨fun _ => trivial, Holds.zero, le_rfl, hmax⟩

theorem held_nonneg (h : BudgetInv downBytesMax lost s) (t : τ) : 0 ≤ (SendPhase.held ∘ s.sends) t :=
  (h.fits t).held_nonneg

/-- A call holds no more than the counter says. -/
theorem held_le (h : BudgetInv downBytesMax lost s) (t : τ) : (s.sends t).held ≤ s.downBytes := by
  have hle : (s.sends t).held ≤ s.downBytes + lost - s.delivered := h.accounts.le h.held_nonneg t
  have hlost := h.lost_le
  omega

theorem downBytes_nonneg (h : BudgetInv downBytesMax lost s) : 0 ≤ s.downBytes := by
  have hnonneg := h.accounts.nonneg h.held_nonneg
  have hlost := h.lost_le
  omega

/-- With no call under way, what reached the browser is what the counter says and what was refunded wrongly. -/
theorem settled (h : BudgetInv downBytesMax lost s) (hquiet : s.Quiescent) : s.delivered = s.downBytes + lost := by
  have hzero := h.accounts.eq_zero fun t => (hquiet t).held_eq
  omega

end BudgetInv
end Budget

section Runs
variable {τ : Type} [DecidableEq τ] {env : CaptureEnv} {downBytesMax lost : Int} {s t : EgressProxy τ env.una}

namespace BudgetInv

/-- One call moves on, and the counters with it. -/
private theorem move {lost' : Int} {task : τ} {phase : SendPhase} (h : BudgetInv downBytesMax lost s)
    (hsends : t.sends = Function.update s.sends task phase) (hfits : phase.Fits downBytesMax)
    (hcounters : t.downBytes + lost' - t.delivered =
      s.downBytes + lost - s.delivered - (s.sends task).held + phase.held)
    (hlost : lost' ≤ t.delivered) (hmax : t.downBytes ≤ downBytesMax) : BudgetInv downBytesMax lost' t := by
  refine ⟨?_, ?_, hlost, hmax⟩
  · intro u
    rw [hsends]
    by_cases hu : u = task
    · rw [hu, Function.update_self]
      exact hfits
    · rw [Function.update_of_ne hu]
      exact h.fits u
  · rw [hsends, Function.comp_update, hcounters]
    exact h.accounts.update task phase.held

/-- A step that touches neither the counters nor the claims. -/
private theorem idle {task : τ} {phase : SendPhase} (h : BudgetInv downBytesMax lost s)
    (hsends : t.sends = Function.update s.sends task phase) (hfits : phase.Fits downBytesMax)
    (hbefore : (s.sends task).held = 0) (hafter : phase.held = 0) (hdown : t.downBytes = s.downBytes)
    (hdelivered : t.delivered = s.delivered) : BudgetInv downBytesMax lost t := by
  refine h.move hsends hfits ?_ ?_ ?_
  · rw [hdown, hdelivered, hbefore, hafter]
    omega
  · rw [hdelivered]
    exact h.lost_le
  · rw [hdown]
    exact h.le_max

private theorem free_held {phase : SendPhase} (h : phase = .idle ∨ ∃ n, phase = .returned n) : phase.held = 0 :=
  SendPhase.IsOver.held_eq h

theorem step (h : BudgetInv downBytesMax lost s) {a : ProxyAction τ env.una}
    (hstep : proxyStep env downBytesMax s a = some t) : BudgetInv downBytesMax (lost + lostBytes [a]) t := by
  have hdone : ∀ a : ProxyAction τ env.una, lostBytes [a] = 0 → BudgetInv downBytesMax lost t →
      BudgetInv downBytesMax (lost + lostBytes [a]) t := by
    intro a ha ht
    rwa [ha, add_zero]
  have hle := h.le_max
  have hlost := h.lost_le
  cases proxyStep_spec hstep with
  | nothingToSend free nothing => exact hdone _ rfl (h.idle rfl trivial (free_held free) rfl rfl rfl)
  | begun free running positive =>
    exact hdone _ rfl (h.idle rfl ⟨positive, min_le_right _ _⟩ (free_held free) rfl rfl rfl)
  | refused unlocked phase exceeded => exact hdone _ rfl (h.idle rfl trivial (by rw [phase]; rfl) rfl rfl rfl)
  | @claimed task claim unlocked phase room =>
    have hfits := h.fits task
    rw [phase] at hfits
    refine hdone _ rfl (h.move rfl hfits ?_ hlost ?_)
    · rw [phase]
      simp only [EgressProxy.setSend, SendPhase.held]
      omega
    · change s.downBytes + claim ≤ downBytesMax
      omega
  | refusalNoted phase noted =>
    obtain ⟨reason, _, rfl⟩ := Option.map_eq_some_iff.mp noted
    exact hdone _ rfl (h.idle rfl trivial (by rw [phase]; rfl) rfl rfl rfl)
  | stopped phase => exact hdone _ rfl (h.idle rfl trivial (by rw [phase]; rfl) rfl rfl rfl)
  | @sentSome task claim sent phase short =>
    have hfits := h.fits task
    rw [phase] at hfits
    refine hdone _ rfl (h.move rfl ⟨by omega, by have := hfits.2; omega⟩ ?_ ?_ hle)
    · rw [phase]
      simp only [EgressProxy.setSend, SendPhase.held]
      omega
    · change lost ≤ s.delivered + sent
      omega
  | @sentAll task sent phase =>
    refine hdone _ rfl (h.move rfl trivial ?_ ?_ hle)
    · rw [phase]
      simp only [EgressProxy.setSend, SendPhase.held]
      omega
    · change lost ≤ s.delivered + sent
      omega
  | @threw task claim transmitted phase part =>
    have hfits := h.fits task
    rw [phase] at hfits
    have hlast : lostBytes [(.sendAllThrows task transmitted : ProxyAction τ env.una)] = transmitted := add_zero _
    rw [hlast]
    refine h.move rfl hfits ?_ ?_ hle
    · rw [phase]
      simp only [EgressProxy.setSend, SendPhase.held]
      omega
    · change lost + transmitted ≤ s.delivered + transmitted
      omega
  | @refunded task unused sent unlocked phase =>
    have hfits := h.fits task
    rw [phase] at hfits
    have hpositive := hfits.1
    refine hdone _ rfl (h.move rfl trivial ?_ hlost ?_)
    · rw [phase]
      simp only [EgressProxy.setSend, SendPhase.held]
      omega
    · change s.downBytes - unused ≤ downBytesMax
      omega
  | otherNoted other noted =>
    obtain ⟨reason, _, rfl⟩ := Option.map_eq_some_iff.mp noted
    exact hdone _ rfl ⟨h.fits, h.accounts, hlost, hle⟩
  | allStopped => exact hdone _ rfl ⟨h.fits, h.accounts, hlost, hle⟩

theorem run {actions : List (ProxyAction τ env.una)} (h : BudgetInv downBytesMax lost s)
    (hrun : Run (proxyStep env downBytesMax) always s actions t) :
    BudgetInv downBytesMax (lost + lostBytes actions) t := by
  induction hrun generalizing lost with
  | nil s => rwa [lostBytes, add_zero]
  | @cons s t u a rest _ hstep _ ih =>
    rw [lostBytes_cons, ← add_assoc]
    exact ih (h.step hstep)

theorem no_overflow (h : BudgetInv downBytesMax lost s) (h64 : downBytesMax < 2 ^ 63) {a : ProxyAction τ env.una}
    (hstep : proxyStep env downBytesMax s a = some t) : ∀ n ∈ counterExpressions downBytesMax s a, Fits64 n := by
  have hle := h.le_max
  have hnonneg := h.downBytes_nonneg
  have hin : ∀ n : Int, 0 ≤ n → n ≤ downBytesMax → Fits64 n := fun n hn hmax => ⟨by omega, by omega⟩
  intro n hn
  cases proxyStep_spec hstep with
  | nothingToSend free nothing =>
    rw [counterExpressions, List.mem_singleton] at hn
    exact hin n (by omega) (by omega)
  | begun free running positive =>
    rw [counterExpressions, List.mem_singleton] at hn
    exact hin n (by omega) (by omega)
  | @refused task claim unlocked phase exceeded =>
    have hfits := h.fits task
    simp only [counterExpressions, phase] at hn hfits
    rw [if_pos exceeded, List.mem_singleton] at hn
    exact hin n (by rw [hn]; exact sub_nonneg.mpr hfits.2) (by rw [hn]; exact sub_le_self _ hfits.1.le)
  | @claimed task claim unlocked phase room =>
    have hfits := h.fits task
    simp only [counterExpressions, phase] at hn hfits
    obtain ⟨hpositive, hclaim⟩ := hfits
    rw [if_neg (not_lt.mpr room), List.mem_cons, List.mem_singleton] at hn
    rcases hn with rfl | rfl
    · exact hin _ (by omega) (by omega)
    · exact hin _ (by omega) (by omega)
  | @sentSome task claim sent phase short =>
    have hfits := h.fits task
    simp only [counterExpressions, phase] at hn hfits
    obtain ⟨hpositive, hclaim⟩ := hfits
    rw [List.mem_singleton] at hn
    exact hin n (by omega) (by omega)
  | @sentAll task sent phase =>
    simp only [counterExpressions, phase] at hn
    rw [List.mem_singleton] at hn
    exact hin n (by omega) (by omega)
  | @refunded task unused sent unlocked phase =>
    have hfits := h.fits task
    have hheld := h.held_le task
    simp only [counterExpressions, phase] at hn hfits
    rw [phase] at hheld
    obtain ⟨hpositive, hunused⟩ := hfits
    change unused ≤ s.downBytes at hheld
    rw [List.mem_singleton] at hn
    exact hin n (by omega) (by omega)
  | _ => exact absurd hn List.not_mem_nil

end BudgetInv

/-- A refused claim stops the proxy before it gives the counter free. -/
def StopsAfterRefusal (s : EgressProxy τ env.una) : Prop :=
  s.refusedClaim = true → s.stopped = true ∨ s.counterHolder.isSome

theorem StopsAfterRefusal.step {a : ProxyAction τ env.una} (h : StopsAfterRefusal s)
    (hstep : proxyStep env downBytesMax s a = some t) : StopsAfterRefusal t := by
  intro hrefused
  cases proxyStep_spec hstep with
  | refused unlocked phase exceeded => exact .inr rfl
  | refusalNoted phase noted =>
    obtain ⟨reason, _, rfl⟩ := Option.map_eq_some_iff.mp noted
    exact h hrefused
  | otherNoted other noted =>
    obtain ⟨reason, _, rfl⟩ := Option.map_eq_some_iff.mp noted
    exact h hrefused
  | stopped phase => exact .inl rfl
  | allStopped => exact .inl rfl
  | _ => exact h hrefused

/-- A stopped proxy sends nothing on a new call. -/
theorem silent_when_stopped {task : τ} {size : Nat} (hstopped : s.stopped = true)
    (hstep : proxyStep env downBytesMax s (.sendBudgeted task size) = some t) :
    t.sends task = .returned 0 ∧ t.delivered = s.delivered := by
  cases proxyStep_spec hstep with
  | nothingToSend free nothing => exact ⟨Function.update_self .., rfl⟩
  | begun free running positive =>
    rw [running] at hstopped
    cases hstopped

/-- In every run the counter keeps its bounds and no expression over it overflows. With no call under way the browser
has received no more than the counter says exactly if `SendAll` never threw after it had transmitted something. A call
that starts after a refused claim, and not before that claim has given the counter free, sends nothing. -/
theorem budget_kept_iff (hmax : 0 ≤ downBytesMax) (h64 : downBytesMax < 2 ^ 63)
    {actions : List (ProxyAction τ env.una)} (h : Run (proxyStep env downBytesMax) always {} actions s) :
    (0 ≤ s.downBytes ∧ s.downBytes ≤ downBytesMax) ∧
    (∀ a t, proxyStep env downBytesMax s a = some t → ∀ n ∈ counterExpressions downBytesMax s a, Fits64 n) ∧
    (s.Quiescent → (s.delivered ≤ s.downBytes ↔ lostBytes actions = 0)) ∧
    (s.refusedClaim = true → s.counterHolder = none → ∀ task size t,
      proxyStep env downBytesMax s (.sendBudgeted task size) = some t →
        t.sends task = .returned 0 ∧ t.delivered = s.delivered) := by
  have hinv := (BudgetInv.initial hmax).run h
  rw [zero_add] at hinv
  have hstops : StopsAfterRefusal s := by
    refine h.invariant StopsAfterRefusal nofun ?_
    intro s a t _ hstep hs
    exact hs.step hstep
  refine ⟨⟨hinv.downBytes_nonneg, hinv.le_max⟩, ?_, ?_, ?_⟩
  · intro a t hstep
    exact hinv.no_overflow h64 hstep
  · intro hquiet
    have hsettled := hinv.settled hquiet
    have hnonneg := lostBytes_nonneg actions
    constructor
    · intro hle
      omega
    · intro hzero
      omega
  · intro hrefused hfree task size t hstep
    have hstopped : s.stopped = true := by
      rcases hstops hrefused with hstopped | hholder
      · exact hstopped
      · rw [hfree] at hholder
        cases hholder
    exact silent_when_stopped hstopped hstep

/-- One task under a maximum of ten bytes. -/
abbrev tenByteStep : EgressProxy Unit asciiUna → ProxyAction Unit asciiUna → Option (EgressProxy Unit asciiUna) :=
  proxyStep ⟨asciiUna, fun _ => none⟩ 10

theorem budget_kept_once :
    ∃ s, Run tenByteStep always {} [.sendBudgeted () 10, .claim (), .sendAllReturns () 10] s ∧
      (0 ≤ s.downBytes ∧ s.downBytes ≤ 10) ∧ s.delivered ≤ s.downBytes := by
  have hexists : ∃ s, Run tenByteStep always {} [.sendBudgeted () 10, .claim (), .sendAllReturns () 10] s ∧
      decide s.Quiescent = true := Run.exists_of_execute _ (by decide)
  obtain ⟨s, hrun, hquiet⟩ := hexists
  obtain ⟨hbounds, _, hdelivered, _⟩ := budget_kept_iff (by decide) (by decide) hrun
  exact ⟨s, hrun, hbounds, (hdelivered (of_decide_eq_true hquiet)).mpr rfl⟩

/-- A chunk that was transmitted before `SendAll` threw is refunded and claimed again: twenty bytes are delivered. -/
theorem budget_exceeded :
    ∃ s, Run tenByteStep always {}
        [.sendBudgeted () 10, .claim (), .sendAllThrows () 10, .refund (),
          .sendBudgeted () 10, .claim (), .sendAllReturns () 10] s ∧
      s.Quiescent ∧ s.downBytes = 10 ∧ s.delivered = 20 := by
  have hexists : ∃ s, Run tenByteStep always {}
      [.sendBudgeted () 10, .claim (), .sendAllThrows () 10, .refund (),
        .sendBudgeted () 10, .claim (), .sendAllReturns () 10] s ∧
      decide (s.Quiescent ∧ s.downBytes = 10 ∧ s.delivered = 20) = true := Run.exists_of_execute _ (by decide)
  obtain ⟨s, hrun, hend⟩ := hexists
  exact ⟨s, hrun, of_decide_eq_true hend⟩

end Runs
end Webshot.Crawler
