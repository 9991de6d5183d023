import Webshot.Crawler.ProxyBudget
import Webshot.Crawler.ProxyRelay

/-! What the egress proxy sends to the browser: its own responses and what the upstreams say, through the budgeted
sends of any number of clients. -/
namespace Webshot.Crawler
open Text Foundation.TransitionRuns

def connectEstablishedResponse : Bytes := ascii "HTTP/1.1 200 Connection Established\r\n\r\n"

/-- Where the task of a client stands with what it sends to the browser. -/
inductive DownloadPhase where
  | answering (relays : Bool)
  | answered (relays : Bool)
  | looping
  | receiving
  | forwarding (pending : Bytes)
  | sending (pending : Bytes)
  | ended

/-- The download of one client. `response` is what the proxy says itself, `upstream` what was read from the upstream,
and `drained` that the upstream has closed its side. `received` and `lost` record what reached the browser, and how
many bytes of that a send transmitted before it threw. -/
structure Download where
  phase : DownloadPhase
  response : Bytes := []
  upstream : Bytes := []
  drained : Bool := false
  received : Bytes := []
  lost : Nat := 0

/-- What the handling of a client's request has come to: a response, `HandleConnect` or `HandleHttp` with an upstream. -/
inductive DownloadStart where
  | answer (response : Bytes)
  | connect
  | http

def DownloadStart.download : DownloadStart → Download
  | answer response => { phase := .answering false, response := response }
  | connect => { phase := .answering true, response := connectEstablishedResponse }
  | http => { phase := .looping }

namespace Download

/-- The bytes the call of `SendBudgeted` under way was given. -/
def passed (d : Download) : Bytes :=
  match d.phase with
  | .answered _ => d.response
  | .sending pending => pending
  | _ => []

def inCall (d : Download) : Bool :=
  match d.phase with
  | .answered _ | .sending _ => true
  | _ => false

/-- The first bytes of those passed reach the browser. -/
def deliver (d : Download) (transmitted lost : Nat) : Download :=
  { d with received := d.received ++ d.passed.take transmitted, lost := d.lost + lost }

end Download

/-- How many bytes of the task's call an action transmits. -/
def ProxyAction.transmitted {τ : Type} [DecidableEq τ] {una : UniAlgo} (task : τ) : ProxyAction τ una → Nat
  | .sendAllReturns sender n | .sendAllThrows sender n => if sender = task then n else 0
  | _ => 0

/-- How many of them `SendAll` had transmitted when it threw. -/
def ProxyAction.lost {τ : Type} [DecidableEq τ] {una : UniAlgo} (task : τ) : ProxyAction τ una → Nat
  | .sendAllThrows sender n => if sender = task then n else 0
  | _ => 0

def ProxyAction.isCall {τ : Type} {una : UniAlgo} : ProxyAction τ una → Bool
  | .sendBudgeted _ _ => true
  | _ => false

/-- The proxy and the downloads of its clients. -/
structure ProxyTraffic (τ : Type) (una : UniAlgo) where
  proxy : EgressProxy τ una := {}
  downloads : τ → Option Download := fun _ => none

inductive TrafficAction (τ : Type) (una : UniAlgo) where
  | start (task : τ) (how : DownloadStart)
  | send (task : τ)
  | inProxy (action : ProxyAction τ una)
  | resume (task : τ)
  | testStopped (task : τ)
  | recvSome (task : τ) (chunk : Bytes)
  | recvThrows (task : τ)

namespace ProxyTraffic
variable {τ : Type} [DecidableEq τ]

def setDownload {una : UniAlgo} (s : ProxyTraffic τ una) (task : τ) (d : Download) : ProxyTraffic τ una :=
  { s with downloads := Function.update s.downloads task (some d) }

/-- `SendBudgeted` is called with the bytes of the download's new phase. -/
def call (env : CaptureEnv) (downBytesMax : Int) (s : ProxyTraffic τ env.una) (task : τ) (d : Download) :
    Option (ProxyTraffic τ env.una) :=
  (proxyStep env downBytesMax s.proxy (.sendBudgeted task d.passed.length)).map fun proxy =>
    { s.setDownload task d with proxy := proxy }

/-- The call has returned: `HandleConnect` looks only at whether the proxy is stopped, `CopyUpstreamToClientBudgeted`
at how many bytes were sent. -/
def afterCall {una : UniAlgo} (s : ProxyTraffic τ una) (d : Download) (sent : Int) : Download :=
  match d.phase with
  | .answered relays => { d with phase := if relays && !s.proxy.stopped then .looping else .ended }
  | .sending pending => { d with phase := if sent = 0 then .ended else .forwarding (pending.drop sent.toNat) }
  | _ => d

end ProxyTraffic

/-- One step of one task. -/
def trafficStep {τ : Type} [DecidableEq τ] (env : CaptureEnv) (downBytesMax : Int) (s : ProxyTraffic τ env.una) :
    TrafficAction τ env.una → Option (ProxyTraffic τ env.una)
  | .start task how => if (s.downloads task).isSome then none else some (s.setDownload task how.download)
  | .send task =>
    (s.downloads task).bind fun d =>
      match d.phase with
      | .answering relays => s.call env downBytesMax task { d with phase := .answered relays }
      | .forwarding pending =>
        if pending.isEmpty || s.proxy.stopped then some (s.setDownload task { d with phase := .looping })
        else s.call env downBytesMax task { d with phase := .sending pending }
      | _ => none
  | .inProxy action =>
    if action.isCall then none
    else
      (proxyStep env downBytesMax s.proxy action).map fun proxy =>
        ⟨proxy, fun task => (s.downloads task).map (·.deliver (action.transmitted task) (action.lost task))⟩
  | .resume task =>
    (s.downloads task).bind fun d =>
      match s.proxy.sends task with
      | .returned sent => if d.inCall then some (s.setDownload task (s.afterCall d sent)) else none
      | _ => none
  | .testStopped task =>
    (s.downloads task).bind fun d =>
      match d.phase with
      | .looping => some (s.setDownload task { d with phase := if s.proxy.stopped then .ended else .receiving })
      | _ => none
  | .recvSome task chunk =>
    (s.downloads task).bind fun d =>
      match d.phase with
      | .receiving =>
        if chunk.length > ioBufferBytes then none
        else if chunk.isEmpty then some (s.setDownload task { d with phase := .ended, drained := true })
        else some (s.setDownload task { d with phase := .forwarding chunk, upstream := d.upstream ++ chunk })
      | _ => none
  | .recvThrows task =>
    (s.downloads task).bind fun d =>
      match d.phase with
      | .receiving => some (s.setDownload task { d with phase := .ended })
      | _ => none

/-- What a call of `SendBudgeted` makes of the bytes it was given: `got` has reached the browser, `lost` bytes of it in
a send that threw. -/
def SendPhase.Accounts (passed got : Bytes) (lost : Nat) : SendPhase → Prop
  | .idle | .refused _ | .stopping => got = [] ∧ lost = 0
  | .claiming claim | .sending claim => got = [] ∧ lost = 0 ∧ claim ≤ passed.length
  | .refunding _ sent | .returned sent =>
    got <+: passed ∧ lost ≤ got.length ∧ (sent = 0 ∨ sent = got.length ∧ lost = 0)

/-- How a call moves on, the bytes it transmits and those of them it loses. -/
inductive SendMove : SendPhase → Nat → Nat → SendPhase → Prop where
  | refused (claim found : Int) : SendMove (.claiming claim) 0 0 (.refused found)
  | claimed (claim : Int) : SendMove (.claiming claim) 0 0 (.sending claim)
  | noted (found : Int) : SendMove (.refused found) 0 0 .stopping
  | stopped : SendMove .stopping 0 0 (.returned 0)
  | sentSome {claim : Int} {n : Nat} (short : (n : Int) < claim) : SendMove (.sending claim) n 0 (.refunding (claim - n) n)
  | sentAll (n : Nat) : SendMove (.sending n) n 0 (.returned n)
  | threw {claim : Int} {n : Nat} (part : (n : Int) ≤ claim) : SendMove (.sending claim) n n (.refunding claim 0)
  | refunded (unused sent : Int) : SendMove (.refunding unused sent) 0 0 (.returned sent)

namespace SendMove
variable {before after : SendPhase} {n l : Nat}

theorem not_over (h : SendMove before n l after) : ¬ before.IsOver := by
  intro hover
  obtain rfl | ⟨sent, rfl⟩ := hover
  · cases h
  · cases h

theorem lost_le (h : SendMove before n l after) : l ≤ n := by
  cases h <;> omega

/-- A call transmits no more than it was given. -/
theorem le_length {passed got : Bytes} {lost : Nat} (h : SendMove before n l after)
    (haccounts : before.Accounts passed got lost) : n ≤ passed.length := by
  cases h with
  | sentSome short =>
    have hclaim := haccounts.2.2
    omega
  | sentAll n =>
    have hclaim := haccounts.2.2
    omega
  | threw part =>
    have hclaim := haccounts.2.2
    omega
  | _ => exact Nat.zero_le _

theorem accounts {passed got : Bytes} {lost : Nat} (h : SendMove before n l after)
    (haccounts : before.Accounts passed got lost) : after.Accounts passed (got ++ passed.take n) (lost + l) := by
  have hle := h.le_length haccounts
  have hlength : (passed.take n).length = n := List.length_take_of_le hle
  cases h with
  | refused claim found =>
    obtain ⟨rfl, rfl, _⟩ := haccounts
    exact ⟨rfl, rfl⟩
  | claimed claim =>
    obtain ⟨rfl, rfl, hclaim⟩ := haccounts
    exact ⟨rfl, rfl, hclaim⟩
  | noted found =>
    obtain ⟨rfl, rfl⟩ := haccounts
    exact ⟨rfl, rfl⟩
  | stopped =>
    obtain ⟨rfl, rfl⟩ := haccounts
    exact ⟨List.nil_prefix, le_rfl, .inl rfl⟩
  | sentSome short =>
    obtain ⟨rfl, rfl, _⟩ := haccounts
    exact ⟨List.take_prefix n passed, Nat.zero_le _, .inr ⟨congrArg Int.ofNat hlength.symm, rfl⟩⟩
  | sentAll n =>
    obtain ⟨rfl, rfl, _⟩ := haccounts
    exact ⟨List.take_prefix n passed, Nat.zero_le _, .inr ⟨congrArg Int.ofNat hlength.symm, rfl⟩⟩
  | threw part =>
    obtain ⟨rfl, rfl, _⟩ := haccounts
    refine ⟨List.take_prefix n passed, ?_, .inl rfl⟩
    rw [List.nil_append, hlength, Nat.zero_add]
  | refunded unused sent =>
    rw [List.take_zero, List.append_nil]
    exact haccounts

end SendMove

section ProxySteps
variable {τ : Type} [DecidableEq τ] {env : CaptureEnv} {downBytesMax : Int} {s t : EgressProxy τ env.una}

/-- What a step inside the proxy does to the calls: nothing, or one of them moves on. -/
inductive TransmitMove (s t : EgressProxy τ env.una) (a : ProxyAction τ env.una) : Prop where
  | none (sends : t.sends = s.sends) (delivered : t.delivered = s.delivered) (lost : lostBytes [a] = 0)
      (silent : ∀ task, a.transmitted task = 0 ∧ a.lost task = 0)
  | moved {task : τ} {n l : Nat} {phase : SendPhase} (move : SendMove (s.sends task) n l phase)
      (sends : t.sends = Function.update s.sends task phase) (delivered : t.delivered = s.delivered + n)
      (lost : lostBytes [a] = l) (own : a.transmitted task = n ∧ a.lost task = l)
      (others : ∀ other, task ≠ other → a.transmitted other = 0 ∧ a.lost other = 0)

private theorem TransmitMove.quiet {a : ProxyAction τ env.una} {task : τ} {phase : SendPhase}
    (move : SendMove (s.sends task) 0 0 phase) (sends : t.sends = Function.update s.sends task phase)
    (delivered : t.delivered = s.delivered) (lost : lostBytes [a] = 0)
    (silent : ∀ task, a.transmitted task = 0 ∧ a.lost task = 0) : TransmitMove s t a :=
  .moved move sends (by rw [delivered]; exact (add_zero _).symm) lost (silent task) fun other _ => silent other

theorem proxyStep_transmits {a : ProxyAction τ env.una} (h : proxyStep env downBytesMax s a = some t)
    (hcall : a.isCall = false) : (s.stopped = true → t.stopped = true) ∧ TransmitMove s t a := by
  cases proxyStep_spec h with
  | nothingToSend _ _ => cases hcall
  | begun _ _ _ => cases hcall
  | @refused task claim unlocked phase exceeded =>
    exact ⟨id, .quiet (phase ▸ .refused claim s.downBytes) rfl rfl rfl fun _ => ⟨rfl, rfl⟩⟩
  | @claimed task claim unlocked phase room =>
    exact ⟨id, .quiet (phase ▸ .claimed claim) rfl rfl rfl fun _ => ⟨rfl, rfl⟩⟩
  | @refusalNoted task found t phase noted =>
    obtain ⟨reason, _, rfl⟩ := Option.map_eq_some_iff.mp noted
    exact ⟨id, .quiet (phase ▸ .noted found) rfl rfl rfl fun _ => ⟨rfl, rfl⟩⟩
  | @stopped task phase =>
    exact ⟨fun _ => rfl, .quiet (phase ▸ .stopped) rfl rfl rfl fun _ => ⟨rfl, rfl⟩⟩
  | @sentSome task claim sent phase short =>
    exact ⟨id, .moved (phase ▸ .sentSome short) rfl rfl rfl ⟨if_pos rfl, rfl⟩ fun other hother => ⟨if_neg hother, rfl⟩⟩
  | @sentAll task sent phase =>
    exact ⟨id, .moved (phase ▸ .sentAll sent) rfl rfl rfl ⟨if_pos rfl, rfl⟩ fun other hother => ⟨if_neg hother, rfl⟩⟩
  | @threw task claim transmitted phase part =>
    refine ⟨id, .moved (phase ▸ .threw part) rfl rfl (add_zero _) ⟨if_pos rfl, if_pos rfl⟩ ?_⟩
    exact fun other hother => ⟨if_neg hother, if_neg hother⟩
  | @refunded task unused sent unlocked phase =>
    exact ⟨id, .quiet (phase ▸ .refunded unused sent) rfl rfl rfl fun _ => ⟨rfl, rfl⟩⟩
  | otherNoted other noted =>
    obtain ⟨reason, _, rfl⟩ := Option.map_eq_some_iff.mp noted
    exact ⟨id, .none rfl rfl rfl fun _ => ⟨rfl, rfl⟩⟩
  | allStopped => exact ⟨fun _ => rfl, .none rfl rfl rfl fun _ => ⟨rfl, rfl⟩⟩

end ProxySteps

end Webshot.Crawler
