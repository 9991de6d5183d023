import Webshot.Crawler.ProxyDownloads

/-! What each browser has received of its download, in every order of the steps of the proxy and its clients. -/
namespace Webshot.Crawler
open Text Foundation.Reservations Foundation.TransitionRuns

namespace Download
variable {stopped stopped' : Bool} {send send' : SendPhase} {d : Download}

/-- The browser has the beginning of the response, and behind it `body`. -/
def Has (d : Download) (body : Bytes) : Prop := ∃ head, head <+: d.response ∧ d.received = head ++ body

/-- The call under way was given `passed` when the browser had `before`. -/
def Transmitting (d : Download) (before passed : Bytes) (lostBefore : Nat) (send : SendPhase) : Prop :=
  ∃ got lost, d.received = before ++ got ∧ d.lost = lostBefore + lost ∧ send.Accounts passed got lost

/-- What holds of a download, by its phase, while the proxy is stopped or not and its call stands where it stands. -/
def Good (stopped : Bool) (send : SendPhase) (d : Download) : Prop :=
  match d.phase with
  | .answering _ => d.received = [] ∧ d.lost = 0 ∧ d.upstream = [] ∧ d.drained = false
  | .answered _ => d.Transmitting [] d.response 0 send ∧ d.upstream = [] ∧ d.drained = false
  | .looping =>
    (∃ body, d.Has body ∧ body <+: d.upstream ∧ (stopped = false → body = d.upstream)) ∧
      d.lost ≤ d.response.length ∧ d.drained = false
  | .receiving => d.Has d.upstream ∧ d.lost ≤ d.response.length ∧ d.drained = false
  | .forwarding pending =>
    (∃ body, d.Has body ∧ d.upstream = body ++ pending) ∧ d.lost ≤ d.response.length ∧
      pending.length ≤ ioBufferBytes ∧ d.drained = false
  | .sending pending =>
    (∃ head body lost, head <+: d.response ∧ d.Transmitting (head ++ body) pending lost send ∧
      d.upstream = body ++ pending ∧ lost ≤ d.response.length) ∧ pending.length ≤ ioBufferBytes ∧ d.drained = false
  | .ended =>
    (∃ body, d.Has body ∧ body <+: d.upstream ∧ (d.drained = true → body = d.upstream)) ∧
      d.lost ≤ d.response.length + ioBufferBytes

/-- The browser has the beginning of the proxy's own response and then what the upstream said, in order and without a
gap: all of it if the upstream has closed its side. Sends that threw account for at most the response and one piece. -/
structure Intact (d : Download) : Prop where
  bytes : ∃ head body, d.received = head ++ body ∧ head <+: d.response ∧ body <+: d.upstream ∧
    (d.drained = true → body = d.upstream)
  lost_le : d.lost ≤ d.response.length + ioBufferBytes

/-- What has reached the browser and was not lost in a send. -/
def share (d : Option Download) : Int := d.elim 0 fun d => d.received.length - d.lost

theorem Has.of_body {body : Bytes} (h : d.Has body) (hbody : body <+: d.upstream)
    (hdrained : d.drained = true → body = d.upstream) : ∃ head body, d.received = head ++ body ∧ head <+: d.response ∧
      body <+: d.upstream ∧ (d.drained = true → body = d.upstream) := by
  obtain ⟨head, hhead, hreceived⟩ := h
  exact ⟨head, body, hreceived, hhead, hbody, hdrained⟩

end Download

theorem SendPhase.Accounts.spec {send : SendPhase} {passed got : Bytes} {lost : Nat} (h : send.Accounts passed got lost) :
    got <+: passed ∧ lost ≤ got.length := by
  cases send with
  | refunding unused sent => exact ⟨h.1, h.2.1⟩
  | returned sent => exact ⟨h.1, h.2.1⟩
  | claiming claim =>
    obtain ⟨rfl, rfl, _⟩ := h
    exact ⟨List.nil_prefix, le_rfl⟩
  | sending claim =>
    obtain ⟨rfl, rfl, _⟩ := h
    exact ⟨List.nil_prefix, le_rfl⟩
  | _ =>
    obtain ⟨rfl, rfl⟩ := h
    exact ⟨List.nil_prefix, le_rfl⟩

namespace Download
variable {stopped stopped' : Bool} {send send' : SendPhase} {d : Download}

theorem Good.intact (h : d.Good stopped send) : d.Intact := by
  unfold Good at h
  split at h
  · obtain ⟨hreceived, hlost, hupstream, hdrained⟩ := h
    refine ⟨⟨[], [], hreceived, List.nil_prefix, List.nil_prefix, fun _ => hupstream.symm⟩, ?_⟩
    rw [hlost]
    exact Nat.zero_le _
  · obtain ⟨⟨got, lost, hreceived, hlost, haccounts⟩, hupstream, _⟩ := h
    obtain ⟨hgot, hle⟩ := haccounts.spec
    have hlength := hgot.length_le
    refine ⟨⟨got, [], ?_, hgot, List.nil_prefix, fun _ => hupstream.symm⟩, by omega⟩
    rw [hreceived, List.nil_append, List.append_nil]
  · obtain ⟨⟨body, hhas, hbody, _⟩, hlost, hdrained⟩ := h
    refine ⟨hhas.of_body hbody fun h => ?_, hlost.trans (Nat.le_add_right _ _)⟩
    rw [hdrained] at h
    cases h
  · obtain ⟨hhas, hlost, _⟩ := h
    exact ⟨hhas.of_body (List.prefix_refl _) fun _ => rfl, hlost.trans (Nat.le_add_right _ _)⟩
  · obtain ⟨⟨body, hhas, hupstream⟩, hlost, _, hdrained⟩ := h
    refine ⟨hhas.of_body (hupstream ▸ List.prefix_append _ _) fun h => ?_, hlost.trans (Nat.le_add_right _ _)⟩
    rw [hdrained] at h
    cases h
  · obtain ⟨⟨head, body, lost, hhead, ⟨got, own, hreceived, hown, haccounts⟩, hupstream, hlost⟩, hlength, hdrained⟩ := h
    obtain ⟨hgot, hle⟩ := haccounts.spec
    have hpiece := hgot.length_le
    refine ⟨⟨head, body ++ got, ?_, hhead, ?_, fun h => ?_⟩, by omega⟩
    · rw [hreceived, List.append_assoc]
    · rw [hupstream]
      exact (List.prefix_append_right_inj _).mpr hgot
    · rw [hdrained] at h
      cases h
  · obtain ⟨⟨body, hhas, hbody, hdrained⟩, hlost⟩ := h
    exact ⟨hhas.of_body hbody hdrained, hlost⟩

/-- A stop does not harm a download. -/
theorem Good.stop (h : d.Good stopped send) (hstop : stopped = true → stopped' = true) : d.Good stopped' send := by
  unfold Good at h ⊢
  split at h
  all_goals try exact h
  obtain ⟨⟨body, hhas, hbody, hall⟩, hrest⟩ := h
  refine ⟨⟨body, hhas, hbody, fun hrunning => hall ?_⟩, hrest⟩
  rw [← Bool.not_eq_true]
  exact fun hstopped => Bool.noConfusion (hrunning.symm.trans (hstop hstopped))

/-- Outside a call the calls do not matter. -/
theorem Good.outside (h : d.Good stopped send) (hcall : d.inCall = false) : d.Good stopped send' := by
  unfold Good at h ⊢
  unfold inCall at hcall
  split at h
  all_goals first | exact h | cases ‹d.phase = _› ▸ hcall

end Download

namespace Download
variable {stopped : Bool} {send send' : SendPhase} {d : Download}

theorem deliver_zero (d : Download) : d.deliver 0 0 = d := by
  simp [deliver]

theorem Good.transmitting (h : d.Good stopped send) (hcall : d.inCall = true) :
    ∃ before lost, d.Transmitting before d.passed lost send := by
  unfold Good at h
  unfold inCall at hcall
  split at h
  · cases ‹d.phase = _› ▸ hcall
  · rename_i hphase
    refine ⟨[], 0, ?_⟩
    rw [passed, hphase]
    exact h.1
  · cases ‹d.phase = _› ▸ hcall
  · cases ‹d.phase = _› ▸ hcall
  · cases ‹d.phase = _› ▸ hcall
  · rename_i hphase
    obtain ⟨⟨head, body, lost, _, htransmitting, _⟩, _⟩ := h
    refine ⟨head ++ body, lost, ?_⟩
    rw [passed, hphase]
    exact htransmitting
  · cases ‹d.phase = _› ▸ hcall

theorem Transmitting.move {before passed : Bytes} {lostBefore n l : Nat} (h : d.Transmitting before passed lostBefore send)
    (hmove : SendMove send n l send') (hpassed : d.passed = passed) :
    (d.deliver n l).Transmitting before passed lostBefore send' := by
  obtain ⟨got, lost, hreceived, hlost, haccounts⟩ := h
  refine ⟨got ++ passed.take n, lost + l, ?_, ?_, hmove.accounts haccounts⟩
  · rw [deliver, hreceived, hpassed, List.append_assoc]
  · rw [deliver, hlost, Nat.add_assoc]

/-- The call of a download moves on. -/
theorem Good.move {n l : Nat} (h : d.Good stopped send) (hmove : SendMove send n l send') (hcall : d.inCall = true) :
    (d.deliver n l).Good stopped send' := by
  unfold Good at h ⊢
  unfold inCall at hcall
  rw [show (d.deliver n l).phase = d.phase from rfl]
  split at h
  · cases ‹d.phase = _› ▸ hcall
  · rename_i hphase
    obtain ⟨htransmitting, hrest⟩ := h
    exact ⟨htransmitting.move hmove (by rw [passed, hphase]), hrest⟩
  · cases ‹d.phase = _› ▸ hcall
  · cases ‹d.phase = _› ▸ hcall
  · cases ‹d.phase = _› ▸ hcall
  · rename_i hphase
    obtain ⟨⟨head, body, lost, hhead, htransmitting, hbody⟩, hrest⟩ := h
    exact ⟨⟨head, body, lost, hhead, htransmitting.move hmove (by rw [passed, hphase]), hbody⟩, hrest⟩
  · cases ‹d.phase = _› ▸ hcall

theorem share_deliver {n : Nat} (l : Nat) (h : n ≤ d.passed.length) :
    share (some (d.deliver n l)) = share (some d) + n - l := by
  simp only [share, Option.elim_some, deliver, List.length_append, List.length_take_of_le h]
  omega

end Download

/-- What holds of the proxy and its downloads in every run: `lost` is what sends had transmitted when they threw. -/
structure TrafficInv {τ : Type} {una : UniAlgo} (downBytesMax lost : Int) (s : ProxyTraffic τ una) : Prop where
  budget : BudgetInv downBytesMax lost s.proxy
  good : ∀ task d, s.downloads task = some d → d.Good s.proxy.stopped (s.proxy.sends task)
  caller : ∀ task, ¬ (s.proxy.sends task).IsOver → ∃ d, s.downloads task = some d ∧ d.inCall = true
  covered : ∀ task d, s.downloads task = some d → d.lost ≤ d.received.length
  shares : Holds (fun task => Download.share (s.downloads task)) (s.proxy.delivered - lost)

namespace TrafficInv
variable {τ : Type} [DecidableEq τ] {env : CaptureEnv} {downBytesMax lost : Int} {s t : ProxyTraffic τ env.una}

private theorem download_same (s : ProxyTraffic τ env.una) (task : τ) (d : Download) :
    (s.setDownload task d).downloads task = some d := Function.update_self ..

private theorem download_other {task other : τ} (h : other ≠ task) (d : Download) :
    (s.setDownload task d).downloads other = s.downloads other := Function.update_of_ne h ..

/-- One download moves on by itself. -/
private theorem setDownload (h : TrafficInv downBytesMax lost s) {task : τ} {d : Download}
    (hgood : d.Good s.proxy.stopped (s.proxy.sends task)) (hover : (s.proxy.sends task).IsOver)
    (hshare : Download.share (some d) = Download.share (s.downloads task)) (hcovered : d.lost ≤ d.received.length) :
    TrafficInv downBytesMax lost (s.setDownload task d) := by
  refine ⟨h.budget, ?_, ?_, ?_, ?_⟩
  · intro other d' hd'
    rcases update_cases hd' with ⟨rfl, heq⟩ | ⟨_, hold⟩
    · cases heq
      exact hgood
    · exact h.good other d' hold
  · intro other hother
    have hne : other ≠ task := by
      rintro rfl
      exact hother hover
    rw [download_other hne]
    exact h.caller other hother
  · intro other d' hd'
    rcases update_cases hd' with ⟨rfl, heq⟩ | ⟨_, hold⟩
    · cases heq
      exact hcovered
    · exact h.covered other d' hold
  · have hsame : (fun other => Download.share ((s.setDownload task d).downloads other)) =
        fun other => Download.share (s.downloads other) := by
      funext other
      by_cases hother : other = task
      · rw [hother, download_same, hshare]
      · rw [download_other hother]
    rw [hsame]
    exact h.shares

/-- A call starts. -/
private theorem call (h : TrafficInv downBytesMax lost s) {task : τ} {d d' : Download} (hd : s.downloads task = some d)
    (hstep : s.call env downBytesMax task d' = some t)
    (hgood : ∀ send : SendPhase, send.Accounts d'.passed [] 0 → d'.Good s.proxy.stopped send) (hcall : d'.inCall = true)
    (hreceived : d'.received = d.received) (hlost : d'.lost = d.lost) : TrafficInv downBytesMax lost t := by
  obtain ⟨proxy, hproxy, rfl⟩ := Option.map_eq_some_iff.mp hstep
  have hbudget : BudgetInv downBytesMax (lost + 0) proxy := h.budget.step hproxy
  rw [add_zero] at hbudget
  have hmoved : ∃ phase, proxy.sends = Function.update s.proxy.sends task phase ∧ phase.Accounts d'.passed [] 0 ∧
      proxy.stopped = s.proxy.stopped ∧ proxy.delivered = s.proxy.delivered := by
    cases proxyStep_spec hproxy with
    | nothingToSend free nothing => exact ⟨.returned 0, rfl, ⟨List.nil_prefix, le_rfl, .inl rfl⟩, rfl, rfl⟩
    | begun free running positive => exact ⟨.claiming _, rfl, ⟨rfl, rfl, min_le_left _ _⟩, rfl, rfl⟩
  obtain ⟨phase, hsends, haccounts, hstopped, hdelivered⟩ := hmoved
  refine ⟨hbudget, ?_, ?_, ?_, ?_⟩
  · intro other d'' hd''
    change d''.Good proxy.stopped (proxy.sends other)
    rw [hsends, hstopped]
    rcases update_cases hd'' with ⟨rfl, heq⟩ | ⟨hne, hold⟩
    · cases heq
      rw [Function.update_self]
      exact hgood phase haccounts
    · rw [Function.update_of_ne hne]
      exact h.good other d'' hold
  · intro other hother
    change ¬ (proxy.sends other).IsOver at hother
    by_cases hne : other = task
    · rw [hne]
      exact ⟨d', Function.update_self .., hcall⟩
    · rw [hsends, Function.update_of_ne hne] at hother
      change ∃ d, Function.update s.downloads task (some d') other = some d ∧ d.inCall = true
      rw [Function.update_of_ne hne]
      exact h.caller other hother
  · intro other d'' hd''
    rcases update_cases hd'' with ⟨rfl, heq⟩ | ⟨hne, hold⟩
    · cases heq
      rw [hlost, hreceived]
      exact h.covered other d hd
    · exact h.covered other d'' hold
  · have hsame : (fun other => Download.share (Function.update s.downloads task (some d') other)) =
        fun other => Download.share (s.downloads other) := by
      funext other
      by_cases hother : other = task
      · rw [hother, Function.update_self, hd, Download.share, Download.share, Option.elim_some, Option.elim_some,
          hreceived, hlost]
      · rw [Function.update_of_ne hother]
    change Holds (fun other => Download.share (Function.update s.downloads task (some d') other)) (proxy.delivered - lost)
    rw [hsame, hdelivered]
    exact h.shares

/-- A step inside the proxy. -/
private theorem inProxy (h : TrafficInv downBytesMax lost s) {action : ProxyAction τ env.una} (hcall : action.isCall = false)
    {proxy : EgressProxy τ env.una} (hstep : proxyStep env downBytesMax s.proxy action = some proxy) :
    TrafficInv downBytesMax (lost + lostBytes [action])
      ⟨proxy, fun task => (s.downloads task).map (·.deliver (action.transmitted task) (action.lost task))⟩ := by
  obtain ⟨hstop, htransmits⟩ := proxyStep_transmits hstep hcall
  have hbudget := h.budget.step hstep
  cases htransmits with
  | none sends delivered hlost silent =>
    have hsame : (fun task => (s.downloads task).map (·.deliver (action.transmitted task) (action.lost task))) =
        s.downloads := by
      funext task
      obtain ⟨htransmitted, hown⟩ := silent task
      rw [htransmitted, hown]
      exact (congrArg (Option.map · _) (funext Download.deliver_zero)).trans Option.map_id_apply
    rw [hsame]
    refine ⟨hbudget, ?_, ?_, h.covered, ?_⟩
    · intro task d hd
      change d.Good proxy.stopped (proxy.sends task)
      rw [sends]
      exact (h.good task d hd).stop hstop
    · intro task hover
      change ¬ (proxy.sends task).IsOver at hover
      rw [sends] at hover
      exact h.caller task hover
    · rw [hlost, add_zero]
      change Holds _ (proxy.delivered - lost)
      rw [delivered]
      exact h.shares
  | @moved task n l phase move sends delivered hlost own others =>
    obtain ⟨d, hd, hd'⟩ := h.caller task move.not_over
    have hgood := h.good task d hd
    obtain ⟨before, lostBefore, got, lost', _, _, haccounts⟩ := hgood.transmitting hd'
    have hfree : ∀ other, task ≠ other →
        (s.downloads other).map (·.deliver (action.transmitted other) (action.lost other)) = s.downloads other := by
      intro other hother
      obtain ⟨htransmitted, hown⟩ := others other hother
      rw [htransmitted, hown]
      exact (congrArg (Option.map · _) (funext Download.deliver_zero)).trans Option.map_id_apply
    have hnew : (s.downloads task).map (·.deliver (action.transmitted task) (action.lost task)) = some (d.deliver n l) := by
      rw [own.1, own.2, hd]
      rfl
    refine ⟨hbudget, ?_, ?_, ?_, ?_⟩
    · intro other d'' hd''
      change d''.Good proxy.stopped (proxy.sends other)
      change (s.downloads other).map _ = some d'' at hd''
      by_cases hother : task = other
      · subst hother
        rw [hnew] at hd''
        cases hd''
        rw [sends, Function.update_self]
        exact (hgood.move move hd').stop hstop
      · rw [hfree other hother] at hd''
        rw [sends, Function.update_of_ne (Ne.symm hother)]
        exact (h.good other d'' hd'').stop hstop
    · intro other hover
      change ¬ (proxy.sends other).IsOver at hover
      change ∃ d : Download, (s.downloads other).map _ = some d ∧ d.inCall = true
      by_cases hother : task = other
      · subst hother
        exact ⟨_, hnew, hd'⟩
      · rw [sends, Function.update_of_ne (Ne.symm hother)] at hover
        rw [hfree other hother]
        exact h.caller other hover
    · intro other d'' hd''
      change (s.downloads other).map _ = some d'' at hd''
      by_cases hother : task = other
      · subst hother
        rw [hnew] at hd''
        cases hd''
        have hcovered := h.covered task d hd
        have hle := move.lost_le
        simp only [Download.deliver, List.length_append, List.length_take_of_le (move.le_length haccounts)]
        omega
      · rw [hfree other hother] at hd''
        exact h.covered other d'' hd''
    · have hupdate : (fun other => Download.share
          ((s.downloads other).map (·.deliver (action.transmitted other) (action.lost other)))) =
          Function.update (fun other => Download.share (s.downloads other)) task
            (Download.share (s.downloads task) + n - l) := by
        funext other
        by_cases hother : task = other
        · subst hother
          rw [hnew, Function.update_self, hd, Download.share_deliver l (move.le_length haccounts)]
        · rw [hfree other hother, Function.update_of_ne (Ne.symm hother)]
      change Holds (fun other => Download.share
        ((s.downloads other).map (·.deliver (action.transmitted other) (action.lost other)))) _
      rw [hupdate]
      have hshares := h.shares.update task (Download.share (s.downloads task) + n - l)
      have htotal : proxy.delivered - (lost + lostBytes [action]) =
          s.proxy.delivered - lost - Download.share (s.downloads task) + (Download.share (s.downloads task) + n - l) := by
        rw [delivered, hlost]
        omega
      change Holds _ (proxy.delivered - (lost + lostBytes [action]))
      rw [htotal]
      exact hshares

omit [DecidableEq τ] in
theorem initial (hmax : 0 ≤ downBytesMax) : TrafficInv downBytesMax 0 ({} : ProxyTraffic τ env.una) := by
  refine ⟨.initial hmax, nofun, fun task hover => absurd (.inl rfl) hover, nofun, ?_⟩
  exact Holds.zero

omit [DecidableEq τ] in
private theorem over_of_not_inCall (h : TrafficInv downBytesMax lost s) {task : τ} {d : Download}
    (hd : s.downloads task = some d) (hcall : d.inCall = false) : (s.proxy.sends task).IsOver := by
  by_contra hover
  obtain ⟨d', hd', hcall'⟩ := h.caller task hover
  rw [hd] at hd'
  cases hd'
  rw [hcall] at hcall'
  cases hcall'

omit [DecidableEq τ] in
private theorem good_of_accounts {send : SendPhase} {d : Download} {head body pending : Bytes}
    (hphase : d.phase = .sending pending) (hhead : head <+: d.response) (hreceived : d.received = head ++ body)
    (hupstream : d.upstream = body ++ pending) (hlost : d.lost ≤ d.response.length)
    (hpending : pending.length ≤ ioBufferBytes) (hdrained : d.drained = false) (hsend : send.Accounts d.passed [] 0) :
    d.Good s.proxy.stopped send := by
  unfold Download.Good
  rw [hphase]
  rw [Download.passed, hphase] at hsend
  exact ⟨⟨head, body, d.lost, hhead, ⟨[], 0, by rw [hreceived, List.append_nil], rfl, hsend⟩, hupstream, hlost⟩, hpending,
    hdrained⟩

section Steps
variable {task : τ} {d : Download}

private theorem started (h : TrafficInv downBytesMax lost s) (how : DownloadStart) (hd : s.downloads task = none) :
    TrafficInv downBytesMax lost (s.setDownload task how.download) := by
  have hover : (s.proxy.sends task).IsOver := by
    by_contra hover
    obtain ⟨d, hd', _⟩ := h.caller task hover
    rw [hd] at hd'
    cases hd'
  cases how with
  | answer response => exact h.setDownload ⟨rfl, rfl, rfl, rfl⟩ hover (by rw [hd]; rfl) le_rfl
  | connect => exact h.setDownload ⟨rfl, rfl, rfl, rfl⟩ hover (by rw [hd]; rfl) le_rfl
  | http =>
    refine h.setDownload ⟨⟨[], ⟨[], List.nil_prefix, rfl⟩, List.nil_prefix, fun _ => rfl⟩, Nat.zero_le _, rfl⟩ hover ?_ le_rfl
    rw [hd]
    rfl

private theorem sent (h : TrafficInv downBytesMax lost s) (hd : s.downloads task = some d)
    (hstep : trafficStep env downBytesMax s (.send task) = some t) : TrafficInv downBytesMax lost t := by
  have hgood := h.good task d hd
  have hcovered := h.covered task d hd
  unfold Download.Good at hgood
  simp only [trafficStep, hd, Option.bind_some] at hstep
  split at hstep
  · rename_i relays hphase
    rw [hphase] at hgood
    obtain ⟨hreceived, hlost, hupstream, hdrained⟩ := hgood
    refine h.call hd hstep (fun send haccounts => ?_) rfl rfl rfl
    exact ⟨⟨[], 0, hreceived, hlost, haccounts⟩, hupstream, hdrained⟩
  · rename_i pending hphase
    rw [hphase] at hgood
    obtain ⟨⟨body, ⟨head, hhead, hreceived⟩, hupstream⟩, hlost, hpending, hdrained⟩ := hgood
    split at hstep
    · rename_i hleave
      cases hstep
      refine h.setDownload ⟨⟨body, ⟨head, hhead, hreceived⟩, ?_, fun hrunning => ?_⟩, hlost, hdrained⟩
        (h.over_of_not_inCall hd (by rw [Download.inCall, hphase])) (by rw [hd]; rfl) hcovered
      · exact hupstream ▸ List.prefix_append body pending
      · rw [hrunning, Bool.or_false, List.isEmpty_iff] at hleave
        change body = d.upstream
        rw [hupstream, hleave, List.append_nil]
    · refine h.call hd hstep (fun send haccounts => ?_) rfl rfl rfl
      exact good_of_accounts rfl hhead hreceived hupstream hlost hpending hdrained haccounts
  · cases hstep

private theorem resumed (h : TrafficInv downBytesMax lost s) (hd : s.downloads task = some d) {sent : Int}
    (hreturned : s.proxy.sends task = .returned sent) (hcall : d.inCall = true) :
    TrafficInv downBytesMax lost (s.setDownload task (s.afterCall d sent)) := by
  have hover : (s.proxy.sends task).IsOver := .inr ⟨sent, hreturned⟩
  have hgood := h.good task d hd
  have hcovered := h.covered task d hd
  unfold Download.Good at hgood
  unfold Download.inCall at hcall
  unfold ProxyTraffic.afterCall
  split at hgood
  · cases ‹d.phase = _› ▸ hcall
  · rename_i relays hphase
    obtain ⟨⟨got, lost', hreceived, hlost, haccounts⟩, hupstream, hdrained⟩ := hgood
    obtain ⟨hgot, hle⟩ := haccounts.spec
    have hlength := hgot.length_le
    have hhas : ∀ phase, ({ d with phase := phase } : Download).Has [] := by
      intro phase
      exact ⟨got, hgot, by rw [List.append_nil, ← List.nil_append got]; exact hreceived⟩
    rw [hphase]
    simp only
    split
    · refine h.setDownload ⟨⟨[], hhas _, List.nil_prefix, fun _ => hupstream.symm⟩, ?_, hdrained⟩ hover (by rw [hd]; rfl) hcovered
      simp only
      omega
    · refine h.setDownload ⟨⟨[], hhas _, List.nil_prefix, fun _ => hupstream.symm⟩, ?_⟩ hover (by rw [hd]; rfl) hcovered
      simp only
      omega
  · cases ‹d.phase = _› ▸ hcall
  · cases ‹d.phase = _› ▸ hcall
  · cases ‹d.phase = _› ▸ hcall
  · rename_i pending hphase
    obtain ⟨⟨head, body, lostBefore, hhead, htransmitting, hupstream, hbefore⟩, hpending, hdrained⟩ := hgood
    obtain ⟨got, lost', hreceived, hlost, haccounts⟩ := htransmitting
    rw [hreturned] at haccounts
    obtain ⟨⟨rest, hrest⟩, hle, hsent⟩ := haccounts
    have hlength : got.length ≤ pending.length := by
      rw [← hrest, List.length_append]
      exact Nat.le_add_right _ _
    have hhas : ∀ phase, ({ d with phase := phase } : Download).Has (body ++ got) := by
      intro phase
      exact ⟨head, hhead, by rw [← List.append_assoc]; exact hreceived⟩
    rw [hphase]
    simp only
    split
    · refine h.setDownload ⟨⟨body ++ got, hhas _, ?_, fun h => ?_⟩, by simp only; omega⟩ hover (by rw [hd]; rfl) hcovered
      · change body ++ got <+: d.upstream
        rw [hupstream, ← hrest]
        exact (List.prefix_append_right_inj body).mpr (List.prefix_append got rest)
      · change d.drained = true at h
        rw [hdrained] at h
        cases h
    · rename_i hzero
      obtain ⟨hcount, hnone⟩ := hsent.resolve_left hzero
      have hdrop : pending.drop sent.toNat = rest := by
        rw [hcount, Int.toNat_natCast, ← hrest, List.drop_left]
      refine h.setDownload ⟨⟨body ++ got, hhas _, ?_⟩, by simp only; omega, ?_, hdrained⟩ hover (by rw [hd]; rfl) hcovered
      · rw [hdrop, List.append_assoc, hrest]
        exact hupstream
      · rw [List.length_drop]
        exact (Nat.sub_le _ _).trans hpending
  · cases ‹d.phase = _› ▸ hcall

private theorem tested (h : TrafficInv downBytesMax lost s) (hd : s.downloads task = some d) (hphase : d.phase = .looping) :
    TrafficInv downBytesMax lost
      (s.setDownload task { d with phase := if s.proxy.stopped then .ended else .receiving }) := by
  have hgood := h.good task d hd
  have hcovered := h.covered task d hd
  unfold Download.Good at hgood
  rw [hphase] at hgood
  obtain ⟨⟨body, hhas, hbody, hall⟩, hlost, hdrained⟩ := hgood
  have hover : (s.proxy.sends task).IsOver := h.over_of_not_inCall hd (by rw [Download.inCall, hphase])
  split
  · refine h.setDownload ⟨⟨body, hhas, hbody, fun h => ?_⟩, hlost.trans (Nat.le_add_right _ _)⟩ hover (by rw [hd]; rfl) hcovered
    change d.drained = true at h
    rw [hdrained] at h
    cases h
  · rename_i hstopped
    have hsame := hall (Bool.eq_false_iff.mpr hstopped)
    exact h.setDownload ⟨hsame ▸ hhas, hlost, hdrained⟩ hover (by rw [hd]; rfl) hcovered

private theorem left_receiving (h : TrafficInv downBytesMax lost s) (hd : s.downloads task = some d)
    (hphase : d.phase = .receiving) :
    (∀ drained, TrafficInv downBytesMax lost (s.setDownload task { d with phase := .ended, drained := drained })) ∧
      ∀ chunk, chunk.length ≤ ioBufferBytes → TrafficInv downBytesMax lost
        (s.setDownload task { d with phase := .forwarding chunk, upstream := d.upstream ++ chunk }) := by
  have hgood := h.good task d hd
  have hcovered := h.covered task d hd
  unfold Download.Good at hgood
  rw [hphase] at hgood
  obtain ⟨hhas, hlost, hdrained⟩ := hgood
  have hover : (s.proxy.sends task).IsOver := h.over_of_not_inCall hd (by rw [Download.inCall, hphase])
  refine ⟨fun drained => ?_, fun chunk hchunk => ?_⟩
  · refine h.setDownload ⟨⟨d.upstream, hhas, List.prefix_refl _, fun _ => rfl⟩, ?_⟩ hover (by rw [hd]; rfl) hcovered
    exact hlost.trans (Nat.le_add_right _ _)
  · exact h.setDownload ⟨⟨d.upstream, hhas, rfl⟩, hlost, hchunk, hdrained⟩ hover (by rw [hd]; rfl) hcovered

end Steps

/-- Each step keeps the downloads and the accounts right; only a send that throws adds to what is lost. -/
theorem step {a : TrafficAction τ env.una} (h : TrafficInv downBytesMax lost s)
    (hstep : trafficStep env downBytesMax s a = some t) : ∃ lost, TrafficInv downBytesMax lost t := by
  cases a with
  | start task how =>
    simp only [trafficStep] at hstep
    split at hstep
    · cases hstep
    · rename_i hnone
      cases hstep
      exact ⟨lost, h.started how (Option.not_isSome_iff_eq_none.mp hnone)⟩
  | send task =>
    obtain ⟨d, hd, _⟩ := Option.bind_eq_some_iff.mp hstep
    exact ⟨lost, h.sent hd hstep⟩
  | inProxy action =>
    simp only [trafficStep] at hstep
    split at hstep
    · cases hstep
    · rename_i hcall
      obtain ⟨proxy, hproxy, rfl⟩ := Option.map_eq_some_iff.mp hstep
      exact ⟨_, h.inProxy (Bool.eq_false_iff.mpr hcall) hproxy⟩
  | resume task =>
    obtain ⟨d, hd, hstep⟩ := Option.bind_eq_some_iff.mp hstep
    split at hstep
    · rename_i sent hreturned
      split at hstep
      · cases hstep
        exact ⟨lost, h.resumed hd hreturned ‹_›⟩
      · cases hstep
    · cases hstep
  | testStopped task =>
    obtain ⟨d, hd, hstep⟩ := Option.bind_eq_some_iff.mp hstep
    split at hstep
    · rename_i hphase
      cases hstep
      exact ⟨lost, h.tested hd hphase⟩
    · cases hstep
  | recvSome task chunk =>
    obtain ⟨d, hd, hstep⟩ := Option.bind_eq_some_iff.mp hstep
    split at hstep
    · rename_i hphase
      split at hstep
      · cases hstep
      · rename_i hchunk
        split at hstep
        · cases hstep
          exact ⟨lost, (h.left_receiving hd hphase).1 true⟩
        · cases hstep
          exact ⟨lost, (h.left_receiving hd hphase).2 chunk (not_lt.mp hchunk)⟩
    · cases hstep
  | recvThrows task =>
    obtain ⟨d, hd, hstep⟩ := Option.bind_eq_some_iff.mp hstep
    split at hstep
    · rename_i hphase
      cases hstep
      exact ⟨lost, (h.left_receiving hd hphase).1 d.drained⟩
    · cases hstep

end TrafficInv

section Runs
variable {τ : Type} [DecidableEq τ] {env : CaptureEnv} {downBytesMax : Int} {s : ProxyTraffic τ env.una}

omit [DecidableEq τ] in
theorem TrafficInv.share_nonneg {lost : Int} (h : TrafficInv downBytesMax lost s) (task : τ) :
    0 ≤ Download.share (s.downloads task) := by
  cases hd : s.downloads task with
  | none => exact le_rfl
  | some d =>
    have hcovered := h.covered task d hd
    rw [Download.share, Option.elim_some]
    omega

/-- A tunnel under a maximum of sixty bytes, whose upstream says three bytes and closes. -/
private def smallTunnel : List (TrafficAction Unit asciiUna) :=
  [.start () .connect, .send (), .inProxy (.claim ()), .inProxy (.sendAllReturns () 39), .resume (), .testStopped (),
    .recvSome () (ascii "abc"), .send (), .inProxy (.claim ()), .inProxy (.sendAllReturns () 3), .resume (), .send (),
    .testStopped (), .recvSome () []]

end Runs
end Webshot.Crawler
