import Webshot.Access.PlainUrls
import Webshot.Crawler.CaptureWaits
import Webshot.Crawler.FetchGate
import Webshot.Foundation.Base64Url

/-! The event loop of a capture with its Fetch events: each request that the browser pauses is answered once, as the
access policy has it, or an error is recorded and no further event is taken. -/
namespace Webshot.Crawler
open Text Foundation Foundation.JsonText Foundation.TransitionRuns Access Storage

/-- What the policy says of a key, by mode. -/
def Verdict (tables : PolicyTables) (key : Bytes) : AccessPolicyMode → AccessDecisionReason → Prop
  | .regular, .allowed => tables.Allowlisted key ∨ ¬ tables.Denied key
  | .regular, .denylisted => tables.Denied key ∧ ¬ tables.Allowlisted key
  | .allowlistOnly, .allowed => ¬ tables.Denied key ∧ tables.Allowlisted key
  | .allowlistOnly, .denylisted => tables.Denied key
  | .allowlistOnly, .notAllowlisted => ¬ tables.Denied key ∧ ¬ tables.Allowlisted key
  | _, _ => False

section Turns
variable {una : UniAlgo} (turn : FetchTurn una) {key : Bytes}

private theorem isDeniedPrefix_ok {denied : Bool} (h : turn.repo.isDeniedPrefix key = .ok denied) :
    turn.tables.Denied key ↔ denied = true := by
  rw [PolicyTables.Denied, ← PolicyTables.checkTree_iff]
  cases herror : turn.denylistError with
  | none => simp_all [PolicyRepo.isDeniedPrefix, FetchTurn.repo, Except.mapError]
  | some error => simp [PolicyRepo.isDeniedPrefix, FetchTurn.repo, Except.mapError, herror] at h

private theorem isAllowlistedPrefix_ok {allowlisted : Bool} (h : turn.repo.isAllowlistedPrefix key = .ok allowlisted) :
    turn.tables.Allowlisted key ↔ allowlisted = true := by
  rw [PolicyTables.Allowlisted, ← PolicyTables.checkTree_iff]
  cases herror : turn.allowlistError with
  | none => simp_all [PolicyRepo.isAllowlistedPrefix, FetchTurn.repo, Except.mapError]
  | some error => simp [PolicyRepo.isAllowlistedPrefix, FetchTurn.repo, Except.mapError, herror] at h

private theorem bind_ok {ε α β : Type} {x : Except ε α} {f : α → Except ε β} {b : β} (h : x >>= f = .ok b) :
    ∃ a, x = .ok a ∧ f a = .ok b := by
  cases x with
  | error e => cases h
  | ok a => exact ⟨a, rfl, h⟩

/-- A decision is the verdict of the tables, whichever of the queries fail. -/
theorem FetchTurn.evaluatePrefix_verdict {mode : AccessPolicyMode} {decision : AccessDecision}
    (h : turn.repo.evaluatePrefix key mode = .ok decision) :
    Verdict turn.tables key mode decision.reason ∧ (decision.allowed = true ↔ decision.reason = .allowed) := by
  cases mode with
  | regular =>
    obtain ⟨allowlisted, hallow, h⟩ := bind_ok h
    have hallowlisted := isAllowlistedPrefix_ok turn hallow
    cases allowlisted with
    | true =>
      cases h
      exact ⟨.inl (hallowlisted.mpr rfl), by decide⟩
    | false =>
      obtain ⟨denied, hdeny, h⟩ := bind_ok h
      have hdenied := isDeniedPrefix_ok turn hdeny
      cases denied with
      | true =>
        cases h
        exact ⟨⟨hdenied.mpr rfl, fun ha => nomatch hallowlisted.mp ha⟩, by decide⟩
      | false =>
        cases h
        exact ⟨.inr (fun hd => nomatch hdenied.mp hd), by decide⟩
  | allowlistOnly =>
    obtain ⟨denied, hdeny, h⟩ := bind_ok h
    have hdenied := isDeniedPrefix_ok turn hdeny
    cases denied with
    | true =>
      cases h
      exact ⟨hdenied.mpr rfl, by decide⟩
    | false =>
      obtain ⟨allowlisted, hallow, h⟩ := bind_ok h
      have hallowlisted := isAllowlistedPrefix_ok turn hallow
      have hnot : ¬ turn.tables.Denied key := fun hd => nomatch hdenied.mp hd
      cases allowlisted with
      | true =>
        cases h
        exact ⟨⟨hnot, hallowlisted.mpr rfl⟩, by decide⟩
      | false =>
        cases h
        exact ⟨⟨hnot, fun ha => nomatch hallowlisted.mp ha⟩, by decide⟩

end Turns

def CdpEvent.isFetch (event : CdpEvent) : Bool :=
  event.method = ascii "Fetch.authRequired" || event.method = ascii "Fetch.requestPaused"

/-- What the browser shows in place of a URL that the policy blocks. -/
inductive BlockPage : AccessDecisionReason → Bytes → Prop where
  | denylisted : BlockPage .denylisted (ascii "link prefix in denylist\n")
  | notAllowlisted : BlockPage .notAllowlisted (ascii "link not in allowlist\n")
  | nonHttps : BlockPage .nonHttps (ascii "non-HTTPS fetch blocked\n")

theorem exists_blockPage {reason : AccessDecisionReason} (h : reason ≠ .allowed) :
    BlockPage reason (accessDecisionMessage reason ++ ascii "\n") := by
  cases reason with
  | allowed => exact absurd rfl h
  | denylisted => exact .denylisted
  | notAllowlisted => exact .notAllowlisted
  | nonHttps => exact .nonHttps

namespace FetchGate
variable (gate : FetchGate)

/-- What the policy decides for a URL, by its scheme and by the key of its host and path. -/
def Decided (tables : PolicyTables) (url : Access.Url gate.rules) (reason : AccessDecisionReason) : Prop :=
  if gate.httpsOnly = true ∧ (url.scheme = http ∨ url.scheme = ascii "ws") then reason = .nonHttps
  else ∃ (link : Link) (key : Bytes), link.hostname = withoutFinalDot url.hostname ∧ link.pathname = url.pathname ∧
    link.query = url.query ∧ makePrefixKey gate.env.una link = some key ∧ Verdict tables key gate.mode reason

/-- The event pauses the request with the given id and URL. -/
def Pauses (event : CdpEvent) (requestId url : Bytes) : Prop :=
  event.method = ascii "Fetch.requestPaused" ∧
    ∃ params, event.params = some params ∧ gate.asRequestPaused params = .parsed ⟨requestId, url⟩

/-- The event asks for the credentials of the request with the given id. -/
def Challenges (event : CdpEvent) (requestId : Bytes) (source : Option Bytes) : Prop :=
  event.method = ascii "Fetch.authRequired" ∧
    ∃ params, event.params = some params ∧ gate.asAuthRequired params = .parsed ⟨requestId, source⟩

/-- A request goes on only if its URL is none of the policy's or is allowed; it is blocked only if the policy blocks its
URL, and then with the page for the policy's reason and its length; and only a proxy is given the id of the run. -/
def Proper (turn : FetchTurn gate.env.una) : FetchReply → Prop
  | .continueRequest requestId => ∃ urlText text, gate.Pauses turn.event requestId urlText ∧
      fromBytes gate.env.una urlText = some text ∧
      ∀ url ∈ gate.accessPolicyUrlFromText text, gate.Decided turn.tables url .allowed
  | .fulfillRequest requestId responseCode responseHeaders body responsePhrase => ∃ urlText text url reason page,
      gate.Pauses turn.event requestId urlText ∧ fromBytes gate.env.una urlText = some text ∧
      url ∈ gate.accessPolicyUrlFromText text ∧ reason ≠ .allowed ∧ gate.Decided turn.tables url reason ∧
      FetchReply.fulfillRequest requestId responseCode responseHeaders body responsePhrase =
        gate.blockedReply requestId reason ∧
      BlockPage reason page ∧ responseCode = 403 ∧ body = gate.base64Encode page ∧ responsePhrase = ascii "Forbidden" ∧
      responseHeaders = [(ascii "Content-Type", ascii "text/plain; charset=utf-8"),
        (ascii "Content-Length", natText page.length), (ascii "Cache-Control", ascii "no-store")]
  | .continueWithAuth requestId response => ∃ source, gate.Challenges turn.event requestId source ∧
      response = if source = none ∨ source = some (ascii "Proxy") then .provideCredentials gate.runId (ascii "x")
        else .default

/-- `HandleSessionEvent` for the Fetch events. -/
def handleFetch (turn : FetchTurn gate.env.una) : Intercepted :=
  if turn.event.method = ascii "Fetch.authRequired" then gate.handleFetchAuthRequired turn
  else gate.handleFetchRequestPaused turn

section Handlers
variable {gate : FetchGate} {turn : FetchTurn gate.env.una} {sent : Option FetchReply} {failure : Option Bytes}

private theorem webUrl_parts (url : Access.Url gate.rules) :
    (gate.webUrl url).hostname = url.hostname ∧ (gate.webUrl url).pathname = url.pathname ∧
      (gate.webUrl url).query = url.query := by
  unfold webUrl
  split
  · rename_i hscheme
    exact gate.withProtocol_web url http (.inl ⟨hscheme, rfl⟩)
  · split
    · rename_i hscheme
      exact gate.withProtocol_web url https (.inr ⟨hscheme, rfl⟩)
    · exact ⟨rfl, rfl, rfl⟩

private theorem linkFromInterceptionUrl_ok {url : Access.Url gate.rules} {link : Link}
    (h : gate.linkFromInterceptionUrl url = .ok link) :
    link.hostname = withoutFinalDot url.hostname ∧ link.pathname = url.pathname ∧ link.query = url.query := by
  obtain ⟨hhostname, hpathname, hquery⟩ := webUrl_parts url
  unfold linkFromInterceptionUrl at h
  split at h
  · rename_i link' hlink
    cases h
    obtain ⟨_, hpath, hsearch⟩ := normalizeUrl_spec hlink
    refine ⟨?_, hpath.trans hpathname, hsearch.trans hquery⟩
    unfold normalizeUrl at hlink
    split at hlink
    · cases hlink
    · rename_i hrefusal
      split at hlink
      · cases hlink
      · cases hlink
        rw [← hhostname]
        exact (Access.Url.normalized_parts hrefusal).1
  · cases h

theorem evaluateAccessPolicy_decided {url : Access.Url gate.rules} {decision : AccessDecision}
    (h : gate.evaluateAccessPolicy turn.repo url = .ok decision) :
    gate.Decided turn.tables url decision.reason ∧ (decision.allowed = true ↔ decision.reason = .allowed) := by
  unfold evaluateAccessPolicy at h
  unfold Decided
  split at h
  · rename_i hscheme
    cases h
    rw [if_pos hscheme]
    exact ⟨rfl, by decide⟩
  · rename_i hscheme
    rw [if_neg hscheme]
    split at h
    · cases h
    · rename_i link hlink
      obtain ⟨hhostname, hpathname, hquery⟩ := linkFromInterceptionUrl_ok hlink
      split at h
      · cases h
      · rename_i key hkey
        split at h
        · rename_i decision' hdecision
          cases h
          obtain ⟨hverdict, hallowed⟩ := turn.evaluatePrefix_verdict hdecision
          exact ⟨⟨link, key, hhostname, hpathname, hquery, hkey, hverdict⟩, hallowed⟩
        · cases h

/-- What is sent is the reply; only one that is not delivered is noted. -/
private theorem sendReply_done {reply : FetchReply} {delivered : Reply gate.env.una Unit}
    (h : gate.sendReply reply delivered = .done sent failure) : sent = some reply := by
  unfold sendReply at h
  split at h
  · cases h
    rfl
  · split at h
    · cases h
      rfl
    · cases h

/-- An event that does not parse is noted. -/
private theorem withParams_done {α : Type} {event : CdpEvent} {as : List (Bytes × Json) → Parsed α}
    {handle : α → Intercepted} (h : gate.withParams event as handle = .done sent failure) :
    (sent = none ∧ failure.isSome) ∨
      ∃ params dto, event.params = some params ∧ as params = .parsed dto ∧ handle dto = .done sent failure := by
  have hfailing {text : Option Bytes} (h : Intercepted.failing text = .done sent failure) :
      sent = none ∧ failure.isSome := by
    cases text with
    | none => cases h
    | some text =>
      cases h
      exact ⟨rfl, rfl⟩
  unfold withParams at h
  split at h
  · exact .inl (hfailing h)
  · rename_i params hparams
    split at h
    · exact .inl (hfailing h)
    · cases h
    · rename_i dto hdto
      exact .inr ⟨params, dto, hparams, hdto, h⟩

/-- A Fetch event is answered with a proper reply, or its error is noted. -/
theorem handleFetch_done (hfetch : turn.event.isFetch = true) (h : gate.handleFetch turn = .done sent failure) :
    (sent = none ∧ failure.isSome) ∨ ∃ reply, sent = some reply ∧ gate.Proper turn reply := by
  unfold handleFetch at h
  split at h
  · rename_i hmethod
    refine (withParams_done h).imp id ?_
    rintro ⟨params, dto, hparams, hdto, h⟩
    refine ⟨_, sendReply_done h, dto.source, ⟨hmethod, params, hparams, hdto⟩, ?_⟩
    rcases dto.source with _ | source
    · rfl
    · by_cases hproxy : source = ascii "Proxy"
      · simp [hproxy]
      · simp [hproxy]
  · rename_i hmethod
    have hpaused : turn.event.method = ascii "Fetch.requestPaused" := by
      simpa [CdpEvent.isFetch, hmethod] using hfetch
    rcases withParams_done h with hnone | ⟨params, dto, hparams, hdto, h⟩
    · exact .inl hnone
    · have hpauses : gate.Pauses turn.event dto.requestId dto.url := ⟨hpaused, params, hparams, hdto⟩
      split at h
      · cases h
        exact .inl ⟨rfl, rfl⟩
      · rename_i text htext
        split at h
        · rename_i hurl
          refine .inr ⟨_, sendReply_done h, dto.url, text, hpauses, htext, ?_⟩
          rw [hurl]
          nofun
        · rename_i url hurl
          split at h
          · rename_i text _
            cases text with
            | none => cases h
            | some text =>
              cases h
              exact .inl ⟨rfl, rfl⟩
          · rename_i decision hdecision
            obtain ⟨hdecided, hallowed⟩ := evaluateAccessPolicy_decided hdecision
            split at h
            · rename_i hallow
              refine .inr ⟨_, sendReply_done h, dto.url, text, hpauses, htext, ?_⟩
              rw [hurl]
              rintro url ⟨⟩
              exact hallowed.mp hallow ▸ hdecided
            · rename_i hblocked
              have hreason : decision.reason ≠ .allowed := fun hreason => hblocked (hallowed.mpr hreason)
              refine .inr ⟨_, sendReply_done h, dto.url, text, url, decision.reason,
                accessDecisionMessage decision.reason ++ ascii "\n", hpauses, htext, hurl, ?_⟩
              exact ⟨hreason, hdecided, rfl, exists_blockPage hreason, rfl, rfl, rfl, rfl⟩

end Handlers
end FetchGate

/-- The capture, the Fetch events taken so far and the replies sent. -/
structure GatedCapture (una : UniAlgo) where
  capture : CaptureState
  turns : List (FetchTurn una) := []
  sent : List FetchReply := []

inductive GatedAction (una : UniAlgo) where
  | fetch (turn : FetchTurn una)
  | other (action : CaptureAction)

/-- The actions in which the event loop takes an event of the Fetch domain. -/
def CaptureAction.isFetch : CaptureAction → Bool
  | fetchEvent _ => true
  | trackerEvent event _ => event.isFetch
  | _ => false

/-- The steps of a capture, with the handlers of the Fetch events in place of their outcome. -/
def FetchGate.step (gate : FetchGate) (parsers : EventParsers) (s : GatedCapture gate.env.una) :
    GatedAction gate.env.una → Option (GatedCapture gate.env.una)
  | .other action =>
    if action.isFetch then none else (captureStep gate.env parsers s.capture action).map ({ s with capture := · })
  | .fetch turn =>
    if !turn.event.isFetch then none
    else
      match gate.handleFetch turn with
      | .done sent failure =>
        (captureStep gate.env parsers s.capture (.fetchEvent failure)).map
          (⟨·, s.turns ++ [turn], s.sent ++ sent.toList⟩)
      | .threw =>
        match s.capture.loop with
        | .receiving => some ⟨{ s.capture with loop := .ended }, s.turns ++ [turn], s.sent⟩
        | _ => none
      | .aborted => none

/-- No further event will be taken. -/
def CaptureState.Closed (s : CaptureState) : Prop := s.interceptionError.isSome ∨ s.loop = .ended

/-- An event is taken only while no error is recorded, and a capture that is closed stays so. -/
structure KeepsClosed (s t : CaptureState) : Prop where
  receiving : (s.loop = .receiving → s.interceptionError = none) → t.loop = .receiving → t.interceptionError = none
  closed : s.Closed → t.Closed

private theorem waitStep_loop {s t : CaptureState} (h : s.waitStep = some t) :
    t.loop = s.loop ∧ t.interceptionError = s.interceptionError := by
  unfold CaptureState.waitStep at h
  split at h
  · cases h
    unfold CaptureState.evaluate
    split <;> exact ⟨rfl, rfl⟩
  · split at h <;> cases h <;> exact ⟨rfl, rfl⟩
  · split at h <;> cases h <;> exact ⟨rfl, rfl⟩
  · cases h
    exact ⟨rfl, rfl⟩
  · cases h
    exact ⟨rfl, rfl⟩
  · split at h <;> cases h
    exact ⟨rfl, rfl⟩
  · cases h

theorem KeepsClosed.of_same {s t : CaptureState} (hloop : t.loop = s.loop)
    (herror : t.interceptionError = s.interceptionError) : KeepsClosed s t := by
  refine ⟨?_, ?_⟩
  · rw [hloop, herror]
    exact id
  · unfold CaptureState.Closed
    rw [hloop, herror]
    exact id

/-- The loop moves on from where it neither has ended nor goes to receive. -/
theorem KeepsClosed.of_moved {s t : CaptureState} (hfrom : s.loop ≠ .ended) (hto : t.loop ≠ .receiving)
    (herror : s.interceptionError.isSome → t.interceptionError.isSome) : KeepsClosed s t :=
  ⟨fun _ h => absurd h hto, fun h => .inl (herror (h.resolve_right hfrom))⟩

theorem noteInterceptionError_keeps (s : CaptureState) (reason : Bytes) (last : Bool) (h : s.loop ≠ .ended) :
    KeepsClosed s (s.noteInterceptionError reason last) ∧ (s.noteInterceptionError reason last).interceptionError.isSome := by
  unfold CaptureState.noteInterceptionError
  split
  · rename_i hsome
    exact ⟨.of_moved h (by simp) id, hsome⟩
  · exact ⟨.of_moved h (by simp) fun _ => rfl, rfl⟩

theorem captureStep_keeps {env : CaptureEnv} {parsers : EventParsers} {s t : CaptureState} {action : CaptureAction}
    (h : captureStep env parsers s action = some t) : KeepsClosed s t := by
  cases action with
  | prepare call =>
    simp only [captureStep] at h
    split at h
    · obtain ⟨tracker, _, rfl⟩ := Option.map_eq_some_iff.mp h
      exact .of_same rfl rfl
    · cases h
  | waitForPredicate predicate message =>
    simp only [captureStep] at h
    split at h
    · cases h
      exact .of_same rfl rfl
    · cases h
  | wait =>
    obtain ⟨hloop, herror⟩ := waitStep_loop h
    exact .of_same hloop herror
  | timeOut =>
    simp only [captureStep] at h
    split at h
    · split at h
      · cases h
        exact .of_same rfl rfl
      · cases h
    · cases h
  | trackerEvent event clocks =>
    simp only [captureStep] at h
    split at h
    · rename_i hloop _
      cases h
      exact .of_moved (by simp [hloop]) (by simp) id
    · rename_i hloop _
      cases h
      exact .of_moved (by simp [hloop]) (by simp) id
    · cases h
  | fetchEvent failure =>
    simp only [captureStep] at h
    split at h
    · rename_i hloop
      cases h
      exact .of_moved (by simp [hloop]) (by simp) id
    · rename_i hloop
      cases h
      exact (noteInterceptionError_keeps _ _ _ (by simp [hloop])).1
    · cases h
  | waitEventFails stopping reason =>
    simp only [captureStep] at h
    split at h
    · rename_i hloop
      cases h
      split
      · exact .of_moved (by simp [hloop]) (by simp) id
      · exact (noteInterceptionError_keeps _ _ _ (by simp [hloop])).1
    · cases h
  | failTracker =>
    simp only [captureStep] at h
    split at h
    · rename_i hloop
      cases h
      exact .of_moved (by simp [hloop]) (by simp) id
    · cases h
  | noteEventProgress =>
    simp only [captureStep] at h
    split at h
    · rename_i last hloop
      cases h
      refine .of_moved (by simp [hloop]) ?_ id
      cases last <;> simp
    · cases h
  | nextTurn stopping =>
    simp only [captureStep] at h
    split at h
    · rename_i hloop
      cases h
      refine ⟨fun _ hreceiving => ?_, fun hclosed => .inl (hclosed.resolve_right (by simp [hloop]))⟩
      have hno : ¬ (stopping || s.currentWaitError.isSome) = true := by
        intro herror
        rw [if_pos herror] at hreceiving
        cases hreceiving
      simp only [Bool.or_eq_true, not_or, Option.not_isSome_iff_eq_none] at hno
      exact (Option.or_eq_none_iff.mp hno.2).1
    · cases h

/-- The Fetch events taken are answered in their order, but for the last one if nothing is taken after it. -/
structure Gated (gate : FetchGate) (s : GatedCapture gate.env.una) : Prop where
  receiving : s.capture.loop = .receiving → s.capture.interceptionError = none
  answered : ∃ answered, List.Forall₂ gate.Proper answered s.sent ∧
    (s.turns = answered ∨ ∃ turn, s.turns = answered ++ [turn] ∧ s.capture.Closed)

section Steps
variable {gate : FetchGate} {parsers : EventParsers} {s t : GatedCapture gate.env.una}

private theorem fetchEvent_receiving {env : CaptureEnv} {s t : CaptureState} {failure : Option Bytes}
    (h : captureStep env parsers s (.fetchEvent failure) = some t) :
    s.loop = .receiving ∧ (failure.isSome → t.Closed) := by
  simp only [captureStep] at h
  split at h
  · exact ⟨‹_›, by simp⟩
  · rename_i hloop
    cases h
    exact ⟨hloop, fun _ => .inl (noteInterceptionError_keeps _ _ _ (by simp [hloop])).2⟩
  · cases h

/-- While the loop receives, every event taken has its answer. -/
private theorem Gated.all_answered (h : Gated gate s) (hloop : s.capture.loop = .receiving) :
    List.Forall₂ gate.Proper s.turns s.sent := by
  obtain ⟨answered, hproper, rfl | ⟨turn, _, hclosed⟩⟩ := h.answered
  · exact hproper
  · rcases hclosed with herror | hended
    · rw [h.receiving hloop] at herror
      cases herror
    · rw [hloop] at hended
      cases hended

theorem Gated.step {action : GatedAction gate.env.una} (h : Gated gate s) (hstep : gate.step parsers s action = some t) :
    Gated gate t := by
  cases action with
  | other action =>
    simp only [FetchGate.step] at hstep
    split at hstep
    · cases hstep
    · obtain ⟨capture, hcapture, rfl⟩ := Option.map_eq_some_iff.mp hstep
      obtain ⟨hreceiving, hclosed⟩ := captureStep_keeps hcapture
      obtain ⟨answered, hproper, hturns⟩ := h.answered
      exact ⟨hreceiving h.receiving, answered, hproper, hturns.imp id fun ⟨turn, heq, hc⟩ => ⟨turn, heq, hclosed hc⟩⟩
  | fetch turn =>
    simp only [FetchGate.step] at hstep
    split at hstep
    · cases hstep
    · rename_i hfetch
      have hfetch : turn.event.isFetch = true := by simpa using hfetch
      split at hstep
      · rename_i sent failure hdone
        obtain ⟨capture, hcapture, rfl⟩ := Option.map_eq_some_iff.mp hstep
        obtain ⟨hloop, hnoted⟩ := fetchEvent_receiving hcapture
        have hproper := h.all_answered hloop
        refine ⟨(captureStep_keeps hcapture).receiving h.receiving, ?_⟩
        rcases FetchGate.handleFetch_done hfetch hdone with ⟨rfl, hfailure⟩ | ⟨reply, rfl, hreply⟩
        · exact ⟨s.turns, by simpa using hproper, .inr ⟨turn, rfl, hnoted hfailure⟩⟩
        · exact ⟨s.turns ++ [turn], List.rel_append hproper (.cons hreply .nil), .inl rfl⟩
      · split at hstep
        · rename_i hloop
          cases hstep
          exact ⟨by simp, s.turns, h.all_answered hloop, .inr ⟨turn, rfl, .inr rfl⟩⟩
        · cases hstep
      · cases hstep

end Steps

/-- In every order of the steps of a capture, the replies to the Fetch events are proper and answer one event each, in
the order of the events; only the last event may be left without an answer, and then the event loop takes no other. -/
theorem fetches_answered (gate : FetchGate) (parsers : EventParsers) (tracker : TrackerData)
    (actions : List (GatedAction gate.env.una)) (s : GatedCapture gate.env.una)
    (hrun : Run (gate.step parsers) always ⟨{ tracker := tracker }, [], []⟩ actions s) :
    ∃ answered, List.Forall₂ gate.Proper answered s.sent ∧
      (s.turns = answered ∨ ∃ turn, s.turns = answered ++ [turn] ∧ s.capture.Closed) :=
  (hrun.invariant (Gated gate) ⟨fun _ => rfl, [], .nil, .inl rfl⟩ fun _ _ _ _ hstep h => h.step hstep).answered

/-- `set_protocol` on URLs in standard form. -/
private def plainProtocol (url : Access.Url plainRules) (scheme : Bytes) : Access.Url plainRules :=
  if h : HttpParts plainRules url.hostname url.pathname url.query then { url with scheme := scheme, standard := fun _ => h }
  else url

/-- A gate whose only paused request is for `http://a.b/x`. The texts it encodes have the same digits in both alphabets
of Base64 and need no padding. -/
private def smallGate : FetchGate where
  env := seedEnv
  rules := plainRules
  parser := plainParser
  withProtocol := plainProtocol
  asRequestPaused _ := .parsed ⟨ascii "1", ascii "http://a.b/x"⟩
  asAuthRequired _ := .parsed ⟨ascii "1", none⟩
  base64Encode := Base64Url.encode
  httpsOnly := false
  allowlistOnly := false
  urlBytesMax := 2048
  runId := ascii "run"
  withProtocol_web url scheme _ := by
    unfold plainProtocol
    split <;> exact ⟨rfl, rfl, rfl⟩

/-- The request is paused while its prefix is in the denylist. -/
private def deniedFetch : FetchTurn smallGate.env.una :=
  ⟨seedEvent "Fetch.requestPaused", ⟨[PolicyTables.overriddenRow], []⟩, none, none, .ok ()⟩

/-- What the browser is sent for it. -/
private def denylistPage : FetchReply :=
  .fulfillRequest (ascii "1") 403 [(ascii "Content-Type", ascii "text/plain; charset=utf-8"),
    (ascii "Content-Length", ascii "24"), (ascii "Cache-Control", ascii "no-store")]
    (ascii "bGluayBwcmVmaXggaW4gZGVueWxpc3QK") (ascii "Forbidden")

theorem fetches_answered_denied : ∃ s : GatedCapture smallGate.env.una, s.sent = [denylistPage] ∧
    ∃ answered, List.Forall₂ smallGate.Proper answered s.sent ∧
      (s.turns = answered ∨ ∃ turn, s.turns = answered ++ [turn] ∧ s.capture.Closed) := by
  have hexec : (execute (smallGate.step seedParsers)
      ⟨{ tracker := { sessionId := ascii "S", targetId := ascii "T", pageId := [] } }, [], []⟩
      [.fetch deniedFetch, .other .noteEventProgress, .other (.nextTurn false)]).any
      (fun s => s.sent = [denylistPage]) = true := by decide +kernel
  obtain ⟨s, hrun, hsent⟩ := Run.exists_of_execute _ hexec
  exact ⟨s, of_decide_eq_true hsent, fetches_answered smallGate seedParsers _ _ s hrun⟩

end Webshot.Crawler
