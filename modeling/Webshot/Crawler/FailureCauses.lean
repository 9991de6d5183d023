import Webshot.Crawler.CaptureFailures
import Webshot.Crawler.RetainedLogs
import Webshot.Crawler.RunResults

/-! Whether the cause of a failed capture, a spent budget, is what `ExecuteRun` reports. -/
namespace Webshot.Crawler
open Text Foundation.TransitionRuns

variable {env : CaptureEnv} {τ : Type} [DecidableEq τ]

/-- The capture fails, and by what; a start that fails is known by its words before anything that it quotes. -/
inductive FailsBy (env : CaptureEnv) (run : CaptureRun τ env.una) : Failure → Prop where
  | noBrowser (problem : StartProblem) : run.browser = .error problem → FailsBy env run ⟨.worded, problem.words⟩
  | notConnected (files : BrowserFiles) : run.browser = .ok () → run.connected = .error files →
      FailsBy env run ⟨.worded, connectWords run.attempts⟩
  | notAttached (text : Str env.una) : run.browser = .ok () → run.connected = .ok () → run.attached = .error text →
      FailsBy env run ⟨.passedOn, text.bytes⟩
  | attached (failure : Failure) : run.browser = .ok () → run.connected = .ok () → run.attached = .ok () →
      (env.captureAttachedTarget run.settings run.page run.proxy.error).run = some (.error failure) →
      FailsBy env run failure

/-- What the start of the browser and the connection to it quote is text, as it is cut. -/
def StartQuotable {una : UniAlgo} (run : CaptureRun τ una) : Prop :=
  match run.browser with
  | .error problem => problem.Quotable
  | .ok _ => ConnectQuotable run.attempts run.connected

/-- There are diagnostics: the failure is not one from before Chromium was started. -/
def Diagnosed {una : UniAlgo} (run : CaptureRun τ una) : Prop :=
  match run.browser with
  | .error problem => problem.Diagnosed
  | .ok _ => True

/-- The failing step itself names the proxy's limit: it was the last look at the proxy, which had noted the refused
claim before anything else, or it passed on a text that begins in the same way. -/
def NetLimitNamed (run : CaptureRun τ env.una) (failure : Failure) : Prop :=
  match failure.origin with
  | .worded | .retainBody => False
  | .passedOn => startsWith failure.text netLimitPrefix = true
  | .proxyCheck => run.proxy.notes.head?.any ProxyNote.isNetLimit = true

/-- `ExecuteRun` reports a spent budget as what it is, and the seed is not crawled again over http. -/
def CausesReported {Warc : Type} (makers : ArtifactMakers Warc) (ratio : Int) (cancelRequested : Bool)
    (run : CaptureRun τ env.una) (failure : Failure) : Prop :=
  ∃ out error,
    executeRun env makers ⟨run.settings.maxArchiveBytes, ratio⟩ run.settings.seedUrl.bytes cancelRequested
      (fun _ _ => ExceptT.mk ((env.captureViaProxy run).map .ok)) = some (.ok out) ∧
    out.error = some error ∧
    (failure.origin = .retainBody → error.kind = .archiveSizeLimit) ∧
    (failure.origin ≠ .retainBody → run.proxy.refusedClaim = true → error.kind = .proxy) ∧
    (failure.origin = .retainBody ∨ run.proxy.refusedClaim = true →
      shouldRetryWithHttp error = false ∧
      ∀ httpsOnly httpSeedUrl (runCrawlerAttempt : Bytes → CrawlerRunArtifacts),
        runCrawlerAttempt run.settings.seedUrl.bytes = out →
        (runCrawlerForContext env httpsOnly run.settings.seedUrl.bytes httpSeedUrl runCrawlerAttempt).1 =
          [run.settings.seedUrl.bytes])

omit [DecidableEq τ] in
theorem failsBy_sound (laws : TextLaws env.una) {run : CaptureRun τ env.una} {failure : Failure}
    (herror : ∀ reason, run.proxy.error = some reason →
      env.una.isValidUtf8 reason = true ∧ env.una.toNfcUtf8 reason = reason)
    (h : FailsBy env run failure) : failure.Sound env.una run.proxy.error := by
  cases h with
  | noBrowser problem _ => exact worded_sound env.una problem.words_own.own
  | notConnected files _ _ => exact worded_sound env.una (connectWords_own run.attempts).own
  | notAttached text _ _ _ => exact ⟨text.valid, text.normal, nofun, nofun, nofun⟩
  | attached failure _ _ _ hfailure => exact captureAttachedTarget_sound laws _ _ herror failure hfailure

/-- A reason behind the detail leaves its beginning alone. -/
theorem appendReason_extends (laws : TextLaws env.una) (words : Bytes) {detail : Bytes} {reason : Option Bytes}
    (hvalid : env.una.isValidUtf8 detail = true) (hnormal : env.una.toNfcUtf8 detail = detail) (hwords : IsAscii words)
    (hreason : ∀ text ∈ reason, env.una.isValidUtf8 text = true) :
    ∃ longer, env.appendReason detail (ascii ", " ++ words) reason = some longer ∧ Extends detail longer ∧
      env.una.isValidUtf8 longer = true ∧ env.una.toNfcUtf8 longer = longer := by
  cases reason with
  | none => exact ⟨detail, rfl, .refl detail, hvalid, hnormal⟩
  | some text =>
    have hmore := laws.valid_append _ _ (env.una.ascii_valid words hwords) (hreason text rfl)
    rw [CaptureEnv.appendReason, List.append_assoc]
    exact format_extends laws hvalid hnormal hmore

omit [DecidableEq τ] in
/-- The detail of a failed capture begins with the text of the failing step. -/
theorem failureDetail_extends (laws : TextLaws env.una) {run : CaptureRun τ env.una} {failure : Failure}
    (hreadable : run.files.Readable run.parseCgroupStats) (h : failure.Sound env.una run.proxy.error) :
    ∃ detail, env.failureDetail run failure = some detail ∧ Extends failure.text detail := by
  obtain ⟨detail, hdetail, hext, hvalid, hnormal⟩ :=
    makeErrorDetail_of_readable laws hreadable (some run.diagnosedProxy) h.valid h.normal
  have htracker : ∀ text ∈ (if failure.origin = .proxyCheck then none else run.failureTracker.mainRequestError),
      env.una.isValidUtf8 text = true := by
    intro text htext
    split at htext
    · cases htext
    · exact run.tracker_error_valid text htext
  have hproxy : ∀ text ∈ run.lastProxyError.map (·.bytes), env.una.isValidUtf8 text = true := by
    intro text htext
    obtain ⟨error, _, rfl⟩ := Option.map_eq_some_iff.mp htext
    exact error.valid
  obtain ⟨detail', hdetail', hext', hvalid', hnormal'⟩ :=
    appendReason_extends laws (ascii "tracker_error=") hvalid hnormal (.ofList rfl) htracker
  obtain ⟨detail'', hdetail'', hext'', _⟩ :=
    appendReason_extends laws (ascii "proxy_error=") hvalid' hnormal' (.ofList rfl) hproxy
  refine ⟨detail'', ?_, (hext.trans hext').trans hext''⟩
  have htrackerLabel : ascii ", tracker_error=" = ascii ", " ++ ascii "tracker_error=" := rfl
  have hproxyLabel : ascii ", proxy_error=" = ascii ", " ++ ascii "proxy_error=" := rfl
  simp only [CaptureEnv.failureDetail, hdetail, htrackerLabel, hdetail', hproxyLabel, hdetail'', Option.bind_eq_bind,
    Option.bind_some]

omit [DecidableEq τ] in
theorem readable_of_failureDetail {run : CaptureRun τ env.una} {failure : Failure} {detail : Bytes}
    (h : env.failureDetail run failure = some detail) : run.files.Readable run.parseCgroupStats := by
  obtain ⟨_, hdetail, _⟩ := Option.bind_eq_some_iff.mp h
  exact readable_of_makeErrorDetail hdetail

/-- The two texts begin as the same limits do. -/
def SameLimits (text longer : Bytes) : Prop :=
  startsWith longer sizeLimitPrefix = startsWith text sizeLimitPrefix ∧
    startsWith longer netLimitPrefix = startsWith text netLimitPrefix

theorem Extends.sameLimits {text longer : Bytes} (h : Extends text longer) : SameLimits text longer :=
  ⟨h.startsWith_eq (by decide), h.startsWith_eq (by decide)⟩

/-- Words that begin as no limit does, and a text that begins as they do. -/
theorem Worded.sameLimits {una : UniAlgo} {words text : Bytes} (hwords : NamesNoLimit words)
    (h : Worded una words text) : SameLimits words text := by
  have hfirst : ∀ start x, start.head? = some x → words.head? ≠ some x →
      startsWith text start = startsWith words start := by
    intro start x hstart hne
    have hnot : ∀ longer : Bytes, longer.head? = words.head? → startsWith longer start = false := by
      intro longer hhead
      rw [Bool.eq_false_iff]
      intro hprefix
      obtain ⟨rest, rfl⟩ := startsWith_iff.mp hprefix
      rw [List.head?_append, hstart] at hhead
      exact hne hhead.symm
    rw [hnot text h.head, hnot words rfl]
  exact ⟨hfirst sizeLimitPrefix 115 rfl hwords.notSize, hfirst netLimitPrefix 110 rfl hwords.own.2.2⟩

/-- What `CaptureViaProxy` makes of a failure: an error that begins as its text does, or an abort over something it
quotes. -/
structure ReportsFailure (env : CaptureEnv) (run : CaptureRun τ env.una) (failure : Failure) : Prop where
  reported : StartQuotable run → (Diagnosed run → run.files.Readable run.parseCgroupStats) →
    ∃ error, env.captureViaProxy run = some (.error error) ∧ SameLimits failure.text error.detail
  quotable : ∀ captured, env.captureViaProxy run = some captured →
    StartQuotable run ∧ (Diagnosed run → run.files.Readable run.parseCgroupStats)

omit [DecidableEq τ] in
/-- A browser that was started and not connected to, or connected to after what could be quoted. -/
theorem connectQuotable_of_captureViaProxy (hutf8 : env.una.ChecksUtf8) (laws : TextLaws env.una)
    {run : CaptureRun τ env.una} (hbrowser : run.browser = .ok ())
    {captured : Except CaptureError CaptureWithNetwork} (h : env.captureViaProxy run = some captured) :
    ConnectQuotable run.attempts run.connected := by
  rw [CaptureEnv.captureViaProxy, hbrowser] at h
  obtain ⟨started, hstarted, _⟩ := Option.bind_eq_some_iff.mp h
  cases hconnect : env.connectCdp run.attempts run.connected with
  | none =>
    rw [CaptureEnv.start, hconnect] at hstarted
    cases hstarted
  | some result => exact quotable_of_connectCdp hutf8 laws hconnect

omit [DecidableEq τ] in
theorem captureViaProxy_noBrowser {run : CaptureRun τ env.una} {problem : StartProblem}
    (hbrowser : run.browser = .error problem) (hutf8 : env.una.ChecksUtf8) (laws : TextLaws env.una) :
    ReportsFailure env run ⟨.worded, problem.words⟩ := by
  have hviaProxy : env.captureViaProxy run =
      (env.startError run.parseCgroupStats problem run.files run.diagnosedProxy).map fun text =>
        .error ⟨(fromBytes env.una text).getD (ascii "browser session creation failed"), none⟩ := by
    rw [CaptureEnv.captureViaProxy, hbrowser]
    simp only
    cases env.startError run.parseCgroupStats problem run.files run.diagnosedProxy <;> rfl
  have hquotable : StartQuotable run ↔ problem.Quotable := by rw [StartQuotable, hbrowser]
  have hdiagnosed : Diagnosed run ↔ problem.Diagnosed := by rw [Diagnosed, hbrowser]
  constructor
  · intro hquote hreadable
    obtain ⟨text, htext, hworded⟩ := startError_spec hutf8 laws (hquotable.mp hquote)
      (fun h => hreadable (hdiagnosed.mpr h)) run.diagnosedProxy
    refine ⟨_, by rw [hviaProxy, htext]; rfl, ?_⟩
    rw [fromBytes_of_valid hworded.valid, hworded.normal]
    exact hworded.sameLimits problem.words_own
  · intro captured hcaptured
    rw [hviaProxy] at hcaptured
    obtain ⟨text, htext, _⟩ := Option.map_eq_some_iff.mp hcaptured
    obtain ⟨hquote, hreadable⟩ := quotable_of_startError hutf8 htext
    exact ⟨hquotable.mpr hquote, fun h => hreadable (hdiagnosed.mp h)⟩

omit [DecidableEq τ] in
/-- An error with nothing but the diagnostics behind it. -/
theorem captureViaProxy_notStarted {run : CaptureRun τ env.una} {failure : Failure} (hutf8 : env.una.ChecksUtf8)
    (laws : TextLaws env.una) (hbrowser : run.browser = .ok ())
    (hstart : ConnectQuotable run.attempts run.connected →
      ∃ origin text, (env.start run).run = some (.error ⟨origin, text⟩) ∧ env.una.isValidUtf8 text = true ∧
        env.una.toNfcUtf8 text = text ∧ SameLimits failure.text text) : ReportsFailure env run failure := by
  have hquotable : StartQuotable run ↔ ConnectQuotable run.attempts run.connected := by rw [StartQuotable, hbrowser]
  have hdiagnosed : Diagnosed run := by
    rw [Diagnosed, hbrowser]
    trivial
  have hviaProxy : ∀ {origin text}, (env.start run).run = some (.error ⟨origin, text⟩) → env.captureViaProxy run =
      (env.makeErrorDetail run.parseCgroupStats text run.files (some run.diagnosedProxy)).map
        fun detail => .error ⟨detail, none⟩ := by
    intro origin text hstarted
    rw [CaptureEnv.captureViaProxy, hbrowser]
    simp only [CaptureEnv.capture, hstarted, Option.bind_eq_bind, Option.bind_some]
    cases env.makeErrorDetail run.parseCgroupStats text run.files (some run.diagnosedProxy) <;> rfl
  constructor
  · intro hquote hreadable
    obtain ⟨origin, text, hstarted, hvalid, hnormal, hsame⟩ := hstart (hquotable.mp hquote)
    obtain ⟨detail, hdetail, hext, _⟩ :=
      makeErrorDetail_of_readable laws (hreadable hdiagnosed) (some run.diagnosedProxy) hvalid hnormal
    refine ⟨⟨detail, none⟩, by rw [hviaProxy hstarted, hdetail]; rfl, ?_⟩
    exact ⟨hext.sameLimits.1.trans hsame.1, hext.sameLimits.2.trans hsame.2⟩
  · intro captured hcaptured
    have hquote := connectQuotable_of_captureViaProxy hutf8 laws hbrowser hcaptured
    obtain ⟨origin, text, hstarted, _⟩ := hstart hquote
    rw [hviaProxy hstarted] at hcaptured
    obtain ⟨detail, hdetail, _⟩ := Option.map_eq_some_iff.mp hcaptured
    exact ⟨hquotable.mpr hquote, fun _ => readable_of_makeErrorDetail hdetail⟩

omit [DecidableEq τ] in
theorem captureViaProxy_attached {run : CaptureRun τ env.una} {failure : Failure} (hbrowser : run.browser = .ok ())
    (hstarted : (env.start run).run = some (.ok ()))
    (hattached : (env.captureAttachedTarget run.settings run.page run.proxy.error).run = some (.error failure)) :
    env.captureViaProxy run = (env.failureDetail run failure).map fun detail => .error
      ⟨detail, if failure.origin = .proxyCheck then none else run.failureTracker.currentSeedProbe⟩ := by
  rw [CaptureEnv.captureViaProxy, hbrowser]
  simp only [CaptureEnv.capture, hstarted, hattached, Option.bind_eq_bind, Option.bind_some]
  cases env.failureDetail run failure <;> rfl

omit [DecidableEq τ] in
theorem start_connected (hutf8 : env.una.ChecksUtf8) (laws : TextLaws env.una) {run : CaptureRun τ env.una}
    (hconnected : run.connected = .ok ()) (hquote : ConnectQuotable run.attempts run.connected) :
    (env.start run).run = (env.waited run.attached).run := by
  rw [CaptureEnv.start, hconnected, connectCdp_connected hutf8 laws hquote.1]
  rfl

omit [DecidableEq τ] in
theorem captureViaProxy_fails (hutf8 : env.una.ChecksUtf8) (laws : TextLaws env.una) {run : CaptureRun τ env.una}
    {failure : Failure} (hfails : FailsBy env run failure) (hsound : failure.Sound env.una run.proxy.error) :
    ReportsFailure env run failure := by
  cases hfails with
  | noBrowser problem hbrowser => exact captureViaProxy_noBrowser hbrowser hutf8 laws
  | notConnected files hbrowser hconnected =>
    refine captureViaProxy_notStarted hutf8 laws hbrowser fun hquote => ?_
    obtain ⟨text, htext, hworded⟩ := connectCdp_failed hutf8 laws (hconnected ▸ hquote)
    refine ⟨.worded, text, ?_, hworded.valid, hworded.normal, hworded.sameLimits (connectWords_own run.attempts)⟩
    rw [CaptureEnv.start, hconnected, htext]
    rfl
  | notAttached text hbrowser hconnected hattached =>
    refine captureViaProxy_notStarted hutf8 laws hbrowser fun hquote => ?_
    refine ⟨.passedOn, text.bytes, ?_, text.valid, text.normal, rfl, rfl⟩
    rw [start_connected hutf8 laws hconnected hquote, hattached]
    rfl
  | attached failure hbrowser hconnected hregistered hattached =>
    have hquotable : StartQuotable run ↔ ConnectQuotable run.attempts run.connected := by
      rw [StartQuotable, hbrowser]
    have hdiagnosed : Diagnosed run := by
      rw [Diagnosed, hbrowser]
      trivial
    have hviaProxy : ConnectQuotable run.attempts run.connected → _ := fun hquote =>
      captureViaProxy_attached hbrowser
        ((start_connected hutf8 laws hconnected hquote).trans (by rw [hregistered]; rfl)) hattached
    constructor
    · intro hquote hreadable
      obtain ⟨detail, hdetail, hext⟩ := failureDetail_extends laws (hreadable hdiagnosed) hsound
      exact ⟨⟨detail, _⟩, by rw [hviaProxy (hquotable.mp hquote), hdetail]; rfl, hext.sameLimits⟩
    · intro captured hcaptured
      have hquote := connectQuotable_of_captureViaProxy hutf8 laws hbrowser hcaptured
      rw [hviaProxy hquote] at hcaptured
      obtain ⟨detail, hdetail, _⟩ := Option.map_eq_some_iff.mp hcaptured
      exact ⟨hquotable.mpr hquote, fun _ => readable_of_failureDetail hdetail⟩

section Reports
/-- `ExecuteRun` over a capture that fails. -/
theorem executeRun_failed (env : CaptureEnv) {Warc : Type} (makers : ArtifactMakers Warc) (limits : RunLimits)
    {limit payload : Int} (seedUrl : Bytes) (cancelRequested : Bool)
    (hlimit : maxDownBytes limits.maxArchiveBytes limits.networkDownBytesRatioMax = some limit)
    (hpayload : computeCdpMaxRemotePayloadBytes limits.maxArchiveBytes = some payload)
    (captured : Option (Except CaptureError CaptureWithNetwork))
    (hcaptured : ∀ success, captured ≠ some (.ok success)) :
    executeRun env makers limits seedUrl cancelRequested (fun _ _ => ExceptT.mk (captured.map .ok)) =
      captured.bind fun result => match result with
        | .error error => some (.ok (.failCapture env error))
        | .ok _ => none := by
  match captured, hcaptured with
  | none, _ =>
    simp only [executeRun, executeBody, hlimit, hpayload]
    rfl
  | some (.error error), _ =>
    simp only [executeRun, executeBody, hlimit, hpayload]
    rfl
  | some (.ok success), hcaptured => exact absurd rfl (hcaptured success)

/-- A message of the browser's that overflows its limit is an abort before the capture. -/
theorem executeRun_overflow (env : CaptureEnv) {Warc : Type} (makers : ArtifactMakers Warc) (limits : RunLimits)
    (seedUrl : Bytes) (cancelRequested : Bool) (capture : Int → Int → Throwing (Except CaptureError CaptureWithNetwork))
    (hpayload : computeCdpMaxRemotePayloadBytes limits.maxArchiveBytes = none) :
    executeRun env makers limits seedUrl cancelRequested capture = none := by
  cases hlimit : maxDownBytes limits.maxArchiveBytes limits.networkDownBytesRatioMax with
  | none =>
    simp only [executeRun, executeBody, hlimit]
    rfl
  | some limit =>
    simp only [executeRun, executeBody, hlimit, hpayload]
    rfl

/-- The kind of the error goes by the beginning of the failing step's text. -/
theorem failCapture_kind (env : CaptureEnv) (error : CaptureError) {text : Bytes} (h : SameLimits text error.detail) :
    ∃ reported, (CrawlerRunArtifacts.failCapture env error).error = some reported ∧
      reported.seedProbe = error.seedProbe ∧
      reported.kind = if startsWith text sizeLimitPrefix then .archiveSizeLimit
        else if startsWith text netLimitPrefix then .proxy else .navigation := by
  refine ⟨_, rfl, rfl, ?_⟩
  rw [← h.1, ← h.2]

/-- A text does not begin as both limits do. -/
theorem not_both_limits {text : Bytes} (h : startsWith text netLimitPrefix = true) :
    startsWith text sizeLimitPrefix = false := by
  rw [Bool.eq_false_iff]
  intro hsize
  obtain ⟨rest, rfl⟩ := startsWith_iff.mp hsize
  obtain ⟨rest', hrest⟩ := startsWith_iff.mp h
  exact absurd (List.cons.inj hrest).1 (by decide)

theorem shouldRetryWithHttp_of_kind {error : CrawlerError} (h : error.kind ≠ .navigation) :
    shouldRetryWithHttp error = false := if_pos h

/-- A seed whose error is not to be tried again over http is crawled once. -/
theorem crawled_once {out : CrawlerRunArtifacts} {error : CrawlerError} (herror : out.error = some error)
    (hretry : shouldRetryWithHttp error = false) (httpsOnly : Bool) {httpsSeedUrl : Bytes} (httpSeedUrl : Bytes)
    {runCrawlerAttempt : Bytes → CrawlerRunArtifacts} (hattempt : runCrawlerAttempt httpsSeedUrl = out) :
    (runCrawlerForContext env httpsOnly httpsSeedUrl httpSeedUrl runCrawlerAttempt).1 = [httpsSeedUrl] := by
  have hstore : tryStoreSuccess env out = .unsuccessful := tryStoreSuccess_of_error (by rw [herror]; rfl)
  simp only [runCrawlerForContext, hattempt, hstore, herror, hretry, Bool.not_false, Bool.or_true, if_true]

/-- The text of a failure begins as a net limit does exactly if the failing step names the proxy's limit. -/
theorem netLimitNamed_iff (laws : TextLaws env.una) {limit : Int} {run : CaptureRun τ env.una} {failure : Failure}
    {actions : List (ProxyAction τ env.una)} (hproxy : Run (proxyStep env limit) always {} actions run.proxy)
    (hsound : failure.Sound env.una run.proxy.error) (horigin : failure.origin ≠ .retainBody) :
    NetLimitNamed run failure ↔ startsWith failure.text netLimitPrefix = true := by
  unfold NetLimitNamed
  cases hcase : failure.origin with
  | worded => simp only [hsound.worded hcase, Bool.false_eq_true]
  | retainBody => exact absurd hcase horigin
  | passedOn => exact Iff.rfl
  | proxyCheck => rw [error_netLimit laws hproxy (hsound.proxied hcase)]

/-- Of a failure that is no refused body, `kProxy` is reported exactly if the failing step names the proxy's limit. -/
theorem proxy_kind_iff (laws : TextLaws env.una) {limit : Int} {run : CaptureRun τ env.una} {failure : Failure}
    {actions : List (ProxyAction τ env.una)} (hproxy : Run (proxyStep env limit) always {} actions run.proxy)
    (hsound : failure.Sound env.una run.proxy.error) (horigin : failure.origin ≠ .retainBody) {kind : CrawlerErrorKind}
    (hkind : kind = if startsWith failure.text sizeLimitPrefix then .archiveSizeLimit
      else if startsWith failure.text netLimitPrefix then .proxy else .navigation) :
    kind = .proxy ↔ NetLimitNamed run failure := by
  rw [netLimitNamed_iff laws hproxy hsound horigin, hkind]
  constructor
  · intro hproxied
    split at hproxied
    · cases hproxied
    · split at hproxied
      · assumption
      · cases hproxied
  · intro hnet
    rw [not_both_limits hnet, hnet]
    rfl

/-- A page that answers every command, with the given load and the given document. -/
def plainPage (waitForLoad : Except (Str normalUna) Unit) (html : Bytes) : PageReplies normalUna where
  command _ := .ok ()
  frameId := .ok (.ofAscii normalUna (ascii "F") (.ofList rfl))
  navigate := .ok ⟨none⟩
  waitForLoad := waitForLoad
  postLoadDelayReached := false
  behaviorTimeLeft := true
  siteBehavior := .ok ()
  waitForIdle := .ok ()
  pageExtraDelayReached := false
  waitForMainDocument := .ok ()
  domState := .ok ⟨ascii "https://a/", none, html⟩
  responseBody _ := none
  bodyTracker := { sessionId := [], targetId := [], pageId := [] }
  resourcesTracker := { sessionId := [], targetId := [], pageId := [] }
  exchangeTracker := { sessionId := [], targetId := [], pageId := [] }

/-- A run that leaves no logs. -/
def plainRun (maxArchiveBytes : Int) (page : PageReplies normalUna) (proxy : EgressProxy Nat normalUna)
    (reading : ProxyReading normalUna) (failureTracker : TrackerData)
    (tracker_error_valid : ∀ reason ∈ failureTracker.mainRequestError, normalUna.isValidUtf8 reason = true) :
    CaptureRun Nat normalEnv.una where
  settings := ⟨.ofAscii normalUna (ascii "https://a/") (.ofList rfl), 100, ⟨0, 0, 0, 0⟩, maxArchiveBytes,
    fun _ => none⟩
  browser := .ok ()
  attempts := []
  connected := .ok ()
  attached := .ok ()
  page := page
  proxy := proxy
  parseCgroupStats _ := none
  files := ⟨none, none, none, none, none, none, none, none, true, true, true, true⟩
  diagnosedProxy := reading
  failureTracker := failureTracker
  tracker_error_valid := tracker_error_valid
  lastProxyError := reading.error
  proxyDownBytes := reading.downBytes

theorem plainRun_proxy (maxArchiveBytes : Int) (page : PageReplies normalUna) (proxy : EgressProxy Nat normalUna)
    (reading : ProxyReading normalUna) (tracker : TrackerData)
    (hvalid : ∀ reason ∈ tracker.mainRequestError, normalUna.isValidUtf8 reason = true) :
    (plainRun maxArchiveBytes page proxy reading tracker hvalid).proxy = proxy := rfl

/-- A document of three bytes where two are allowed. -/
def largeBodyRun : CaptureRun Nat normalEnv.una :=
  plainRun 2 (plainPage (.ok ()) (ascii "abc")) {} ⟨0, none⟩ { sessionId := [], targetId := [], pageId := [] } nofun

/-- The failure of the attached target, by a test of what it returns. -/
private theorem attached_of_test {α : Type} {captured : Option (Except Failure α)} {failure : Failure}
    (h : (captured.any fun result =>
      match result with
      | .error found => found = failure
      | .ok _ => false) = true) : captured = some (.error failure) := by
  obtain ⟨result, hresult, htest⟩ := (Option.any_eq_true _ _).mp h
  match result, htest with
  | .error found, htest =>
    have hsame : found = failure := of_decide_eq_true htest
    rw [hresult, hsame]

/-- The main document has not been answered when its connection is closed. -/
def closedTracker : TrackerData :=
  { sessionId := ascii "S", targetId := ascii "T", pageId := [], mainRequestId := some (ascii "1"),
    mainRequestError := some (ascii "net::ERR_CONNECTION_CLOSED") }

/-- The limit of the proxy is used up, chunk by chunk, and the next claim is refused. -/
def spendLimit : List (ProxyAction Nat normalUna) :=
  (List.replicate 64 [.sendBudgeted 0 16384, .claim 0, .sendAllReturns 0 16384]).flatten ++
    [.sendBudgeted 0 16384, .claim 0, .noteRefusal 0, .stop 0]

def spentProxy : EgressProxy Nat normalEnv.una := (execute (proxyStep normalEnv 1048576) {} spendLimit).getD {}

/-- The diagnostics find the counter at its limit and the refused claim as the proxy's error. -/
def spentReading : ProxyReading normalUna :=
  ⟨1048576, some (.ofAscii normalUna (ascii "net_limit: proxy downstream bytes 1048576 exceeded limit 1048576")
    (.ofList rfl))⟩

/-- The run in which the proxy then closes the connection of the main document. -/
def closedRun : CaptureRun Nat normalEnv.una :=
  plainRun 1048576 (plainPage (.error (.ofAscii normalUna (ascii "net::ERR_CONNECTION_CLOSED") (.ofList rfl))) [])
    spentProxy spentReading closedTracker (by
      intro reason hreason
      cases hreason
      exact normalUna.ascii_valid _ (.ofList rfl))

end Reports
end Webshot.Crawler
