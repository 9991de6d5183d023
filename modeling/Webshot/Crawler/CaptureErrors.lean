import Mathlib.Data.List.Lex
import Mathlib.Order.Fin.Basic
import Webshot.Crawler.BrowserStart
import Webshot.Crawler.PageTracker

/-! `CaptureSession::Capture`: where a capture can fail, and the text that is made of the failure. -/
namespace Webshot.Crawler
open Text Foundation.JsonText Foundation.KeyedMaps

/-- Where the text of a failure comes from: the step's own words, the words of the browser or of a wait, `RetainBody`,
or the last look at the proxy. -/
inductive Origin where
  | worded
  | passedOn
  | retainBody
  | proxyCheck
  deriving DecidableEq

/-- The error `CaptureAttachedTarget` returns, with its origin. -/
structure Failure where
  origin : Origin
  text : Bytes
  deriving DecidableEq

/-- A stretch of the capture: it may abort, return an error or go on. -/
abbrev Stretch (α : Type) := ExceptT Failure Option α

def failWith {α : Type} (origin : Origin) (text : Bytes) : Stretch α := throw ⟨origin, text⟩

structure CaptureTimings where
  postLoadDelay : Nat
  netIdleWait : Nat
  pageExtraDelay : Nat
  behaviorTimeout : Nat

structure NavigateReply (una : UniAlgo) where
  errorText : Option (Str una)

structure DomStateReply where
  finalUrl : Bytes
  title : Option Bytes
  html : Bytes

structure BodyReply where
  body : Bytes
  base64Encoded : Bool

/-- An error of the CDP client is its detail. -/
abbrev Reply (una : UniAlgo) (α : Type) := Except (Option (Str una)) α

/-- What the browser, the waits and the clock answer to the steps of a capture, and the tracker as the last of them
find it. -/
structure PageReplies (una : UniAlgo) where
  command : Bytes → Reply una Unit
  frameId : Reply una (Str una)
  navigate : Reply una (NavigateReply una)
  waitForLoad : Except (Str una) Unit
  postLoadDelayReached : Bool
  behaviorTimeLeft : Bool
  siteBehavior : Reply una Unit
  waitForIdle : Except (Str una) Unit
  pageExtraDelayReached : Bool
  waitForMainDocument : Except (Str una) Unit
  domState : Reply una DomStateReply
  responseBody : Bytes → Option BodyReply
  bodyTracker : TrackerData
  resourcesTracker : TrackerData
  exchangeTracker : TrackerData

/-- The settings of a run. -/
structure CaptureSettings (una : UniAlgo) where
  seedUrl : Str una
  urlBytesMax : Nat
  timings : CaptureTimings
  maxArchiveBytes : Int
  base64Decode : Bytes → Option Bytes

def sizeLimitPrefix : Bytes := ascii "size_limit:"

structure RetainedBodyBudget where
  maxBytes : Int
  retainedBytes : Int

def decodeCdpBody (base64Decode : Bytes → Option Bytes) (reply : BodyReply) : Option Bytes :=
  if reply.base64Encoded then base64Decode reply.body else some reply.body

def responseCanHaveBody (method : Bytes) (statusCode : Int) : Bool :=
  if method = ascii "HEAD" then false
  else (statusCode < 100 || statusCode ≥ 200) && statusCode ≠ 204 && statusCode ≠ 304

def isSuccessfulMainDocumentExchange (exchange : CapturedExchange) : Bool :=
  exchange.statusCode ≥ 200 && exchange.statusCode < 400

namespace CaptureEnv
variable (env : CaptureEnv)

/-- A reply of the CDP client, its error worded by `FormatCdpError`. -/
def replied {α : Type} (action : Bytes) : Reply env.una α → Stretch α
  | .ok value => pure value
  | .error detail => do failWith .worded (← env.formatCdpError action detail)

/-- A wait, its error passed on. -/
def waited : Except (Str env.una) Unit → Stretch Unit
  | .ok _ => pure ()
  | .error text => failWith .passedOn text.bytes

/-- A command without a result. -/
def sendVoid (page : PageReplies env.una) (method : String) : Stretch Unit :=
  env.replied (ascii method ++ ascii " failed") (page.command (ascii method))

/-- A pause of the given length, cut off by the deadline. -/
def pause (seconds : Nat) (reached : Bool) (text : String) : Stretch Unit :=
  if 0 < seconds && reached then failWith .worded (ascii text) else pure ()

def retainBody (body : Bytes) (budget : RetainedBodyBudget) : Stretch (Bytes × RetainedBodyBudget) := do
  let nextRetainedBytes := budget.retainedBytes + body.length
  if nextRetainedBytes > budget.maxBytes then
    failWith .retainBody (← env.format (ascii "size_limit: retained body bytes " ++ (intText nextRetainedBytes ++
      (ascii " exceeded size limit " ++ intText budget.maxBytes))))
  else return (body, { budget with retainedBytes := nextRetainedBytes })

/-- `ReadBody`. -/
def readBody (settings : CaptureSettings env.una) (page : PageReplies env.una) (budget : RetainedBodyBudget)
    (fallbackBody : Bytes) : Stretch (Bytes × RetainedBodyBudget) :=
  if !fallbackBody.isEmpty then env.retainBody fallbackBody budget
  else
    match page.bodyTracker.mainResponseRequestId.or page.bodyTracker.mainRequestId with
    | none => env.retainBody fallbackBody budget
    | some requestId =>
      match (page.responseBody requestId).bind (decodeCdpBody settings.base64Decode) with
      | none => env.retainBody fallbackBody budget
      | some body => env.retainBody body budget

def capturedResource (request : TrackedRequest) (response : MainResponse) (body : Bytes) : CapturedResource :=
  { resourceUrl := request.requestUrl
    method := request.method
    resourceType := request.resourceType
    statusCode := response.statusCode
    statusMessage := response.statusMessage
    headers := response.headers
    body := body
    timestamp := response.timestamp }

/-- One turn of the loop of `ReadResources`. -/
def readResource (settings : CaptureSettings env.una) (page : PageReplies env.una)
    (acc : List CapturedResource × RetainedBodyBudget) (entry : Bytes × TrackedRequest) :
    Stretch (List CapturedResource × RetainedBodyBudget) := do
  let (requestId, request) := entry
  let (resources, budget) := acc
  if request.isTrackedMainDocument || !request.hasResponse then return acc
  let response ← (toMainResponse request : Option MainResponse)
  if !responseCanHaveBody request.method response.statusCode then
    return (resources ++ [capturedResource request response []], budget)
  match (page.responseBody requestId).bind (decodeCdpBody settings.base64Decode) with
  | none => return (resources ++ [capturedResource request response []], budget)
  | some decodedBody =>
    let (body, budget) ← env.retainBody decodedBody budget
    return (resources ++ [capturedResource request response body], budget)

/-- `ReadResources`; the resources are sorted by their timestamps at the end. -/
def readResources (settings : CaptureSettings env.una) (page : PageReplies env.una) (budget : RetainedBodyBudget) :
    Stretch (List CapturedResource) := do
  let requests := page.resourcesTracker.activeRequests.entries.map fun entry => (entry.1, entry.2)
  let (resources, _) ← requests.foldlM (env.readResource settings page)
    (page.resourcesTracker.redirectedResources, budget)
  return resources.mergeSort fun left right => left.timestamp ≤ right.timestamp

/-- The four commands of `EnableBaseDomains`. -/
def enableBaseDomains (page : PageReplies env.una) : Stretch Unit := do
  env.sendVoid page "Page.enable"
  env.sendVoid page "Runtime.enable"
  env.sendVoid page "Network.enable"
  env.sendVoid page "Page.setLifecycleEventsEnabled"

/-- `CaptureAttachedTarget` up to the answer of `Page.getFrameTree`. -/
def prepareTarget (page : PageReplies env.una) : Stretch Unit := do
  env.enableBaseDomains page
  env.sendVoid page "Fetch.enable"
  env.sendVoid page "Network.setCacheDisabled"
  env.sendVoid page "Network.setBypassServiceWorker"
  env.sendVoid page "Network.setExtraHTTPHeaders"
  let _ ← env.replied (ascii "Page.getFrameTree failed") page.frameId

def navigate (settings : CaptureSettings env.una) (page : PageReplies env.una) : Stretch Unit := do
  if settings.seedUrl.bytes.length > settings.urlBytesMax then failWith .worded (ascii "url too long")
  let result ← env.replied (ascii "Page.navigate failed") page.navigate
  match result.errorText with
  | some errorText => failWith .passedOn errorText.bytes
  | none => return ()

def runSiteBehavior (page : PageReplies env.una) : Stretch Unit := do
  if !page.behaviorTimeLeft then failWith .worded (ascii "timed out running site behavior")
  env.replied (ascii "failed to run site behavior") page.siteBehavior

/-- From the wait for the load event to the wait for the main document. -/
def settlePage (settings : CaptureSettings env.una) (page : PageReplies env.una) : Stretch Unit := do
  env.waited page.waitForLoad
  pause settings.timings.postLoadDelay page.postLoadDelayReached "timed out waiting for post-load delay"
  if 0 < settings.timings.behaviorTimeout then env.runSiteBehavior page
  if 0 < settings.timings.netIdleWait then env.waited page.waitForIdle
  pause settings.timings.pageExtraDelay page.pageExtraDelayReached "timed out waiting for extra page delay"
  env.waited page.waitForMainDocument

structure DomState where
  finalUrl : Bytes
  title : Option Bytes
  html : Bytes

def readDomState (page : PageReplies env.una) : Stretch DomState := do
  let value ← env.replied (ascii "failed to read dom state") page.domState
  match fromBytes env.una value.finalUrl with
  | none => failWith .worded (ascii "Runtime.evaluate returned invalid finalUrl")
  | some url => return ⟨env.canonicalizeCapturedUrl url, env.stringOrNull value.title, value.html⟩

def stopPageSession (page : PageReplies env.una) : Stretch Unit := do
  env.sendVoid page "Target.detachFromTarget"
  env.sendVoid page "Target.disposeBrowserContext"

/-- The last look at the proxy: its error counts only against an exchange that was not successful. -/
def checkProxy (proxyError : Option Bytes) (exchange : CapturedExchange) : Stretch CapturedExchange :=
  match proxyError with
  | some reason => if isSuccessfulMainDocumentExchange exchange then pure exchange else failWith .proxyCheck reason
  | none => pure exchange

def captureAttachedTarget (settings : CaptureSettings env.una) (page : PageReplies env.una)
    (proxyError : Option Bytes) : Stretch CapturedExchange := do
  env.prepareTarget page
  env.navigate settings page
  env.settlePage settings page
  let domState ← env.readDomState page
  let (body, budget) ← env.readBody settings page ⟨settings.maxArchiveBytes, 0⟩ domState.html
  let resources ← env.readResources settings page budget
  env.stopPageSession page
  let exchange ← page.exchangeTracker.makeExchange domState.finalUrl domState.title body resources
  checkProxy proxyError exchange

end CaptureEnv

structure CaptureError where
  detail : Bytes
  seedProbe : Option SeedProbe

structure CaptureWithNetwork where
  exchange : CapturedExchange
  proxyDownBytes : Int

/-- What a run of the browser turns out to be: how its start, the connection to it, the attachment of a target and the
page go, what the diagnostics find if one of them fails, and the proxy as the failure or the last look at it finds it. -/
structure CaptureRun (τ : Type) (una : UniAlgo) where
  settings : CaptureSettings una
  browser : Except StartProblem Unit
  attempts : List (FailedAttempt una)
  connected : Except BrowserFiles Unit
  attached : Except (Str una) Unit
  page : PageReplies una
  proxy : EgressProxy τ una
  parseCgroupStats : Bytes → Option (CgroupReport una)
  files : BrowserFiles
  diagnosedProxy : ProxyReading una
  failureTracker : TrackerData
  tracker_error_valid : ∀ reason ∈ failureTracker.mainRequestError, una.isValidUtf8 reason = true
  lastProxyError : Option (Str una)
  proxyDownBytes : Int

namespace CaptureEnv
variable (env : CaptureEnv) {τ : Type}

/-- A label and a reason behind the detail, if there is a reason. -/
def appendReason (detail label : Bytes) : Option Bytes → Option Bytes
  | none => some detail
  | some reason => env.format (detail ++ (label ++ reason))

/-- The detail of a failure of `CaptureAttachedTarget`; the last look at the proxy has no tracker any more. -/
def failureDetail (run : CaptureRun τ env.una) (failure : Failure) : Option Bytes := do
  let detail ← env.makeErrorDetail run.parseCgroupStats failure.text run.files (some run.diagnosedProxy)
  let detail ← env.appendReason detail (ascii ", tracker_error=")
    (if failure.origin = .proxyCheck then none else run.failureTracker.mainRequestError)
  env.appendReason detail (ascii ", proxy_error=") (run.lastProxyError.map (·.bytes))

/-- `CaptureSession::Start`. -/
def start (run : CaptureRun τ env.una) : Stretch Unit := do
  match ← (env.connectCdp run.attempts run.connected : Option (Except Bytes Unit)) with
  | .error text => failWith .worded text
  | .ok _ => env.waited run.attached

/-- `CaptureSession::Capture`; `none` is an abort. -/
def capture (run : CaptureRun τ env.una) : Option (Except CaptureError CaptureWithNetwork) := do
  match ← (env.start run).run with
  | .error failure =>
    return .error ⟨← env.makeErrorDetail run.parseCgroupStats failure.text run.files (some run.diagnosedProxy), none⟩
  | .ok _ =>
    match ← (env.captureAttachedTarget run.settings run.page run.proxy.error).run with
    | .error failure =>
      return .error ⟨← env.failureDetail run failure,
        if failure.origin = .proxyCheck then none else run.failureTracker.currentSeedProbe⟩
    | .ok exchange => return .ok ⟨exchange, run.proxyDownBytes⟩

def captureViaProxy (run : CaptureRun τ env.una) : Option (Except CaptureError CaptureWithNetwork) :=
  match run.browser with
  | .error problem => do
    let text ← env.startError run.parseCgroupStats problem run.files run.diagnosedProxy
    return .error ⟨(fromBytes env.una text).getD (ascii "browser session creation failed"), none⟩
  | .ok _ => env.capture run

end CaptureEnv

end Webshot.Crawler
