import Mathlib.Data.Finset.Basic
import Webshot.Crawler.CapturedUrls
import Webshot.Crawler.CdpMessages
import Webshot.Foundation.JsonText

/-! `PageTracker`: what the crawler remembers of the requests of a page, and which of them is the main
document. -/
namespace Webshot.Crawler
open Text Foundation.KeyedMaps Foundation.JsonText

structure CapturedMainDocumentRedirect where
  redirectUrl : Bytes
  statusCode : Int
  statusMessage : Bytes
  headers : Headers
  timestamp : Bytes

structure CapturedResource where
  resourceUrl : Bytes
  method : Bytes
  resourceType : Option Bytes
  statusCode : Int
  statusMessage : Bytes
  headers : Headers
  body : Bytes
  timestamp : Bytes

structure CapturedExchange where
  seedUrl : Bytes
  pageId : Bytes
  finalUrl : Bytes
  statusCode : Int
  statusMessage : Bytes
  headers : Headers
  body : Bytes
  timestamp : Bytes
  redirectChain : List Bytes
  mainDocumentRedirects : List CapturedMainDocumentRedirect
  resources : List CapturedResource
  title : Option Bytes

structure SeedProbe where
  status : Option Int
  loadState : Option Int
  deriving DecidableEq

structure TrackedRequest where
  requestUrl : Bytes
  method : Bytes
  statusCode : Option Int := none
  statusMessage : Option Bytes := none
  headers : Option Headers := none
  timestamp : Option Bytes := none
  loaderId : Option Bytes
  frameId : Option Bytes
  resourceType : Option Bytes
  loaded : Bool := false
  isTrackedMainDocument : Bool

/-- `PageTracker::Data`. -/
structure TrackerData where
  sessionId : Bytes
  targetId : Bytes
  pageId : Bytes
  activeRequests : KeyedMap Bytes TrackedRequest := ∅
  redirectedResources : List CapturedResource := []
  redirectChain : List Bytes := []
  mainDocumentRedirects : List CapturedMainDocumentRedirect := []
  inflight : Finset Bytes := ∅
  mainRequestId : Option Bytes := none
  mainResponseRequestId : Option Bytes := none
  mainLoaderId : Option Bytes := none
  mainFrameId : Option Bytes := none
  seedNavigationUrl : Option Bytes := none
  completedMainRequest : Option TrackedRequest := none
  loaded : Bool := false
  seedNavigationStarted : Bool := false
  mainRequestError : Option Bytes := none
  lastNetworkAt : Int := 0

structure NetworkRequestWillBeSentEvent where
  requestId : Bytes
  loaderId : Option Bytes
  frameId : Option Bytes
  type : Option Bytes
  url : Bytes
  method : Bytes
  redirectResponse : Option NetworkResponse

structure NetworkResponseReceivedEvent where
  requestId : Bytes
  loaderId : Option Bytes
  type : Option Bytes
  response : NetworkResponse

structure NetworkLoadingFinishedEvent where
  requestId : Bytes

structure NetworkLoadingFailedEvent where
  requestId : Bytes
  errorText : Option Bytes

/-- The parsers generated from the schema, for the members of `params`. -/
structure EventParsers where
  asTargetCrashed : List (Bytes × Json) → Option (Option Bytes)
  asRequestWillBeSent : List (Bytes × Json) → Parsed NetworkRequestWillBeSentEvent
  asResponseReceived : List (Bytes × Json) → Parsed NetworkResponseReceivedEvent
  asLoadingFinished : List (Bytes × Json) → Parsed NetworkLoadingFinishedEvent
  asLoadingFailed : List (Bytes × Json) → Parsed NetworkLoadingFailedEvent

/-- The readings of the two clocks while an event is handled. -/
structure Clocks where
  timestamp : Bytes
  steady : Int

namespace TrackedRequest
variable (request : TrackedRequest)

def hasResponse : Bool :=
  request.statusCode.isSome && request.statusMessage.isSome && request.headers.isSome && request.timestamp.isSome

/-- The request with a response of the browser. -/
def respond (status : Int) (statusMessage : Bytes) (headers : Headers) (timestamp : Bytes) : TrackedRequest :=
  { request with
    statusCode := some status, statusMessage := some statusMessage, headers := some headers,
    timestamp := some timestamp }

end TrackedRequest

structure MainResponse where
  requestUrl : Bytes
  statusCode : Int
  statusMessage : Bytes
  headers : Headers
  timestamp : Bytes

/-- `ToMainResponse`; `none` is its failed invariant. -/
def toMainResponse (request : TrackedRequest) : Option MainResponse := do
  some ⟨request.requestUrl, ← request.statusCode, ← request.statusMessage, ← request.headers, ← request.timestamp⟩

namespace TrackerData
variable (data : TrackerData)

def fail (reason : Bytes) : TrackerData := { data with mainRequestError := some reason }

def beginSeedNavigation (seedUrl : Bytes) : TrackerData :=
  { data with seedNavigationStarted := true, seedNavigationUrl := some seedUrl }

def setMainFrameId (mainFrameId : Bytes) : TrackerData := { data with mainFrameId := some mainFrameId }

def setExpectedMainLoaderId (loaderId : Option Bytes) : TrackerData :=
  match loaderId with
  | none => data
  | some loaderId => { data with mainLoaderId := some loaderId }

def activeMainRequest : Option TrackedRequest := data.mainRequestId.bind data.activeRequests.lookup

/-- The completed main request, if it has a response. -/
def completedResponse : Option TrackedRequest := data.completedMainRequest.filter (·.hasResponse)

def resolvedMainRequest : Option TrackedRequest := data.completedResponse.or data.activeMainRequest

def isLoadedOrFailed : Bool := data.loaded || data.mainRequestError.isSome

def hasMainDocumentOrError : Bool :=
  data.mainRequestError.isSome ||
    data.completedMainRequest.any (fun request => request.loaded && request.hasResponse) ||
    data.activeMainRequest.any fun request => request.hasResponse && request.loaded

/-- `SelectMainResponse`: the request at the final URL is preferred, then the completed one. -/
def selectMainResponse (finalUrl : Bytes) : Option MainResponse :=
  let active := data.activeMainRequest.filter (·.hasResponse)
  match data.completedResponse.filter (·.requestUrl = finalUrl) with
  | some request => toMainResponse request
  | none =>
    match active.filter (·.requestUrl = finalUrl) with
    | some request => toMainResponse request
    | none =>
      match data.completedResponse with
      | some request => toMainResponse request
      | none => active.bind toMainResponse

def currentSeedProbe : Option SeedProbe :=
  match data.resolvedMainRequest.bind fun request => request.statusCode.map (request, ·) with
  | some (request, status) =>
    some ⟨some status, some (if request.loaded && data.mainRequestError.isNone then 2 else 0)⟩
  | none =>
    if data.mainRequestId.isSome || data.mainRequestError.isSome || data.loaded then some ⟨some 0, some 0⟩ else none

/-- `MakeExchange`; `none` is the failed invariant of `ApplyMainResponse`. -/
def makeExchange (finalUrl : Bytes) (title : Option Bytes) (body : Bytes) (resources : List CapturedResource) :
    Option CapturedExchange :=
  (data.selectMainResponse finalUrl).map fun response =>
    { seedUrl := data.seedNavigationUrl.getD finalUrl
      pageId := data.pageId
      finalUrl := finalUrl
      statusCode := response.statusCode
      statusMessage := response.statusMessage
      headers := response.headers
      body := body
      timestamp := response.timestamp
      redirectChain := if data.redirectChain.isEmpty then [finalUrl] else data.redirectChain
      mainDocumentRedirects := data.mainDocumentRedirects
      resources := resources
      title := title }

def matchesTrackedMainLoader (loaderId : Option Bytes) : Bool :=
  data.mainLoaderId.isNone || loaderId = data.mainLoaderId

def isMainFrameDocumentRequest (event : NetworkRequestWillBeSentEvent) : Bool :=
  event.frameId.isSome && data.mainFrameId.isSome && event.frameId = data.mainFrameId &&
    event.type = some (ascii "Document")

/-- The URL is the seed's, up to a slash at its end. -/
def matchesSeedUrl (seedUrl rawRequestUrl : Bytes) : Bool :=
  rawRequestUrl = seedUrl || (!endsWith seedUrl (ascii "/") && rawRequestUrl.length = seedUrl.length + 1 &&
    startsWith rawRequestUrl seedUrl && endsWith rawRequestUrl (ascii "/"))

/-- The first request for the main document must be for the seed, while no loader is expected. -/
def isUnexpectedSeed (rawRequestUrl : Bytes) : Bool :=
  data.mainLoaderId.isNone && data.mainRequestId.isNone && data.seedNavigationUrl.any (!matchesSeedUrl · rawRequestUrl)

/-- `RecordMainDocumentRedirect`; `none` is its failed invariant. -/
def recordMainDocumentRedirect (request : TrackedRequest) : Option TrackerData :=
  (toMainResponse request).map fun response =>
    let repeated := data.mainDocumentRedirects.getLast?.any fun previous =>
      previous.redirectUrl = request.requestUrl && previous.statusCode = response.statusCode
    if repeated then data
    else
      { data with
        mainDocumentRedirects := data.mainDocumentRedirects ++
          [⟨request.requestUrl, response.statusCode, response.statusMessage, response.headers, response.timestamp⟩] }

/-- `RecordResourceRedirect`; `none` is its failed invariant. -/
def recordResourceRedirect (request : TrackedRequest) : Option TrackerData :=
  (toMainResponse request).map fun response =>
    { data with
      redirectedResources := data.redirectedResources ++
        [{ resourceUrl := request.requestUrl
           method := request.method
           resourceType := request.resourceType
           statusCode := response.statusCode
           statusMessage := response.statusMessage
           headers := response.headers
           body := []
           timestamp := response.timestamp }] }

end TrackerData

/-- How the handling of a request for the main document begins. -/
inductive MainCheck where
  | aborted
  | ignored
  | other
  | main

namespace TrackerData
variable (data : TrackerData)

def mainCheck (event : NetworkRequestWillBeSentEvent) (rawRequestUrl : Bytes) : MainCheck :=
  if data.isMainFrameDocumentRequest event then
    if !data.seedNavigationStarted then .aborted
    else if data.mainLoaderId.isSome && !data.matchesTrackedMainLoader event.loaderId then .ignored
    else if data.isUnexpectedSeed rawRequestUrl then .ignored
    else .main
  else .other

end TrackerData

namespace CaptureEnv
variable (env : CaptureEnv)

/-- The part of `FinalizeRedirectRequest` for a request that is known. -/
def closeRedirected (data : TrackerData) (requestId : Bytes) (request : TrackedRequest) : Option TrackerData :=
  if request.isTrackedMainDocument then
    (data.recordMainDocumentRedirect request).map fun data =>
      if data.mainRequestId = some requestId then { data with mainRequestId := none } else data
  else data.recordResourceRedirect request

/-- `none` is an abort: a redirect without a status, or texts that are not valid. -/
def finalizeRedirectRequest (data : TrackerData) (requestId : Bytes) (response : NetworkResponse) (clocks : Clocks) :
    Option TrackerData := do
  let status ← response.status
  match data.activeRequests.lookup requestId with
  | none => return data.fail (← env.format (ascii "redirect response for unknown request id " ++ requestId))
  | some request =>
    let statusMessage ← fromBytes env.una (response.statusText.getD [])
    let headers := env.normalizeHeadersForCapture response.headers request.requestUrl
    closeRedirected { data with activeRequests := data.activeRequests.erase requestId } requestId
      { request.respond status statusMessage headers clocks.timestamp with loaded := true }

/-- The redirect a request came by, if any, is closed. -/
def finalizeIfRedirected (data : TrackerData) (requestId : Bytes) (event : NetworkRequestWillBeSentEvent)
    (clocks : Clocks) : Option TrackerData :=
  match event.redirectResponse with
  | none => some data
  | some response => env.finalizeRedirectRequest data requestId response clocks

/-- A new request becomes active, and the main request if it is for the main document. -/
def addRequest (data : TrackerData) (requestId : Bytes) (request : TrackedRequest) : TrackerData :=
  let data := { data with activeRequests := data.activeRequests.insert requestId request }
  if request.isTrackedMainDocument then
    { data with
      mainRequestId := some requestId
      redirectChain :=
        if data.redirectChain.getLast? = some request.requestUrl then data.redirectChain
        else data.redirectChain ++ [request.requestUrl] }
  else data

/-- The URL under which a request is tracked: resolved against the one it was redirected from. -/
def canonicalRequestUrl (previousRequestUrl : Option Bytes) (rawRequestUrl : Bytes)
    (redirectResponse : Option NetworkResponse) : Option Bytes :=
  match previousRequestUrl with
  | some previous => env.resolveRedirectTargetUrl previous rawRequestUrl redirectResponse
  | none => some (env.canonicalizeCapturedUrl rawRequestUrl)

/-- The rest of `HandleRequestWillBeSent`, once it is known whether the request is for the main document. -/
def trackRequest (data : TrackerData) (requestId rawRequestUrl requestMethod : Bytes)
    (event : NetworkRequestWillBeSentEvent) (clocks : Clocks) (isTrackedMainDocument : Bool) : Option TrackerData := do
  let previousRequestUrl := (data.activeRequests.lookup requestId).map (·.requestUrl)
  let data ← env.finalizeIfRedirected data requestId event clocks
  let canonicalRequestUrl ← env.canonicalRequestUrl previousRequestUrl rawRequestUrl event.redirectResponse
  return addRequest data requestId
    { requestUrl := canonicalRequestUrl
      method := requestMethod
      loaderId := env.stringOrNull event.loaderId
      frameId := env.stringOrNull event.frameId
      resourceType := env.stringOrNull event.type
      isTrackedMainDocument := isTrackedMainDocument }

/-- The loader of the first request for the main document is the expected one from then on. -/
def expectLoader (data : TrackerData) (loaderId : Option Bytes) : TrackerData :=
  if data.mainLoaderId.isNone && loaderId.isSome then { data with mainLoaderId := env.stringOrNull loaderId } else data

/-- `HandleRequestWillBeSent`; `none` is an abort. -/
def handleRequestWillBeSent (data : TrackerData) (event : NetworkRequestWillBeSentEvent) (clocks : Clocks) :
    Option TrackerData := do
  if startsWith event.url (ascii "data:") then return data
  let requestId ← fromBytes env.una event.requestId
  let rawRequestUrl ← fromBytes env.una event.url
  let requestMethod ← fromBytes env.una event.method
  let data := { data with inflight := insert requestId data.inflight, lastNetworkAt := clocks.steady }
  match data.mainCheck event rawRequestUrl with
  | .aborted => none
  | .ignored => return data
  | .main =>
    env.trackRequest (env.expectLoader data event.loaderId) requestId rawRequestUrl requestMethod event clocks true
  | .other => env.trackRequest data requestId rawRequestUrl requestMethod event clocks false

/-- A request for the main document with a response is remembered as completed. -/
def complete (data : TrackerData) (requestId : Bytes) (request : TrackedRequest) : TrackerData :=
  let data := { data with activeRequests := data.activeRequests.insert requestId request }
  if request.isTrackedMainDocument && request.hasResponse then
    { data with completedMainRequest := some request, mainResponseRequestId := some requestId }
  else data

/-- An event for a request that is not active fails the tracker if the request is the main one. -/
def unknownRequest (data : TrackerData) (requestId text : Bytes) : Option TrackerData :=
  if data.mainRequestId = some requestId then (env.format (text ++ requestId)).map data.fail else some data

def handleResponseReceived (data : TrackerData) (event : NetworkResponseReceivedEvent) (clocks : Clocks) :
    Option TrackerData := do
  let requestId ← fromBytes env.una event.requestId
  match data.activeRequests.lookup requestId with
  | none => env.unknownRequest data requestId (ascii "main document response received for unknown request id ")
  | some request =>
    let statusMessage ← fromBytes env.una (event.response.statusText.getD [])
    let headers := env.normalizeHeadersForCapture event.response.headers request.requestUrl
    let request := request.respond (event.response.status.getD 0) statusMessage headers clocks.timestamp
    return complete data requestId
      { request with
        resourceType := if event.type.isSome then env.stringOrNull event.type else request.resourceType
        loaderId := if event.loaderId.isSome then env.stringOrNull event.loaderId else request.loaderId }

def handleLoadingFinished (data : TrackerData) (event : NetworkLoadingFinishedEvent) (clocks : Clocks) :
    Option TrackerData := do
  let requestId ← fromBytes env.una event.requestId
  let data := { data with inflight := data.inflight.erase requestId, lastNetworkAt := clocks.steady }
  match data.activeRequests.lookup requestId with
  | none => env.unknownRequest data requestId (ascii "main document loading finished for unknown request id ")
  | some request => return complete data requestId { request with loaded := true }

def handleLoadingFailed (data : TrackerData) (event : NetworkLoadingFailedEvent) (clocks : Clocks) :
    Option TrackerData := do
  let requestId ← fromBytes env.una event.requestId
  let data := { data with inflight := data.inflight.erase requestId, lastNetworkAt := clocks.steady }
  match data.activeRequests.lookup requestId with
  | none => env.unknownRequest data requestId (ascii "main document loading failed for unknown request id ")
  | some request =>
    let data := { data with activeRequests := data.activeRequests.insert requestId { request with loaded := true } }
    if request.isTrackedMainDocument && !request.hasResponse then
      return data.fail (← fromBytes env.una (event.errorText.getD (ascii "main document request failed")))
    else return data

end CaptureEnv

/-- How `HandleEvent` ends; an exception or an abort leaves no new data. -/
inductive Handled where
  | done (data : TrackerData)
  | threw
  | aborted

def Handled.ofOption : Option TrackerData → Handled
  | some data => .done data
  | none => .aborted

namespace CaptureEnv
variable (env : CaptureEnv)

/-- The text of a member that names the target or the session; the outer `none` is the exception of
`As<std::string>`. -/
def namedText (params : List (Bytes × Json)) (key : Bytes) : Option (Option Bytes) :=
  match params.lookup key with
  | none => some none
  | some value => value.asString.map some

/-- The target or the session of the page is gone, if the event names it. -/
def handleGone (data : TrackerData) (params : Option (List (Bytes × Json))) (key own reason : Bytes) : Handled :=
  match params with
  | none => .done data
  | some params =>
    match namedText params key with
    | none => .threw
    | some name => .done (if name = some own then data.fail reason else data)

def handleInspectorDetached (data : TrackerData) (params : Option (List (Bytes × Json))) : Handled :=
  match params.elim (some none) (namedText · (ascii "reason")) with
  | none => .threw
  | some none => .done (data.fail (ascii "inspector detached"))
  | some (some reason) => .ofOption ((env.format (ascii "inspector detached: " ++ reason)).map data.fail)

/-- `ParseEventParams` and the handler of the event; an event that does not parse fails the tracker. -/
def handleParsed {α : Type} (data : TrackerData) (event : CdpEvent) (as : List (Bytes × Json) → Parsed α)
    (handle : TrackerData → α → Option TrackerData) : Handled :=
  match event.params with
  | none => .ofOption ((env.format (event.method ++ ascii " missing params")).map data.fail)
  | some params =>
    match as params with
    | .jsonException => .ofOption ((env.format (event.method ++ ascii " has invalid params")).map data.fail)
    | .otherException => .threw
    | .parsed dto => .ofOption (handle data dto)

/-- The events of the page's own session. -/
def handlePageEvent (parsers : EventParsers) (data : TrackerData) (event : CdpEvent) (clocks : Clocks) : Handled :=
  if event.method = ascii "Page.loadEventFired" then .done { data with loaded := true }
  else if event.method = ascii "Network.requestWillBeSent" then
    env.handleParsed data event parsers.asRequestWillBeSent (env.handleRequestWillBeSent · · clocks)
  else if event.method = ascii "Network.responseReceived" then
    env.handleParsed data event parsers.asResponseReceived (env.handleResponseReceived · · clocks)
  else if event.method = ascii "Network.loadingFinished" then
    env.handleParsed data event parsers.asLoadingFinished (env.handleLoadingFinished · · clocks)
  else if event.method = ascii "Network.loadingFailed" then
    env.handleParsed data event parsers.asLoadingFailed (env.handleLoadingFailed · · clocks)
  else .done data

def handleEvent (parsers : EventParsers) (data : TrackerData) (event : CdpEvent) (clocks : Clocks) : Handled :=
  if event.method = ascii "Target.targetCrashed" then
    match event.params with
    | none => .done data
    | some params =>
      match parsers.asTargetCrashed params with
      | none => .threw
      | some targetId =>
        .done (if targetId = some data.targetId then data.fail (ascii "page target crashed") else data)
  else if event.method = ascii "Target.detachedFromTarget" then
    handleGone data event.params (ascii "sessionId") data.sessionId (ascii "target session detached")
  else if event.method = ascii "Target.targetDestroyed" then
    handleGone data event.params (ascii "targetId") data.targetId (ascii "page target destroyed")
  else if event.method = ascii "Inspector.detached" then
    if event.sessionId.isSome && event.sessionId ≠ some data.sessionId then .done data
    else env.handleInspectorDetached data event.params
  else if event.sessionId ≠ some data.sessionId then .done data
  else env.handlePageEvent parsers data event clocks

end CaptureEnv
end Webshot.Crawler
