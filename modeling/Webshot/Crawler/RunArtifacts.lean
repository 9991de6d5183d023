import Webshot.Crawler.CaptureErrors

/-! `ExecuteRun`: what becomes of a capture, and what `RunCrawlerForContext` makes of that. -/
namespace Webshot.Crawler
open Text Foundation.JsonText

/-- SHA-256, of which only the width of its digests is relied upon. -/
structure Sha256 where
  hash : Bytes → Bytes
  hash_length : ∀ data, (hash data).length = 32

/-- One digest for everything. -/
def Sha256.plain : Sha256 := ⟨fun _ => List.replicate 32 0, fun _ => rfl⟩

def headerValue (headers : Headers) (name : Bytes) : Bytes := (headers.lookup name).getD []

def itemDomain : Bytes := ascii "webshot.capture_hash.item"

def captureDomain : Bytes := ascii "webshot.capture_hash"

namespace Sha256
variable (sha : Sha256)

def hashAll (parts : List Bytes) : Bytes := sha.hash parts.flatten

def mainDigest (exchange : CapturedExchange) : Bytes :=
  sha.hashAll [itemDomain, ascii "main", sha.hash exchange.finalUrl, sha.hash (intText exchange.statusCode),
    sha.hash (headerValue exchange.headers (ascii "content-type")), sha.hash exchange.body]

def redirectDigest (redirect : CapturedMainDocumentRedirect) : Bytes :=
  sha.hashAll [itemDomain, ascii "redirect", sha.hash redirect.redirectUrl, sha.hash (intText redirect.statusCode),
    sha.hash (headerValue redirect.headers (ascii "location"))]

def resourceDigest (resource : CapturedResource) : Bytes :=
  let method := if resource.method.isEmpty then ascii "GET" else resource.method
  sha.hashAll [itemDomain, ascii "resource", sha.hash resource.resourceUrl, sha.hash method,
    sha.hash (intText resource.statusCode), sha.hash (resource.resourceType.getD []),
    sha.hash (headerValue resource.headers (ascii "content-type")), sha.hash resource.body]

def computeContentSha256 (exchange : CapturedExchange) : Bytes :=
  let itemDigests := sha.mainDigest exchange ::
    (exchange.mainDocumentRedirects.map sha.redirectDigest ++ exchange.resources.map sha.resourceDigest)
  sha.hash (captureDomain ++ (itemDigests.mergeSort fun a b => a ≤ b).flatten)

theorem computeContentSha256_length (exchange : CapturedExchange) :
    (sha.computeContentSha256 exchange).length = 32 := sha.hash_length _

end Sha256

inductive CrawlerErrorKind where
  | browserStart
  | devtoolsStartup
  | cdp
  | navigation
  | proxy
  | archiveSizeLimit
  | archiveBuild
  | browserResource
  | noArchiveProduced
  | cancelled
  | internal
  deriving DecidableEq

structure CrawlerError where
  kind : CrawlerErrorKind
  detail : Option Bytes
  seedProbe : Option SeedProbe

def isNoResponseSeedError : Option SeedProbe → Bool
  | none => false
  | some probe =>
    let status := probe.status.getD 0
    if status = 502 then true
    else
      match probe.loadState with
      | none => false
      | some loadState => if loadState ≠ 0 then false else if status ≥ 400 then false else status = 0

def shouldRetryWithHttp (error : CrawlerError) : Bool :=
  if error.kind ≠ .navigation then false else isNoResponseSeedError error.seedProbe

structure CrawlerRunArtifacts where
  error : Option CrawlerError := none
  stdoutLog : Bytes := []
  stderrLog : Bytes := []
  wacz : Option Bytes := none
  pagesJsonl : Option Bytes := none
  contentSha256 : Option Bytes := none
  replayUrl : Option Bytes := none

def int64Max : Int := 2 ^ 63 - 1

/-- The result of an operation of `i64`, which aborts if it does not fit. -/
def checked64 (n : Int) : Option Int := if -2 ^ 63 ≤ n ∧ n ≤ int64Max then some n else none

def mul64 (a b : Int) : Option Int := checked64 (a * b)

def div64 (a b : Int) : Option Int := if b = 0 then none else checked64 (a.tdiv b)

/-- The proxy's limit during the run. -/
def maxDownBytes (maxArchiveBytes ratio : Int) : Option Int := do
  if ratio > (← div64 int64Max maxArchiveBytes) then return int64Max
  mul64 ratio maxArchiveBytes

/-- The limit on what the proxy let through, once the archive is there. -/
def maxDownByFinal (waczBytes ratio : Int) : Option Int := do
  if waczBytes ≤ 0 then return 0
  if ratio > (← div64 int64Max waczBytes) then return int64Max
  mul64 ratio waczBytes

def cdpWsPayloadSlackBytes : Int := 2 * 1024 * 1024

/-- The limit on a message of the browser's. -/
def computeCdpMaxRemotePayloadBytes (maxArchiveBytes : Int) : Option Int := do
  checked64 ((← div64 (← mul64 maxArchiveBytes 4) 3) + cdpWsPayloadSlackBytes)

/-- A stretch of `ExecuteRun`: it may abort or throw. -/
abbrev Throwing (α : Type) := ExceptT Bytes Option α

/-- The makers of the artifacts: they may throw, and the last two may also abort or return an error's detail. -/
structure ArtifactMakers (Warc : Type) where
  sha : Sha256
  makePagesJsonl : CapturedExchange → Except Bytes Bytes
  makeWarc : CapturedExchange → Throwing (Except Bytes Warc)
  makeWacz : (seedUrl pages : Bytes) → Warc → (stdoutLog stderrLog : Bytes) → Throwing (Except Bytes Bytes)

/-- `MakeSuccessStdoutLog` of a fresh browser without a process id. -/
def makeSuccessStdoutLog (seedUrl : Bytes) (exchange : CapturedExchange) : Bytes :=
  ascii "browsertrix rewrite start\nseed_url=" ++ (seedUrl ++ (ascii "\nfinal_url=" ++ (exchange.finalUrl ++
    (ascii "\nstatus=" ++ (intText exchange.statusCode ++ (ascii "\nredirects=" ++
      (natText (exchange.redirectChain.length - 1) ++
        ascii "\nbrowser_bin=chromium\nbrowser_pid=0\nreused_browser=false\nbrowsertrix rewrite done\n\n")))))))

namespace CrawlerRunArtifacts
variable (out : CrawlerRunArtifacts)

/-- `fail_artifact`. -/
def failArtifact (env : CaptureEnv) (detail : Bytes) : CrawlerRunArtifacts :=
  { out with
    error := some ⟨.archiveBuild, fromBytes env.una detail, none⟩
    stdoutLog := []
    stderrLog := detail ++ ascii "\n"
    wacz := none
    pagesJsonl := none
    contentSha256 := none }

/-- The exit after a failed capture, which sets every field; the kind is read off the beginning of the detail. -/
def failCapture (env : CaptureEnv) (error : CaptureError) : CrawlerRunArtifacts :=
  let detail :=
    if startsWith error.detail sizeLimitPrefix then
      let detailText := error.detail.drop sizeLimitPrefix.length
      let detailText := if detailText.head? = some 32 then detailText.drop 1 else detailText
      (fromBytes env.una detailText).getD error.detail
    else error.detail
  let kind :=
    if startsWith error.detail sizeLimitPrefix then .archiveSizeLimit
    else if startsWith error.detail netLimitPrefix then .proxy
    else .navigation
  { error := some ⟨kind, some detail, error.seedProbe⟩
    stdoutLog := []
    stderrLog := error.detail ++ ascii "\n"
    wacz := none
    pagesJsonl := none
    contentSha256 := none
    replayUrl := none }

/-- The exits after a limit was found exceeded. -/
def failLimit (kind : CrawlerErrorKind) (detail : Bytes) (exchange : CapturedExchange) : CrawlerRunArtifacts :=
  { out with
    error := some ⟨kind, some detail, some ⟨some exchange.statusCode, some 0⟩⟩
    stderrLog := out.stderrLog ++ (detail ++ ascii "\n")
    wacz := none
    pagesJsonl := none
    contentSha256 := none
    replayUrl := none }

/-- The exit after an exception, which sets every field. -/
def failException (env : CaptureEnv) (what : Bytes) : CrawlerRunArtifacts :=
  { error := some ⟨.internal, fromBytes env.una what, none⟩
    stdoutLog := []
    stderrLog := what ++ ascii "\n"
    wacz := none
    pagesJsonl := none
    contentSha256 := none
    replayUrl := none }

end CrawlerRunArtifacts

structure RunLimits where
  maxArchiveBytes : Int
  networkDownBytesRatioMax : Int

section Execution
variable (env : CaptureEnv) {Warc : Type} (makers : ArtifactMakers Warc) (limits : RunLimits) (seedUrl : Bytes)

/-- The part of `ExecuteRun` after a WACZ was made. -/
def finishRun (out : CrawlerRunArtifacts) (captured : CaptureWithNetwork) (pages wacz : Bytes) :
    Option CrawlerRunArtifacts := do
  let exchange := captured.exchange
  let waczBytes : Int := wacz.length
  if waczBytes > limits.maxArchiveBytes then
    let maxArchiveMib ← div64 limits.maxArchiveBytes (← mul64 1024 1024)
    let detail ← env.format (ascii "archive bytes " ++ (intText waczBytes ++ (ascii " exceeded size limit " ++
      (intText maxArchiveMib ++ ascii " MiB"))))
    return out.failLimit .archiveSizeLimit detail exchange
  let maxDown ← maxDownByFinal waczBytes limits.networkDownBytesRatioMax
  if captured.proxyDownBytes > maxDown then
    let detail ← env.format (ascii "net_limit: proxy downstream bytes " ++ (intText captured.proxyDownBytes ++
      (ascii " exceeded post-run limit " ++ intText maxDown)))
    return out.failLimit .proxy detail exchange
  let stored := { out with wacz := some wacz, pagesJsonl := some pages, replayUrl := some exchange.finalUrl }
  if exchange.statusCode ≥ 400 then
    let detail ← env.format (ascii "seed returned HTTP " ++ intText exchange.statusCode)
    return { stored with error := some ⟨.navigation, some detail, some ⟨some exchange.statusCode, some 0⟩⟩ }
  return stored

/-- The part of `ExecuteRun` after a successful capture. -/
def archiveRun (out : CrawlerRunArtifacts) (captured : CaptureWithNetwork) : Throwing CrawlerRunArtifacts := do
  let exchange := captured.exchange
  let pages ← ExceptT.mk (some (makers.makePagesJsonl exchange))
  let out := { out with
    contentSha256 := some (makers.sha.computeContentSha256 exchange)
    stdoutLog := makeSuccessStdoutLog seedUrl exchange
    stderrLog := [] }
  match ← makers.makeWarc exchange with
  | .error detail => return out.failArtifact env detail
  | .ok warc =>
    match ← makers.makeWacz seedUrl pages warc out.stdoutLog out.stderrLog with
    | .error detail => return out.failArtifact env detail
    | .ok wacz => finishRun env limits out captured pages wacz

/-- What stands inside the `try` of `ExecuteRun`; `capture` is `CaptureViaProxy` as it depends on the limits of the proxy
and of a message, the second of which it computes itself. -/
def executeBody (capture : Int → Int → Throwing (Except CaptureError CaptureWithNetwork)) :
    Throwing CrawlerRunArtifacts := do
  let out : CrawlerRunArtifacts := {}
  let maxDown ← maxDownBytes limits.maxArchiveBytes limits.networkDownBytesRatioMax
  match ← capture maxDown (← computeCdpMaxRemotePayloadBytes limits.maxArchiveBytes) with
  | .error error => return .failCapture env error
  | .ok captured => archiveRun env makers limits seedUrl out captured

/-- `ExecuteRun`: `none` is an abort, an error is an exception thrown on because the task is being cancelled. -/
def executeRun (cancelRequested : Bool)
    (capture : Int → Int → Throwing (Except CaptureError CaptureWithNetwork)) :
    Option (Except Bytes CrawlerRunArtifacts) := do
  match ← (executeBody env makers limits seedUrl capture).run with
  | .ok out => return .ok out
  | .error what => return if cancelRequested then .error what else .ok (.failException env what)

end Execution

/-- What a successful run leaves in the context of a crawl. -/
structure CrawlContext where
  waczBytes : Bytes
  contentSha256 : Bytes
  replayUrl : Url

/-- How `try_store_success` ends: an `Invariant` may abort with its message, and so may the dereference of a replay URL
that does not parse. -/
inductive StoreOutcome where
  | stored (ctx : CrawlContext)
  | unsuccessful
  | invariantFails (message : Bytes)
  | replayUrlMissing

def tryStoreSuccess (env : CaptureEnv) (run : CrawlerRunArtifacts) : StoreOutcome :=
  if run.error.isSome then .unsuccessful
  else
    match run.wacz, run.contentSha256 with
    | none, _ => .invariantFails (ascii "crawler succeeded but did not provide WACZ bytes")
    | some _, none => .invariantFails (ascii "crawler did not provide content hash for a successful capture")
    | some wacz, some hash =>
      if (hash.length : Int) ≠ 32 then .invariantFails (ascii "content hash must be 32 bytes")
      else
        match run.replayUrl with
        | none => .invariantFails (ascii "crawler did not provide replay_url for a successful capture")
        | some replayUrl =>
          match env.urlFromText replayUrl with
          | none => .replayUrlMissing
          | some url => .stored ⟨wacz, hash, url⟩

/-- `RunCrawlerForContext`: the seeds that are crawled, and the stored context or the error; `none` is an abort. -/
def runCrawlerForContext (env : CaptureEnv) (httpsOnly : Bool) (httpsSeedUrl httpSeedUrl : Bytes)
    (runCrawlerAttempt : Bytes → CrawlerRunArtifacts) : List Bytes × Option (Except CrawlerError CrawlContext) :=
  let httpsRun := runCrawlerAttempt httpsSeedUrl
  match tryStoreSuccess env httpsRun, httpsRun.error with
  | .stored ctx, _ => ([httpsSeedUrl], some (.ok ctx))
  | .unsuccessful, some error =>
    if httpsOnly || !shouldRetryWithHttp error then ([httpsSeedUrl], some (.error error))
    else
      let httpRun := runCrawlerAttempt httpSeedUrl
      match tryStoreSuccess env httpRun, httpRun.error with
      | .stored ctx, _ => ([httpsSeedUrl, httpSeedUrl], some (.ok ctx))
      | .unsuccessful, some error => ([httpsSeedUrl, httpSeedUrl], some (.error error))
      | _, _ => ([httpsSeedUrl, httpSeedUrl], none)
  | _, _ => ([httpsSeedUrl], none)

end Webshot.Crawler
