import Webshot.Crawler.ProxyRequests
import Webshot.Crawler.RunArtifacts
import Webshot.Storage.UuidText

/-! `MakeWarc`: the records of a capture, each compressed for itself, and the index that points at them. -/
namespace Webshot.Crawler
open Text Foundation.JsonText

structure SerializableResponse where
  responseUrl : Bytes
  method : Bytes
  pageId : Bytes
  resourceType : Option Bytes
  statusCode : Int
  statusMessage : Bytes
  headers : Headers
  body : Bytes
  timestamp : Bytes

/-- What the making of a WARC takes from libraries. -/
structure WarcEnv extends CaptureEnv where
  /-- Status text of a code; `none` is the abort on a number that is no status code. -/
  statusCodeString : Int → Option Bytes
  /-- The order in which an `unordered_map` is gone through. -/
  iterate : Headers → List (Bytes × Bytes)
  iterate_perm : ∀ headers, (iterate headers).Perm (headers.entries.map fun entry => (entry.1, entry.2))
  /-- `std::ranges::sort` by timestamp, which need not keep the order of equal ones. -/
  sort : List SerializableResponse → List SerializableResponse
  sort_perm : ∀ responses, (sort responses).Perm responses
  sort_sorted : ∀ responses, (sort responses).Pairwise fun left right => left.timestamp ≤ right.timestamp
  /-- The UUIDs in the order in which they are drawn. -/
  generateBoostUuid : Nat → Storage.Uuid
  /-- The text of a JSON value. -/
  jsonToString : Json → Bytes
  /-- The bytes of a member, or the error's detail. -/
  gzipCompressMember : Bytes → Except Bytes Bytes
  sha : Sha256
  /-- The timestamp of the index; `none` is an exception on a time that cannot be read. -/
  utcTimestring : Bytes → Option Bytes

inductive ArtifactErrorCode where
  | gzipFailed
  | zipFailed
  deriving DecidableEq

structure ArtifactError where
  code : ArtifactErrorCode
  detail : Bytes
  deriving DecidableEq

structure WarcCdxRecord where
  recordUrl : Bytes
  timestamp : Bytes
  digest : Bytes
  recordDigest : Bytes
  statusCode : Int
  headers : Headers
  offset : Nat
  length : Nat

structure WarcBuildOutput where
  bytes : Bytes := []
  cdxRecords : List WarcCdxRecord := []

def userAgent : Bytes := ascii "webshotd"

def sha256Hex (sha : Sha256) (data : Bytes) : Bytes := (sha.hash data).flatMap hexPair

def sha256PrefixedHex (sha : Sha256) (data start : Bytes) : Bytes := start ++ sha256Hex sha data

/-- Headers without those that describe the transfer. -/
def normalizeResponseHeaders (headers : Headers) : Headers :=
  ((headers.erase (ascii "content-encoding")).erase (ascii "content-length")).erase (ascii "transfer-encoding")

def makeRedirectResponse (redirect : CapturedMainDocumentRedirect) : SerializableResponse where
  responseUrl := redirect.redirectUrl
  method := ascii "GET"
  pageId := []
  resourceType := some (ascii "Document")
  statusCode := redirect.statusCode
  statusMessage := redirect.statusMessage
  headers := redirect.headers
  body := []
  timestamp := redirect.timestamp

def makeMainDocumentResponse (exchange : CapturedExchange) : SerializableResponse where
  responseUrl := exchange.finalUrl
  method := ascii "GET"
  pageId := exchange.pageId
  resourceType := some (ascii "Document")
  statusCode := exchange.statusCode
  statusMessage := exchange.statusMessage
  headers := exchange.headers
  body := exchange.body
  timestamp := exchange.timestamp

def makeResourceResponse (resource : CapturedResource) : SerializableResponse where
  responseUrl := resource.resourceUrl
  method := resource.method
  pageId := []
  resourceType := resource.resourceType
  statusCode := resource.statusCode
  statusMessage := resource.statusMessage
  headers := resource.headers
  body := resource.body
  timestamp := resource.timestamp

def contentTypeForHeaders (headers : Headers) : Bytes :=
  (headers.lookup (ascii "content-type")).getD (ascii "application/octet-stream")

def pageTimestamp (exchange : CapturedExchange) : Bytes :=
  match exchange.mainDocumentRedirects with
  | [] => exchange.timestamp
  | redirect :: _ => redirect.timestamp

/-- The responses of a capture in the order in which they are collected. -/
def capturedResponses (exchange : CapturedExchange) : List SerializableResponse :=
  exchange.mainDocumentRedirects.map (fun redirect => { makeRedirectResponse redirect with pageId := exchange.pageId }) ++
    makeMainDocumentResponse exchange ::
    exchange.resources.map fun resource => { makeResourceResponse resource with pageId := exchange.pageId }

def collectSerializableResponses (env : WarcEnv) (exchange : CapturedExchange) : List SerializableResponse :=
  env.sort (capturedResponses exchange)

/-- A WARC record: version, fields, empty line, block and trailer. -/
def warcRecord (fields : List HeaderLine) (block trailer : Bytes) : Bytes :=
  ascii "WARC/1.1\r\n" ++ (fields.flatMap headerLineText ++ (crlf ++ (block ++ trailer)))

def recordId (env : WarcEnv) (drawn : Nat) : Bytes :=
  ascii "urn:uuid:" ++ Storage.uuidText (env.generateBoostUuid drawn)

def bracketed (id : Bytes) : Bytes := ascii "<" ++ (id ++ ascii ">")

def contentFields (type : Bytes) (length : Nat) : List HeaderLine :=
  [⟨ascii "Content-Type", type⟩, ⟨ascii "Content-Length", natText length⟩]

namespace SerializableResponse
variable (response : SerializableResponse) (env : WarcEnv)

/-- The lines that stand only if there is something to say. -/
def optionalFields : List HeaderLine :=
  (if response.pageId.isEmpty then [] else [⟨ascii "WARC-Page-ID", response.pageId⟩]) ++
    (response.resourceType.map fun type => HeaderLine.mk (ascii "WARC-Resource-Type") type).toList

/-- Path and host of the request, if the URL can be read. -/
def requestTarget : Bytes × Bytes :=
  match (fromBytes env.una response.responseUrl).bind env.urlFromText with
  | none => (ascii "/", [])
  | some url => (url.pathWithSearch, url.host)

/-- The status text, which is looked up if the browser gave none. -/
def statusText : Option Bytes :=
  if response.statusMessage.isEmpty then (env.statusCodeString response.statusCode).bind (fromBytes env.una)
  else some response.statusMessage

def httpResponseHead (statusMessage : Bytes) : Bytes :=
  ascii "HTTP/1.1 " ++ (intText response.statusCode ++ (ascii " " ++ (statusMessage ++ crlf))) ++
    ((env.iterate (normalizeResponseHeaders response.headers)).flatMap fun header =>
      headerLineText ⟨header.1, header.2⟩) ++ crlf

def requestPayload : Bytes :=
  let (path, host) := response.requestTarget env
  let method := if response.method.isEmpty then ascii "GET" else response.method
  method ++ (ascii " " ++ (path ++ (ascii " HTTP/1.1\r\nHost: " ++ (host ++ (ascii "\r\nUser-Agent: " ++
    (userAgent ++ ascii "\r\n\r\n"))))))

def responseFields (drawn length : Nat) : List HeaderLine :=
  [⟨ascii "WARC-Type", ascii "response"⟩, ⟨ascii "WARC-Target-URI", response.responseUrl⟩,
    ⟨ascii "WARC-Date", response.timestamp⟩, ⟨ascii "WARC-Record-ID", bracketed (recordId env drawn)⟩] ++
    response.optionalFields ++ contentFields (ascii "application/http; msgtype=response") length

def requestFields (drawn length : Nat) : List HeaderLine :=
  [⟨ascii "WARC-Type", ascii "request"⟩, ⟨ascii "WARC-Target-URI", response.responseUrl⟩,
    ⟨ascii "WARC-Date", response.timestamp⟩, ⟨ascii "WARC-Record-ID", bracketed (recordId env (drawn + 1))⟩,
    ⟨ascii "WARC-Concurrent-To", bracketed (recordId env drawn)⟩] ++
    response.optionalFields ++ contentFields (ascii "application/http; msgtype=request") length

/-- The first text of `SerializeRecordPair`, which ends in two line ends. -/
def responseRecord (drawn : Nat) (statusMessage : Bytes) : Bytes :=
  let head := response.httpResponseHead env statusMessage
  warcRecord (response.responseFields env drawn (head.length + response.body.length)) (head ++ response.body)
    (ascii "\r\n\r\n")

/-- The second one, which ends in one. -/
def requestRecord (drawn : Nat) : Bytes :=
  let payload := response.requestPayload env
  warcRecord (response.requestFields env drawn payload.length) payload (ascii "\r\n")

end SerializableResponse

/-- `SerializeRecordPair`, where `drawn` UUIDs were drawn before; `none` is an abort. -/
def serializeRecordPair (env : WarcEnv) (drawn : Nat) (response : SerializableResponse) : Option (Bytes × Bytes) := do
  let statusMessage ← response.statusText env
  return (response.responseRecord env drawn statusMessage, response.requestRecord env drawn)

/-- `value[key] = member` of a `ValueBuilder`. -/
def setMember (members : List (Bytes × Json)) (key : Bytes) (value : Json) : List (Bytes × Json) :=
  if members.any fun member => member.1 = key then
    members.map fun member => if member.1 = key then (key, value) else member
  else members ++ [(key, value)]

def pageInfoEntry (statusCode : Int) (headers : Headers) (resourceType : Option Bytes) : Json :=
  let mime := contentTypeForHeaders headers
  .object ([(ascii "status", .number (some statusCode))] ++
    (if mime.isEmpty then [] else [(ascii "mime", .string mime)]) ++
    ((resourceType.filter fun type => !type.isEmpty).map fun type => (ascii "type", Json.string type)).toList)

def pageUrl (exchange : CapturedExchange) : Bytes :=
  if exchange.seedUrl.isEmpty then exchange.finalUrl else exchange.seedUrl

def makePageInfoJsonBytes (env : WarcEnv) (exchange : CapturedExchange) : Bytes :=
  let urls := (capturedResponses exchange).foldl (fun urls response =>
    setMember urls response.responseUrl
      (pageInfoEntry response.statusCode response.headers response.resourceType)) []
  env.jsonToString (.object [(ascii "pageid", .string exchange.pageId), (ascii "url", .string (pageUrl exchange)),
    (ascii "ts", .string (pageTimestamp exchange)), (ascii "urls", .object urls),
    (ascii "counts", .object [(ascii "jsErrors", .number (some 0))])])

def pageInfoUrl (exchange : CapturedExchange) : Bytes := ascii "urn:pageinfo:" ++ pageUrl exchange

def pageInfoFields (env : WarcEnv) (drawn : Nat) (exchange : CapturedExchange) (length : Nat) : List HeaderLine :=
  [⟨ascii "WARC-Type", ascii "resource"⟩, ⟨ascii "WARC-Target-URI", pageInfoUrl exchange⟩,
    ⟨ascii "WARC-Date", pageTimestamp exchange⟩, ⟨ascii "WARC-Record-ID", bracketed (recordId env drawn)⟩,
    ⟨ascii "WARC-Page-ID", exchange.pageId⟩, ⟨ascii "WARC-Resource-Type", ascii "pageinfo"⟩] ++
    contentFields (ascii "application/json") length

def serializePageInfoRecord (env : WarcEnv) (drawn : Nat) (exchange : CapturedExchange) : Bytes :=
  let payload := makePageInfoJsonBytes env exchange
  warcRecord (pageInfoFields env drawn exchange payload.length) payload (ascii "\r\n\r\n")

def cdxPayloadDigest (env : WarcEnv) (payload : Bytes) : Option Bytes :=
  fromBytes env.una (sha256PrefixedHex env.sha payload (ascii "sha-256:"))

def cdxRecordDigest (env : WarcEnv) (recordBytes : Bytes) : Option Bytes :=
  fromBytes env.una (sha256PrefixedHex env.sha recordBytes (ascii "sha256:"))

/-- The index entry of a member at an offset. -/
def makeCdxRecord (env : WarcEnv) (recordUrl timestamp payload member : Bytes) (statusCode : Int) (headers : Headers)
    (offset : Nat) : Option WarcCdxRecord := do
  let timestamp ← (env.utcTimestring timestamp).bind (fromBytes env.una)
  let digest ← cdxPayloadDigest env payload
  let recordDigest ← cdxRecordDigest env member
  return { recordUrl, timestamp, digest, recordDigest, statusCode, headers, offset, length := member.length }

/-- A size as `i64`. -/
def size64 (n : Nat) : Option Nat := if (n : Int) ≤ int64Max then some n else none

/-- What `MakeWarc` goes on with from one response to the next. -/
structure WarcProgress where
  out : WarcBuildOutput := {}
  offset : Nat := 0
  drawn : Nat := 0

/-- Error of `GzipMember`. -/
def gzipFailed (detail : Bytes) : ArtifactError := ⟨.gzipFailed, detail⟩

/-- The body of `MakeWarc`'s loop; `none` is an abort or an exception. -/
def appendResponse (env : WarcEnv) (progress : WarcProgress) (response : SerializableResponse) :
    Option (Except ArtifactError WarcProgress) := do
  let (responseBytes, requestBytes) ← serializeRecordPair env progress.drawn response
  match env.gzipCompressMember responseBytes with
  | .error detail => return .error (gzipFailed detail)
  | .ok responseGz =>
    match env.gzipCompressMember requestBytes with
    | .error detail => return .error (gzipFailed detail)
    | .ok requestGz =>
      let record ← makeCdxRecord env response.responseUrl response.timestamp response.body responseGz
        response.statusCode response.headers progress.offset
      let offset ← size64 (progress.offset + (responseGz.length + requestGz.length))
      return .ok {
        out := {
          bytes := progress.out.bytes ++ (responseGz ++ requestGz)
          cdxRecords := progress.out.cdxRecords ++ [record] }
        offset
        drawn := progress.drawn + 2 }

def appendResponses (env : WarcEnv) (progress : WarcProgress) :
    List SerializableResponse → Option (Except ArtifactError WarcProgress)
  | [] => some (.ok progress)
  | response :: responses => do
    match ← appendResponse env progress response with
    | .error error => return .error error
    | .ok progress => appendResponses env progress responses

/-- The part of `MakeWarc` after its loop. -/
def appendPageInfo (env : WarcEnv) (exchange : CapturedExchange) (progress : WarcProgress) :
    Option (Except ArtifactError WarcBuildOutput) := do
  let recordUrl ← env.format (pageInfoUrl exchange)
  match env.gzipCompressMember (serializePageInfoRecord env progress.drawn exchange) with
  | .error detail => return .error (gzipFailed detail)
  | .ok pageInfoGz =>
    let record ← makeCdxRecord env recordUrl (pageTimestamp exchange) (makePageInfoJsonBytes env exchange) pageInfoGz
      200 ((∅ : Headers).insert (ascii "content-type") (ascii "application/json")) progress.offset
    return .ok {
      bytes := progress.out.bytes ++ pageInfoGz
      cdxRecords := progress.out.cdxRecords ++ [record] }

/-- `MakeWarc`. -/
def makeWarc (env : WarcEnv) (exchange : CapturedExchange) : Option (Except ArtifactError WarcBuildOutput) := do
  match ← appendResponses env {} (collectSerializableResponses env exchange) with
  | .error error => return .error error
  | .ok progress => appendPageInfo env exchange progress

end Webshot.Crawler
