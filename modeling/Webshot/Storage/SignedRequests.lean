import Webshot.Access.LinkText
import Webshot.Foundation.JsonText
import Webshot.Foundation.NamedValues
import Webshot.Foundation.Squeezing
import Webshot.Storage.CanonicalQuery
import Webshot.Storage.Values

/-! Requests to S3 as the client signs and sends them. -/
namespace Webshot.Storage
open Text Foundation Foundation.JsonText Foundation.NamedValues Foundation.Squeezing

def semicolon : Byte := 59

def asciiStrToLower (text : Bytes) : Bytes := text.map fun c => if 65 ≤ c.val ∧ c.val ≤ 90 then c + 32 else c

/-- The characters that the URL standard drops from a path, and the backslash, which it reads as a slash. -/
def rewrittenBytes : Bytes := [9, 10, 13, 92]

/-- An absolute path that the URL standard takes segment by segment as it is. -/
structure PlainPath (path : Bytes) : Prop where
  absolute : path.head? = some slash
  kept : ∀ c ∈ path, c ∉ rewrittenBytes
  no_dots : ∀ segment ∈ path.splitOn slash, Access.isDotSegment segment = false

/-- What signing takes from libraries: the two hash functions, uni-algo, cctz's `%Y%m%d` and `%H%M%S` in UTC, and the
path of a URL after ada's `set_pathname`. Relied upon is that a plain path is percent-encoded there, and that a percent
sign is left as it is. -/
structure SigningEnv where
  una : UniAlgo
  sha256 : Bytes → Bytes
  hmacSha256 : (key data : Bytes) → Bytes
  utcDate : TimePoint → Bytes
  utcTime : TimePoint → Bytes
  keptInPath : Byte → Bool
  setPathname : Bytes → Bytes
  utcDate_digits : ∀ now, ∀ c ∈ utcDate now, isDigit c = true ∨ c = 45
  utcTime_digits : ∀ now, ∀ c ∈ utcTime now, isDigit c = true
  percent_kept : keptInPath PercentEncoding.percent = true
  setPathname_plain : ∀ path, PlainPath path → setPathname path = PercentEncoding.encode keptInPath path

structure SigParams where
  region : Bytes
  service : Bytes
  accessKeyId : Bytes
  secretAccessKey : Bytes
  sessionToken : Option Bytes
  amzDate : Bytes
  date : Bytes

def makeScope (params : SigParams) : Bytes :=
  params.date ++ slash :: params.region ++ slash :: params.service ++ slash :: ascii "aws4_request"

/-- `absl::RemoveExtraAsciiWhitespace`. -/
def trimSpaces (text : Bytes) : Bytes := trimMarks isAsciiSpace text

def joinSignedHeaders (headers : List (Bytes × Bytes)) : Bytes := [semicolon].intercalate (headers.map Prod.fst)

/-- Header names sort bytewise; values are not compared. -/
def NameLe (a b : Bytes × Bytes) : Prop := a.1 ≤ b.1

instance : DecidableRel NameLe := fun a b => inferInstanceAs (Decidable (a.1 ≤ b.1))

structure CanonicalRequestParts where
  canonicalRequest : Bytes
  signedHeaders : Bytes

def canonicalHeaders (headers : List (Bytes × Bytes)) : Bytes :=
  headers.flatMap fun header => header.1 ++ colon :: trimSpaces header.2 ++ [lineFeed]

def makeCanonicalRequest (method canonicalUri : Bytes) (query headers : List (Bytes × Bytes)) (payloadSha256Hex : Bytes) :
    CanonicalRequestParts where
  canonicalRequest :=
    method ++ lineFeed :: percentEncodeBytes canonicalUri .no ++ lineFeed :: canonicalizeQuery query ++
      lineFeed :: canonicalHeaders headers ++ lineFeed :: joinSignedHeaders headers ++ lineFeed :: payloadSha256Hex
  signedHeaders := joinSignedHeaders headers

def prepareSignedHeaders (host : Bytes) (extra : List (Bytes × Bytes)) : List (Bytes × Bytes) :=
  ((ascii "host", host) :: extra.map fun header => (asciiStrToLower header.1, header.2)).insertionSort NameLe

/-- Assignment in the case-insensitive map of `clients::http::Headers`. -/
def setHeader (headers : List (Bytes × Bytes)) (header : Bytes × Bytes) : List (Bytes × Bytes) :=
  assign asciiStrToLower headers header

/-- The headers that stand beside those of the request. -/
def SigParams.amzHeaders (params : SigParams) (payloadSha256Hex : Bytes) : List (Bytes × Bytes) :=
  [(ascii "x-amz-date", params.amzDate), (ascii "x-amz-content-sha256", payloadSha256Hex)] ++
    (params.sessionToken.map (ascii "x-amz-security-token", ·)).toList

namespace SigningEnv
variable (env : SigningEnv)

def sha256Hex (data : Bytes) : Bytes := (env.sha256 data).flatMap hexPair

def toDateStampUtc (now : TimePoint) : Bytes := env.utcDate now

def toAmzDateUtc (now : TimePoint) : Bytes := env.utcDate now ++ ascii "T" ++ env.utcTime now ++ ascii "Z"

/-- The key that the secret is turned into for one day, region and service. -/
def signingKey (secretAccessKey date region service : Bytes) : Bytes :=
  let date := env.hmacSha256 (ascii "AWS4" ++ secretAccessKey) date
  let region := env.hmacSha256 date region
  let service := env.hmacSha256 region service
  env.hmacSha256 service (ascii "aws4_request")

def computeSignature (params : SigParams) (stringToSign : Bytes) : Bytes :=
  (env.hmacSha256 (env.signingKey params.secretAccessKey params.date params.region params.service) stringToSign).flatMap
    hexPair

def stringToSign (amzDate scope canonicalRequest : Bytes) : Bytes :=
  ascii "AWS4-HMAC-SHA256" ++ lineFeed :: amzDate ++ lineFeed :: scope ++ lineFeed :: env.sha256Hex canonicalRequest

def signHeaders (params : SigParams) (method canonicalUri : Bytes) (query headersLowerTrimmed : List (Bytes × Bytes))
    (payloadSha256Hex : Bytes) : List (Bytes × Bytes) :=
  let out := params.amzHeaders payloadSha256Hex
  let headers := (headersLowerTrimmed ++ out).insertionSort NameLe
  let cr := makeCanonicalRequest method canonicalUri query headers payloadSha256Hex
  let scope := makeScope params
  let signature := env.computeSignature params (env.stringToSign params.amzDate scope cr.canonicalRequest)
  let credential := params.accessKeyId ++ slash :: scope
  let authorization := ascii "AWS4-HMAC-SHA256 Credential=" ++ credential ++ ascii ", SignedHeaders=" ++ cr.signedHeaders ++
    ascii ", Signature=" ++ signature
  out ++ [(ascii "authorization", authorization)]

/-- `text::StringPairs`; without a value its dereference aborts. -/
def stringPairs (pairs : List (Bytes × Bytes)) : Option (List (Bytes × Bytes)) :=
  pairs.mapM fun pair => do return (← fromBytes env.una pair.1, ← fromBytes env.una pair.2)

end SigningEnv

structure Credentials where
  accessKeyId : Bytes
  secretAccessKey : Bytes
  sessionToken : Option Bytes

/-- What a client is made of; the endpoint's path is its root. -/
structure Client where
  region : Bytes
  creds : Credentials
  bucketName : Bytes
  host : Bytes

/-- A request that is handed to the HTTP client: the path that was signed, and the path of the URL. -/
structure SentRequest where
  method : Bytes
  rawPath : Bytes
  path : Bytes
  host : Bytes
  headers : List (Bytes × Bytes)
  body : Bytes

inductive ClientCall where
  | putObject (path data contentType : Bytes) (contentDisposition : Option Bytes) (metadata : List (Bytes × Bytes))
  | getObjectHead (path : Bytes)
  | deleteObject (path : Bytes)

namespace ClientCall

def method : ClientCall → Bytes
  | putObject .. => ascii "PUT"
  | getObjectHead _ => ascii "HEAD"
  | deleteObject _ => ascii "DELETE"

def path : ClientCall → Bytes
  | putObject path .. => path
  | getObjectHead path => path
  | deleteObject path => path

def data : ClientCall → Bytes
  | putObject _ data .. => data
  | getObjectHead _ => []
  | deleteObject _ => []

/-- The headers that the call sets itself, in the order in which it does. -/
def ownHeaders : ClientCall → List (Bytes × Bytes)
  | putObject _ _ contentType contentDisposition metadata =>
    (ascii "Content-Type", contentType) :: (contentDisposition.map (ascii "Content-Disposition", ·)).toList ++
      metadata.map fun entry => (ascii "x-amz-meta-" ++ entry.1, entry.2)
  | getObjectHead _ => []
  | deleteObject _ => []

end ClientCall

namespace Client
variable (env : SigningEnv) (client : Client)

def makeSigParams (now : TimePoint) : SigParams where
  region := client.region
  service := ascii "s3"
  accessKeyId := client.creds.accessKeyId
  secretAccessKey := client.creds.secretAccessKey
  sessionToken := client.creds.sessionToken
  amzDate := env.toAmzDateUtc now
  date := env.toDateStampUtc now

/-- `MakeRawPath` with the bucket, below the root. -/
def makeRawPath (path : Bytes) : Bytes :=
  slash :: (if client.bucketName.isEmpty then [] else client.bucketName ++ if path.isEmpty then [] else [slash]) ++ path

def signRequest (now : TimePoint) (method canonicalUri : Bytes) (headers : List (Bytes × Bytes)) (payloadHash : Bytes) :
    Option (List (Bytes × Bytes)) := do
  let prepared := prepareSignedHeaders client.host headers
  let headersText ← env.stringPairs prepared
  let signed := env.signHeaders (client.makeSigParams env now) method canonicalUri [] headersText payloadHash
  return signed.foldl setHeader headers

/-- What `PutObject`, `GetObjectHead` and `DeleteObject` send; `none` when one of the texts is no text. -/
def request (now : TimePoint) (call : ClientCall) : Option SentRequest := do
  let path ← fromBytes env.una call.path
  let rawPath ← fromBytes env.una (client.makeRawPath path)
  let headers := call.ownHeaders.foldl setHeader []
  let headers ← client.signRequest env now call.method rawPath headers (env.sha256Hex call.data)
  return ⟨call.method, rawPath, env.setPathname rawPath, client.host, headers, call.data⟩

end Client

end Webshot.Storage
