import Webshot.Text.Bytes
import Webshot.Foundation.KeyedMaps

/-! URLs and headers of captured requests: how they are normalized before they are recorded. -/
namespace Webshot.Crawler
open Text Foundation.KeyedMaps

/-- A parsed URL, as far as the crawler reads it. -/
structure Url where
  isHttp : Bool
  isHttps : Bool
  hasPort : Bool
  host : Bytes
  hostname : Bytes
  port : Bytes
  pathWithSearch : Bytes
  href : Bytes
  origin : Bytes
  /-- `Without(kPort).Href()`. -/
  hrefWithoutPort : Bytes
  /-- `Without(kHash | kQuery).WithSearch(search).Href()`. -/
  hrefWithSearch : Bytes → Bytes

/-- What the crawler takes from libraries: the text check and the URL parser. -/
structure CaptureEnv where
  una : UniAlgo
  urlFromText : Bytes → Option Url

abbrev Headers := KeyedMap Bytes Bytes

/-- `dto::NetworkResponse`. -/
structure NetworkResponse where
  status : Option Int
  statusText : Option Bytes
  headers : Option (List (Bytes × Bytes))

def startsWith (text start : Bytes) : Bool := start.isPrefixOf text

def endsWith (text ending : Bytes) : Bool := ending.isSuffixOf text

def asciiToLower (b : Byte) : Byte := if 65 ≤ b ∧ b ≤ 90 then b + 32 else b

def localFixtureHosts : List Bytes := [ascii "test-target", ascii "asset.test-target", ascii "untrusted.test-target"]

def isLocalFixtureHost (host : Bytes) : Bool := localFixtureHosts.contains host

namespace CaptureEnv
variable (env : CaptureEnv)

/-- `text::Format`; `none` is the abort on a result that is not text. -/
def format (bytes : Bytes) : Option Bytes := fromBytes env.una bytes

/-- `StringOrNull`: a text that is missing or not valid is missing. -/
def stringOrNull (bytes : Option Bytes) : Option Bytes := bytes.bind (fromBytes env.una)

/-- The port of the local test servers is dropped. -/
def canonicalizeCapturedUrl (urlText : Bytes) : Bytes :=
  match env.urlFromText urlText with
  | none => urlText
  | some url =>
    if !(url.isHttp || url.isHttps) then urlText
    else if !url.hasPort then urlText
    else if !isLocalFixtureHost url.hostname then urlText
    else if (url.isHttp && url.port = ascii "18080") || (url.isHttps && url.port = ascii "18443") then
      url.hrefWithoutPort
    else urlText

def canonicalizeCapturedLocationHeader (responseUrl locationValue : Bytes) : Bytes :=
  match fromBytes env.una locationValue with
  | none => locationValue
  | some location =>
    if location.isEmpty || startsWith location (ascii "/") || startsWith location (ascii "?") ||
        startsWith location (ascii "//") then location
    else
      let canonicalLocation := env.canonicalizeCapturedUrl location
      match env.urlFromText canonicalLocation, env.urlFromText responseUrl with
      | some canonicalUrl, some responseUrl =>
        if canonicalUrl.isHttp = responseUrl.isHttp ∧ canonicalUrl.host = responseUrl.host then
          canonicalUrl.pathWithSearch
        else canonicalLocation
      | _, _ => canonicalLocation

/-- Names in lower case; of two names that become the same the first is kept. -/
def normalizeHeaders (headers : List (Bytes × Bytes)) : Headers :=
  headers.foldl (fun out header => emplace out (header.1.map asciiToLower) header.2) ∅

def normalizeHeadersForCapture (headers : Option (List (Bytes × Bytes))) (responseUrl : Bytes) : Headers :=
  let normalized := headers.elim ∅ normalizeHeaders
  match normalized.lookup (ascii "location") with
  | none => normalized
  | some location => normalized.insert (ascii "location") (env.canonicalizeCapturedLocationHeader responseUrl location)

def makeUrlOrigin (urlText : Bytes) : Option Bytes :=
  (env.urlFromText urlText).bind fun url => if url.isHttp || url.isHttps then some url.origin else none

/-- The location of a redirect, resolved against the URL it came from; `none` is the abort of `text::Format`. -/
def resolveRedirectTargetUrl (baseText requestText : Bytes) (redirectResponse : Option NetworkResponse) :
    Option Bytes :=
  let unresolved := env.canonicalizeCapturedUrl requestText
  match redirectResponse with
  | none => some unresolved
  | some response =>
    match (env.normalizeHeadersForCapture response.headers baseText).lookup (ascii "location") with
    | none => some unresolved
    | some value =>
      if value.isEmpty then some unresolved
      else
        match fromBytes env.una value with
        | none => some unresolved
        | some location =>
          match env.urlFromText location with
          | some absoluteLocation => some (env.canonicalizeCapturedUrl absoluteLocation.href)
          | none =>
            match env.makeUrlOrigin baseText with
            | none => some unresolved
            | some origin =>
              if startsWith location (ascii "//") then
                match env.urlFromText baseText with
                | none => some unresolved
                | some baseUrl =>
                  (env.format (ascii (if baseUrl.isHttps then "https" else "http") ++ ascii ":" ++ location)).map
                    env.canonicalizeCapturedUrl
              else if startsWith location (ascii "/") then
                (env.format (origin ++ location)).map env.canonicalizeCapturedUrl
              else if startsWith location (ascii "?") then
                match env.urlFromText baseText with
                | none => some unresolved
                | some baseUrl => some (env.canonicalizeCapturedUrl (baseUrl.hrefWithSearch location))
              else some unresolved

end CaptureEnv
end Webshot.Crawler
