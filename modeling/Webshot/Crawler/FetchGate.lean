import Webshot.Access.PolicyDecisions
import Webshot.Access.LinkText
import Webshot.Crawler.CaptureErrors

/-! The interception of fetches: what the crawler replies to a request the browser has paused, by the access policy. -/
namespace Webshot.Crawler
open Text Foundation.JsonText Access Storage

structure FetchRequestPausedEvent where
  requestId : Bytes
  url : Bytes

structure FetchAuthRequiredEvent where
  requestId : Bytes
  source : Option Bytes

inductive AuthChallengeResponse where
  | provideCredentials (username password : Bytes)
  | default
  deriving DecidableEq

/-- The three commands of the Fetch domain by which a request goes on. -/
inductive FetchReply where
  | continueRequest (requestId : Bytes)
  | fulfillRequest (requestId : Bytes) (responseCode : Nat) (responseHeaders : List (Bytes × Bytes)) (body : Bytes)
    (responsePhrase : Bytes)
  | continueWithAuth (requestId : Bytes) (authChallengeResponse : AuthChallengeResponse)
  deriving DecidableEq

def FetchReply.method : FetchReply → Bytes
  | continueRequest _ => ascii "Fetch.continueRequest"
  | fulfillRequest _ _ _ _ _ => ascii "Fetch.fulfillRequest"
  | continueWithAuth _ _ => ascii "Fetch.continueWithAuth"

/-- What the handlers take from libraries and from the configuration. Relied upon is that a `ws` URL differs from its
`http` form in the scheme alone, and a `wss` URL from its `https` form. -/
structure FetchGate where
  env : CaptureEnv
  rules : UrlRules
  parser : UrlParser rules
  withProtocol : Access.Url rules → Bytes → Access.Url rules
  asRequestPaused : List (Bytes × Json) → Parsed FetchRequestPausedEvent
  asAuthRequired : List (Bytes × Json) → Parsed FetchAuthRequiredEvent
  base64Encode : Bytes → Bytes
  httpsOnly : Bool
  allowlistOnly : Bool
  urlBytesMax : Nat
  runId : Bytes
  withProtocol_web : ∀ (url : Access.Url rules) (scheme : Bytes),
    (url.scheme = ascii "ws" ∧ scheme = http) ∨ (url.scheme = ascii "wss" ∧ scheme = https) →
      (withProtocol url scheme).hostname = url.hostname ∧ (withProtocol url scheme).pathname = url.pathname ∧
        (withProtocol url scheme).query = url.query

/-- A Fetch event, the tables and the failures its policy queries meet, and what comes of the reply. -/
structure FetchTurn (una : UniAlgo) where
  event : CdpEvent
  tables : PolicyTables
  denylistError : Option PgError
  allowlistError : Option PgError
  delivered : Reply una Unit

def FetchTurn.repo {una : UniAlgo} (turn : FetchTurn una) : PolicyRepo where
  checkDenylistTree tree := turn.denylistError.elim (.ok (checkTree turn.tables.denylist tree)) .error
  checkAllowlistTree tree := turn.allowlistError.elim (.ok (checkTree turn.tables.allowlist tree)) .error

/-- How a Fetch event is handled: what was sent, and the error that was noted. -/
inductive Intercepted where
  | done (sent : Option FetchReply) (failure : Option Bytes)
  | threw
  | aborted

/-- An error without a reply; its text may abort. -/
def Intercepted.failing : Option Bytes → Intercepted
  | some text => .done none (some text)
  | none => .aborted

def accessDecisionMessage : AccessDecisionReason → Bytes
  | .allowed => ascii "allowed"
  | .denylisted => ascii "link prefix in denylist"
  | .notAllowlisted => ascii "link not in allowlist"
  | .nonHttps => ascii "non-HTTPS fetch blocked"

def makeBlockedFetchHeaders (bodyBytes : Nat) : List (Bytes × Bytes) :=
  [(ascii "Content-Type", ascii "text/plain; charset=utf-8"), (ascii "Content-Length", natText bodyBytes),
    (ascii "Cache-Control", ascii "no-store")]

namespace FetchGate
variable (gate : FetchGate)

def mode : AccessPolicyMode := if gate.allowlistOnly then .allowlistOnly else .regular

/-- `AccessPolicyUrlFromText`: the URLs of other schemes are not the policy's concern. -/
def accessPolicyUrlFromText (text : Bytes) : Option (Access.Url gate.rules) :=
  (gate.parser.parse text).filter fun url => url.isHttpOrHttps || url.scheme = ascii "ws" || url.scheme = ascii "wss"

/-- The URL of which `LinkFromInterceptionUrl` makes a link. -/
def webUrl (url : Access.Url gate.rules) : Access.Url gate.rules :=
  if url.scheme = ascii "ws" then gate.withProtocol url http
  else if url.scheme = ascii "wss" then gate.withProtocol url https
  else url

/-- `LinkFromInterceptionUrl`; the text of an error may abort. -/
def linkFromInterceptionUrl (url : Access.Url gate.rules) : Except (Option Bytes) Link :=
  match normalizeUrl (gate.webUrl url) gate.urlBytesMax with
  | .ok link => .ok link
  | .error code =>
    .error <| if code = .inputTooLong ∨ code = .normalizedHrefTooLong then some (ascii "url too long")
      else gate.env.format (ascii "failed to normalize intercepted request url " ++ url.href)

def evaluateAccessPolicy (repo : PolicyRepo) (url : Access.Url gate.rules) : Except (Option Bytes) AccessDecision :=
  if gate.httpsOnly = true ∧ (url.scheme = http ∨ url.scheme = ascii "ws") then .ok ⟨false, .nonHttps⟩
  else
    match gate.linkFromInterceptionUrl url with
    | .error failure => .error failure
    | .ok link =>
      match makePrefixKey gate.env.una link with
      | none => .error none
      | some prefixKey =>
        match repo.evaluatePrefix prefixKey gate.mode with
        | .ok decision => .ok decision
        | .error _ => .error (some (ascii "access policy check failed during fetch interception"))

/-- `SendVoid` of a reply, its error noted. -/
def sendReply (reply : FetchReply) (delivered : Reply gate.env.una Unit) : Intercepted :=
  match delivered with
  | .ok _ => .done (some reply) none
  | .error detail =>
    match gate.env.formatCdpError (reply.method ++ ascii " failed") detail with
    | some text => .done (some reply) (some text)
    | none => .aborted

/-- `ParseEventParams`, and the handler of what was parsed. -/
def withParams {α : Type} (event : CdpEvent) (as : List (Bytes × Json) → Parsed α) (handle : α → Intercepted) :
    Intercepted :=
  match event.params with
  | none => .failing (gate.env.format (event.method ++ ascii " missing params"))
  | some params =>
    match as params with
    | .jsonException => .failing (gate.env.format (event.method ++ ascii " has invalid params"))
    | .otherException => .threw
    | .parsed dto => handle dto

def blockedReply (requestId : Bytes) (reason : AccessDecisionReason) : FetchReply :=
  let body := accessDecisionMessage reason ++ ascii "\n"
  .fulfillRequest requestId 403 (makeBlockedFetchHeaders body.length) (gate.base64Encode body) (ascii "Forbidden")

def handleFetchRequestPaused (turn : FetchTurn gate.env.una) : Intercepted :=
  gate.withParams turn.event gate.asRequestPaused fun paused =>
    match fromBytes gate.env.una paused.url with
    | none => .done none (some (ascii "Fetch.requestPaused contained invalid request url"))
    | some requestText =>
      match gate.accessPolicyUrlFromText requestText with
      | none => gate.sendReply (.continueRequest paused.requestId) turn.delivered
      | some url =>
        match gate.evaluateAccessPolicy turn.repo url with
        | .error failure => .failing failure
        | .ok decision =>
          if decision.allowed then gate.sendReply (.continueRequest paused.requestId) turn.delivered
          else gate.sendReply (gate.blockedReply paused.requestId decision.reason) turn.delivered

def handleFetchAuthRequired (turn : FetchTurn gate.env.una) : Intercepted :=
  gate.withParams turn.event gate.asAuthRequired fun authRequired =>
    let isProxyChallenge := authRequired.source.all (· = ascii "Proxy")
    gate.sendReply (.continueWithAuth authRequired.requestId
      (if isProxyChallenge then .provideCredentials gate.runId (ascii "x") else .default)) turn.delivered

end FetchGate
end Webshot.Crawler
