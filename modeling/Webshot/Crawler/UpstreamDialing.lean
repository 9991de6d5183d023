import Webshot.Crawler.Authorities
import Webshot.Crawler.IpAddresses
import Webshot.Crawler.ProxyRelay

/-! The addresses that the egress proxy tries to connect to. -/
namespace Webshot.Crawler
open Text Foundation.JsonText Foundation.Occurrences Foundation.FirstCuts

/-- A socket address: of one of the two IP domains, or of another one. -/
inductive Sockaddr where
  | inet (ip : Ip) (port : Nat)
  | other
  deriving DecidableEq

def sockaddrFromIp (ip : Ip) (port : Nat) : Sockaddr := .inet ip port

def ipFromSockaddr : Sockaddr → Option Ip
  | .inet ip _ => some ip
  | .other => none

def Sockaddr.setPort (port : Nat) : Sockaddr → Sockaddr
  | .inet ip _ => .inet ip port
  | .other => .other

inductive ResolverAnswer where
  | addresses (addrs : List Sockaddr)
  | failed

/-- What connecting takes from libraries. -/
structure DialEnv where
  una : UniAlgo
  inetPton4 : Bytes → Option Ip4
  inetPton6 : Bytes → Option Ip6
  primaryAddressString : Ip → Bytes
  resolve : (host : Bytes) → ResolverAnswer

/-- `EgressProxyConfig`, as far as connecting reads it. -/
structure FixtureConfig where
  enableLocalFixtureRewrite : Bool
  testsuiteLoopbackPorts : List Nat

structure ResolvedTcpAddress where
  sockaddr : Sockaddr
  ip : Ip
  label : Bytes

structure UpstreamTarget where
  connectHost : Bytes
  connectPort : Nat
  allowNonPublicIp : Bool

namespace FixtureConfig

def localFixtureHosts : List Bytes := [ascii "test-target", ascii "asset.test-target", ascii "untrusted.test-target"]

def testsuiteLoopbackHosts : List Bytes := [ascii "127.0.0.1", ascii "localhost", ascii "::1"]

def localHttpPort : Nat := 18080
def localHttpsPort : Nat := 18443
def testsuiteServicePort : Nat := 8080
def testsuitePort : Nat := 8333

def rewriteLocalFixtureIfNeeded (cfg : FixtureConfig) (host : Bytes) (port : Nat) : UpstreamTarget :=
  if !cfg.enableLocalFixtureRewrite then ⟨host, port, false⟩
  else if host ∈ testsuiteLoopbackHosts ∧
      (port = testsuiteServicePort ∨ port = testsuitePort ∨ port ∈ cfg.testsuiteLoopbackPorts) then
    ⟨host, port, true⟩
  else if host ∉ localFixtureHosts then ⟨host, port, false⟩
  else if port = 80 then ⟨ascii "127.0.0.1", localHttpPort, true⟩
  else if port = 443 then ⟨ascii "127.0.0.1", localHttpsPort, true⟩
  else if port = localHttpPort ∨ port = localHttpsPort then ⟨ascii "127.0.0.1", port, true⟩
  else ⟨host, port, false⟩

end FixtureConfig

/-- How one round of the loop in `ConnectUpstream` goes. Without a socket the exception is not caught. -/
inductive ConnectOutcome where
  | noSocket
  | connected
  | failed (what : Bytes)
  deriving DecidableEq

inductive DialEnding where
  | connected
  | refused (reason : Bytes)
  | threw
  | aborted
  deriving DecidableEq

/-- The addresses that `Connect` was called with, in their order, and how it ended. -/
structure DialRun where
  tried : List Sockaddr
  ending : DialEnding
  deriving DecidableEq

/-- The text up to its first NUL. -/
def cString (text : Bytes) : Bytes := text.takeWhile (· ≠ 0)

/-- How the loop over the addresses ends. -/
inductive LoopEnding where
  | connected
  | exhausted (errors : List Bytes)
  | threw
  | aborted

namespace DialEnv
variable (env : DialEnv)

/-- `text::Format`; `none` is the abort on a result that is not text. -/
def format (bytes : Bytes) : Option Bytes := fromBytes env.una bytes

def parseIp4 (text : Bytes) : Option Ip4 := if text.isEmpty then none else env.inetPton4 (cString text)

def parseIp6 (text : Bytes) : Option Ip6 :=
  let bracketed := text.head? = some 91 ∧ text.getLast? = some 93
  env.inetPton6 (cString (if bracketed then (text.drop 1).take (text.length - 2) else text))

def parseIp (text : Bytes) : Option Ip :=
  if text.isEmpty then none
  else
    match env.parseIp4 text with
    | some addr => some (.v4 addr)
    | none => (env.parseIp6 text).map .v6

def describeSockaddr : Sockaddr → Option Bytes
  | .inet (.v6 addr) port =>
    env.format (ascii "[" ++ env.primaryAddressString (.v6 addr) ++ ascii "]:" ++ natText port)
  | .inet (.v4 addr) port => env.format (env.primaryAddressString (.v4 addr) ++ ascii ":" ++ natText port)
  | .other => none

/-- The loop over the resolver's answer; an address that is none of an IP aborts. -/
def resolveAddresses (port : Nat) (allowNonPublicIp : Bool) : List Sockaddr → Option (List ResolvedTcpAddress)
  | [] => some []
  | addr :: addrs => do
    let addr := addr.setPort port
    let ip ← ipFromSockaddr addr
    if !allowNonPublicIp && !ip.isPublicRoutable then resolveAddresses port allowNonPublicIp addrs
    else
      let label ← env.describeSockaddr addr
      return ⟨addr, ip, label⟩ :: (← resolveAddresses port allowNonPublicIp addrs)

/-- `none` is an abort. -/
def resolveTcp (host : Bytes) (port : Nat) (allowNonPublicIp : Bool) :
    Option (Except Bytes (List ResolvedTcpAddress)) :=
  match env.parseIp host with
  | some ip =>
    if !allowNonPublicIp && !ip.isPublicRoutable then
      (env.format (ascii "ip address not public-routable for " ++ host)).map .error
    else do
      let addr := sockaddrFromIp ip port
      return .ok [⟨addr, ip, ← env.describeSockaddr addr⟩]
  | none =>
    match env.resolve host with
    | .failed => (env.format (ascii "dns resolve failed for " ++ host)).map .error
    | .addresses addrs =>
      if addrs.isEmpty then (env.format (ascii "dns resolve returned no addresses for " ++ host)).map .error
      else do
        let resolved ← env.resolveAddresses port allowNonPublicIp addrs
        if resolved.isEmpty then
          (env.format (ascii "dns resolve returned no public-routable addresses for " ++ host)).map .error
        else return .ok resolved

/-- The loop of `ConnectUpstream`; `outcome n` is how its round `n` goes. -/
def connectAddresses (outcome : Nat → ConnectOutcome) : Nat → List Bytes → List ResolvedTcpAddress →
    List Sockaddr × LoopEnding
  | _, errors, [] => ([], .exhausted errors)
  | n, errors, addr :: addrs =>
    match outcome n with
    | .noSocket => ([], .threw)
    | .connected => ([addr.sockaddr], .connected)
    | .failed what =>
      match env.format (addr.label ++ ascii " (" ++ what ++ ascii ")") with
      | none => ([addr.sockaddr], .aborted)
      | some error =>
        let (tried, ending) := connectAddresses outcome (n + 1) (errors ++ [error]) addrs
        (addr.sockaddr :: tried, ending)

/-- `String::operator+=`. -/
def append (text more : Bytes) : Bytes := if more.isEmpty then text else env.una.toNfcUtf8 (text ++ more)

def joinErrors (errors : List Bytes) : Bytes :=
  errors.foldl (fun details cur =>
    env.append (if details.isEmpty then details else env.append details (ascii "; ")) cur) []

def connectUpstream (cfg : FixtureConfig) (outcome : Nat → ConnectOutcome) (host : Bytes) (port : Nat) : DialRun :=
  let upstream := cfg.rewriteLocalFixtureIfNeeded host port
  match env.resolveTcp upstream.connectHost upstream.connectPort upstream.allowNonPublicIp with
  | none => ⟨[], .aborted⟩
  | some (.error reason) => ⟨[], .refused reason⟩
  | some (.ok addrs) =>
    match env.connectAddresses outcome 0 [] addrs with
    | (tried, .connected) => ⟨tried, .connected⟩
    | (tried, .threw) => ⟨tried, .threw⟩
    | (tried, .aborted) => ⟨tried, .aborted⟩
    | (tried, .exhausted errors) =>
      let reason := env.format (ascii "connect upstream failed for " ++ upstream.connectHost ++ ascii ":" ++
        natText upstream.connectPort ++ ascii " after " ++ natText errors.length ++ ascii " attempt(s): " ++
        env.joinErrors errors)
      ⟨tried, reason.elim .aborted .refused⟩

/-- What may be connected to for a host: the literal address, or what the resolver answers, as far as it is public. -/
def publicAddresses (host : Bytes) : List Ip :=
  let found :=
    match env.parseIp host with
    | some ip => [ip]
    | none =>
      match env.resolve host with
      | .failed => []
      | .addresses addrs => addrs.filterMap ipFromSockaddr
  found.filter Ip.isPublicRoutable

end DialEnv

/-- The candidates were tried in their order, up to the first success. -/
structure DialRun.UpToFirstSuccess (run : DialRun) (outcome : Nat → ConnectOutcome) (candidates : List Sockaddr) :
    Prop where
  order : run.tried <+: candidates
  failedBefore : ∀ n, n + 1 < run.tried.length → ∃ what, outcome n = .failed what
  connected : run.ending = .connected → ∃ n, run.tried.length = n + 1 ∧ outcome n = .connected
  refused : ∀ reason, run.ending = .refused reason → run.tried = candidates ∧
    ∀ n < run.tried.length, ∃ what, outcome n = .failed what
  threw : run.ending = .threw → outcome run.tried.length = .noSocket

section Dialling
variable {env : DialEnv} {outcome : Nat → ConnectOutcome} {host : Bytes} {port : Nat} {addrs : List ResolvedTcpAddress}

/-- Why the loop ended with a round. -/
def EndedSo (outcome : Nat → ConnectOutcome) (n : Nat) (candidates tried : List Sockaddr) : LoopEnding → Prop
  | .connected => ∃ i, tried.length = i + 1 ∧ outcome (n + i) = .connected
  | .exhausted _ => tried = candidates ∧ ∀ i < tried.length, ∃ what, outcome (n + i) = .failed what
  | .threw => outcome (n + tried.length) = .noSocket
  | .aborted => True

/-- What a run of the loop from round `n` on has done. -/
structure LoopSpec (outcome : Nat → ConnectOutcome) (n : Nat) (candidates tried : List Sockaddr) (ending : LoopEnding) :
    Prop where
  order : tried <+: candidates
  failedBefore : ∀ i, i + 1 < tried.length → ∃ what, outcome (n + i) = .failed what
  ended : EndedSo outcome n candidates tried ending

/-- A round that fails, and the rounds behind it. -/
theorem LoopSpec.cons {n : Nat} {candidates tried : List Sockaddr} {ending : LoopEnding} {addr : Sockaddr} {what : Bytes}
    (h : LoopSpec outcome (n + 1) candidates tried ending) (hfailed : outcome n = .failed what) :
    LoopSpec outcome n (addr :: candidates) (addr :: tried) ending := by
  have hshift : ∀ i, n + (i + 1) = n + 1 + i := by
    intro i
    omega
  constructor
  · exact List.cons_prefix_cons.mpr ⟨rfl, h.order⟩
  · intro i hi
    rw [List.length_cons] at hi
    cases i with
    | zero => exact ⟨what, hfailed⟩
    | succ i =>
      rw [hshift]
      exact h.failedBefore i (by omega)
  · have hended := h.ended
    cases ending with
    | connected =>
      obtain ⟨i, hlength, hi⟩ := hended
      refine ⟨i + 1, by rw [List.length_cons, hlength], ?_⟩
      rw [hshift]
      exact hi
    | exhausted errors =>
      obtain ⟨hall, hfails⟩ := hended
      refine ⟨by rw [hall], ?_⟩
      intro i hi
      rw [List.length_cons] at hi
      cases i with
      | zero => exact ⟨what, hfailed⟩
      | succ i =>
        rw [hshift]
        exact hfails i (by omega)
    | threw =>
      rw [EndedSo, List.length_cons, hshift]
      exact hended
    | aborted => trivial

theorem connectAddresses_spec (env : DialEnv) (n : Nat) (errors : List Bytes) (addrs : List ResolvedTcpAddress) :
    LoopSpec outcome n (addrs.map ResolvedTcpAddress.sockaddr) (env.connectAddresses outcome n errors addrs).1
      (env.connectAddresses outcome n errors addrs).2 := by
  have hnone : ∀ i, i + 1 < 0 → ∃ what, outcome (n + i) = .failed what := fun i hi => absurd hi (Nat.not_lt_zero _)
  have hsingle : ∀ i, i + 1 < 1 → ∃ what, outcome (n + i) = .failed what := by
    intro i hi
    omega
  induction addrs generalizing n errors with
  | nil =>
    refine ⟨List.nil_prefix, hnone, rfl, ?_⟩
    intro i hi
    exact absurd hi (Nat.not_lt_zero i)
  | cons addr addrs ih =>
    have hfirst : [addr.sockaddr] <+: (addr :: addrs).map ResolvedTcpAddress.sockaddr :=
      List.cons_prefix_cons.mpr ⟨rfl, List.nil_prefix⟩
    rw [DialEnv.connectAddresses]
    cases hround : outcome n with
    | noSocket => exact ⟨List.nil_prefix, hnone, hround⟩
    | connected => exact ⟨hfirst, hsingle, 0, rfl, hround⟩
    | failed what =>
      simp only
      cases env.format (addr.label ++ ascii " (" ++ what ++ ascii ")") with
      | none => exact ⟨hfirst, hsingle, trivial⟩
      | some error =>
        refine LoopSpec.cons (ih (n + 1) (errors ++ [error]) ?_ ?_) hround
        · exact fun i hi => absurd hi (Nat.not_lt_zero _)
        · intro i hi
          omega

theorem resolveAddresses_public {answer : List Sockaddr} (h : env.resolveAddresses port false answer = some addrs) :
    addrs.map ResolvedTcpAddress.sockaddr =
      ((answer.filterMap ipFromSockaddr).filter Ip.isPublicRoutable).map (Sockaddr.inet · port) := by
  induction answer generalizing addrs with
  | nil =>
    cases h
    rfl
  | cons addr answer ih =>
    obtain ⟨ip, hip, h⟩ := Option.bind_eq_some_iff.mp h
    cases addr with
    | other => cases hip
    | inet found oldPort =>
      cases hip
      have hfound : ipFromSockaddr (.inet ip oldPort) = some ip := rfl
      rw [List.filterMap_cons_some hfound]
      cases hpublic : ip.isPublicRoutable with
      | false =>
        rw [hpublic] at h
        rw [List.filter_cons_of_neg (by rw [hpublic]; exact Bool.false_ne_true)]
        exact ih h
      | true =>
        rw [hpublic] at h
        obtain ⟨label, _, h⟩ := Option.bind_eq_some_iff.mp h
        obtain ⟨rest, hrest, heq⟩ := Option.bind_eq_some_iff.mp h
        cases heq
        rw [List.filter_cons_of_pos hpublic, List.map_cons, List.map_cons, ih hrest]
        rfl

/-- What is resolved are the public addresses, each with the port; where there is none, that is an error. -/
theorem resolveTcp_spec {resolved : Except Bytes (List ResolvedTcpAddress)}
    (h : env.resolveTcp host port false = some resolved) :
    (resolved.toOption.getD []).map ResolvedTcpAddress.sockaddr =
      (env.publicAddresses host).map (Sockaddr.inet · port) := by
  rw [DialEnv.resolveTcp] at h
  rw [DialEnv.publicAddresses]
  cases hip : env.parseIp host with
  | some ip =>
    simp only [hip] at h ⊢
    cases hpublic : ip.isPublicRoutable with
    | false =>
      simp only [hpublic, Bool.not_false, Bool.and_self, if_true] at h
      obtain ⟨reason, -, rfl⟩ := Option.map_eq_some_iff.mp h
      rw [List.filter_cons_of_neg (by rw [hpublic]; exact Bool.false_ne_true)]
      rfl
    | true =>
      simp only [hpublic, Bool.not_true, Bool.and_false, Bool.false_eq_true, if_false] at h
      obtain ⟨label, -, heq⟩ := Option.bind_eq_some_iff.mp h
      cases heq
      rw [List.filter_cons_of_pos hpublic]
      rfl
  | none =>
    simp only [hip] at h ⊢
    cases hanswer : env.resolve host with
    | failed =>
      simp only [hanswer] at h
      obtain ⟨reason, -, rfl⟩ := Option.map_eq_some_iff.mp h
      rfl
    | addresses answer =>
      simp only [hanswer] at h ⊢
      split at h
      · rename_i hempty
        obtain ⟨reason, -, rfl⟩ := Option.map_eq_some_iff.mp h
        rw [List.isEmpty_iff.mp hempty]
        rfl
      · obtain ⟨found, hfound, h⟩ := Option.bind_eq_some_iff.mp h
        rw [← resolveAddresses_public hfound]
        split at h
        · rename_i hempty
          obtain ⟨reason, -, rfl⟩ := Option.map_eq_some_iff.mp h
          rw [List.isEmpty_iff.mp hempty]
          rfl
        · cases h
          rfl

/-- Without the rewriting for fixtures, only public addresses of the host are tried, with the port that was asked for. -/
theorem connectUpstream_spec {cfg : FixtureConfig} (hoff : cfg.enableLocalFixtureRewrite = false) (host : Bytes)
    (port : Nat) : (env.connectUpstream cfg outcome host port).UpToFirstSuccess outcome
      ((env.publicAddresses host).map (Sockaddr.inet · port)) := by
  have hupstream : cfg.rewriteLocalFixtureIfNeeded host port = ⟨host, port, false⟩ := by
    rw [FixtureConfig.rewriteLocalFixtureIfNeeded, hoff]
    rfl
  rw [DialEnv.connectUpstream, hupstream]
  cases hresolved : env.resolveTcp host port false with
  | none => exact ⟨List.nil_prefix, by simp, by simp, by simp, by simp⟩
  | some resolved =>
    have hpublic := resolveTcp_spec hresolved
    cases resolved with
    | error reason =>
      have hnone : (env.publicAddresses host).map (Sockaddr.inet · port) = [] := hpublic.symm
      rw [hnone]
      exact ⟨List.nil_prefix, by simp, by simp, by simp, by simp⟩
    | ok addrs =>
      have hloop : LoopSpec outcome 0 _ _ _ := connectAddresses_spec env 0 [] addrs
      rw [show addrs.map ResolvedTcpAddress.sockaddr = _ from hpublic] at hloop
      simp only
      generalize env.connectAddresses outcome 0 [] addrs = ended at hloop ⊢
      obtain ⟨tried, ending⟩ := ended
      have hbefore : ∀ n, n + 1 < tried.length → ∃ what, outcome n = .failed what := by
        intro n hn
        rw [← Nat.zero_add n]
        exact hloop.failedBefore n hn
      have hended := hloop.ended
      cases ending with
      | connected =>
        obtain ⟨n, hlength, hn⟩ := hended
        rw [Nat.zero_add] at hn
        exact ⟨hloop.order, hbefore, fun _ => ⟨n, hlength, hn⟩, by simp, by simp⟩
      | exhausted errors =>
        have hfails : ∀ n < tried.length, ∃ what, outcome n = .failed what := by
          intro n hn
          rw [← Nat.zero_add n]
          exact hended.2 n hn
        simp only
        cases env.format _ with
        | none => exact ⟨hloop.order, hbefore, by simp, by simp, by simp⟩
        | some reason => exact ⟨hloop.order, hbefore, by simp, fun _ _ => ⟨hended.1, hfails⟩, by simp⟩
      | threw =>
        rw [EndedSo, Nat.zero_add] at hended
        exact ⟨hloop.order, hbefore, by simp, by simp, fun _ => hended⟩
      | aborted => exact ⟨hloop.order, hbefore, by simp, by simp, by simp⟩

end Dialling

section Calls
variable (env : RelayEnv) (cfg : EgressProxyConfig)

/-- Host and port that `HandleConnect` hands to `ConnectUpstream`; `none` if it ends before. -/
def connectMethodCall (req : ParsedRequest) : Option (Bytes × Nat) := do
  let authority ← parseAuthority req.target 0 .required
  let host ← fromBytes env.una authority.host
  return (host, authority.port)

def httpCall (req : ParsedRequest) : Option (Bytes × Nat) := do
  let target ← (parseHttpRequestTarget env.una req).toOption
  let _ ← (contentLength req).toOption
  return (target.host, target.port)

def connectCall (client : ClientSocket) : Option (Bytes × Nat) :=
  match readHeader [] client.chunks with
  | .tooLarge => none
  | .closed => none
  | .complete header _ =>
    match parseHeaderBlock header with
    | none => none
    | some req =>
      if req.target.length > cfg.urlBytesMax then none
      else if !isAuthorized env cfg req then none
      else if isConnect req then connectMethodCall env req
      else httpCall env req

/-- A handler that asks for an upstream with the given call only, and goes on as the answer says. -/
def AsksOnly (call : Option (Bytes × Nat)) (handler : (Bytes → Nat → Except Bytes Unit) → ClientOutcome) : Prop :=
  match call with
  | none => ∀ connectUpstream connectUpstream', handler connectUpstream = handler connectUpstream'
  | some (host, port) => ∀ connectUpstream : Bytes → Nat → Except Bytes Unit,
    match connectUpstream host port with
    | .error reason => handler connectUpstream = .answered (make502Response reason)
    | .ok _ => ∃ toUpstream, handler connectUpstream = .relayed ⟨host, port, toUpstream⟩

theorem handleConnect_asksOnly (req : ParsedRequest) (rest : List Bytes) :
    AsksOnly (connectMethodCall env req) fun connectUpstream => handleConnect { env with connectUpstream } req rest := by
  rw [connectMethodCall]
  cases hauthority : parseAuthority req.target 0 .required with
  | none =>
    intro f g
    simp only [handleConnect, hauthority]
  | some authority =>
    cases hhost : fromBytes env.una authority.host with
    | none =>
      simp only [Option.bind_eq_bind, Option.bind_some, hhost, Option.bind_none]
      intro f g
      simp only [handleConnect, hauthority, hhost]
    | some host =>
      simp only [Option.bind_eq_bind, Option.bind_some, hhost, Option.pure_def]
      intro f
      simp only [handleConnect, hauthority, hhost]
      cases f host authority.port with
      | error reason => rfl
      | ok _ => exact ⟨_, rfl⟩

theorem handleHttp_asksOnly (req : ParsedRequest) (header : Bytes) (rest : List Bytes) :
    AsksOnly (httpCall env req) fun connectUpstream => handleHttp { env with connectUpstream } req header rest := by
  rw [httpCall]
  cases htarget : parseHttpRequestTarget env.una req with
  | error message =>
    intro f g
    simp only [handleHttp, htarget]
  | ok target =>
    cases hlength : contentLength req with
    | error message =>
      intro f g
      simp only [handleHttp, htarget, hlength]
    | ok length =>
      intro f
      simp only [handleHttp, htarget, hlength]
      cases f target.host target.port with
      | error reason => rfl
      | ok _ => exact ⟨_, rfl⟩

/-- `HandleClient` asks for an upstream once at most. -/
theorem handleClient_asksOnly (client : ClientSocket) :
    AsksOnly (connectCall env cfg client) fun connectUpstream => handleClient { env with connectUpstream } cfg client := by
  simp only [connectCall, handleClient]
  cases readHeader [] client.chunks with
  | tooLarge => exact fun _ _ => rfl
  | closed => exact fun _ _ => rfl
  | complete header rest =>
    simp only
    cases parseHeaderBlock header with
    | none => exact fun _ _ => rfl
    | some req =>
      have hauthorized : ∀ connectUpstream, isAuthorized { env with connectUpstream } cfg req = isAuthorized env cfg req :=
        fun _ => rfl
      simp only [hauthorized]
      by_cases hlong : req.target.length > cfg.urlBytesMax
      · simp only [if_pos hlong]
        exact fun _ _ => rfl
      · simp only [if_neg hlong]
        cases isAuthorized env cfg req with
        | false => exact fun _ _ => rfl
        | true =>
          cases isConnect req with
          | true => exact handleConnect_asksOnly env req rest
          | false => exact handleHttp_asksOnly env req header rest

end Calls

section Clients
variable {env : RelayEnv} {cfg : EgressProxyConfig} {client : ClientSocket} {req : ParsedRequest}

/-- Where a request wants to go: for CONNECT as its target says, and otherwise as its absolute target or its Host header
says, with port 80 if they name none. -/
inductive RequestAddress (una : UniAlgo) (req : ParsedRequest) : Bytes → Nat → Prop
  | connect {authority : Authority} {host : Bytes} : isConnect req = true →
      AuthorityText 0 .required authority (trimView req.target) → fromBytes una authority.host = some host →
      RequestAddress una req host authority.port
  | absolute {authority : Authority} {host text rest : Bytes} : isConnect req = false →
      req.target = ascii "http://" ++ (text ++ rest) → slash ∉ text → rest = [] ∨ rest.head? = some slash →
      AuthorityText 80 .optional authority (trimView text) → fromBytes una authority.host = some host →
      RequestAddress una req host authority.port
  | origin {authority : Authority} {host value : Bytes} : isConnect req = false → req.target.head? = some slash →
      findHeaderValue req.headers (ascii "host") = some value →
      AuthorityText 80 .optional authority (trimView value) → fromBytes una authority.host = some host →
      RequestAddress una req host authority.port

/-- A port that is left out reads as zero, which stands for 80. -/
theorem AuthorityText.default80 {authority : Authority} {text : Bytes} (h : AuthorityText 0 .optional authority text) :
    AuthorityText 80 .optional ⟨authority.host, if authority.port = 0 then 80 else authority.port⟩ text := by
  obtain ⟨hostText, portText, htext, hhost, hport⟩ := h
  refine ⟨hostText, portText, htext, hhost, ?_⟩
  generalize authority.port = port at hport
  cases hport with
  | omitted hmode => exact .omitted hmode
  | given hdigits =>
    rw [if_neg hdigits.positive.ne']
    exact .given hdigits

theorem parseHttpRequestTarget_address {una : UniAlgo} {target : HttpRequestTarget} (hmethod : isConnect req = false)
    (h : parseHttpRequestTarget una req = .ok target) : RequestAddress una req target.host target.port := by
  rw [parseHttpRequestTarget] at h
  split at h
  · rename_i hstart
    simp only at h
    split at h
    · cases h
    · rename_i authority hauthority
      split at h
      · cases h
      · rename_i host hhost
        cases h
        obtain ⟨rest, hrest⟩ := List.isPrefixOf_iff_prefix.mp hstart
        have hdrop : req.target.drop (ascii "http://").length = rest := by rw [← hrest, List.drop_left]
        rw [hdrop] at hauthority
        cases hslash : rest.idxOf? slash with
        | none =>
          rw [hslash, Option.elim_none] at hauthority
          have htarget : req.target = ascii "http://" ++ (rest ++ []) := by rw [List.append_nil, hrest]
          exact .absolute hmethod htarget (List.idxOf?_eq_none_iff.mp hslash) (Or.inl rfl)
            (parseAuthority_sound hauthority) hhost
        | some pos =>
          rw [hslash, Option.elim_some] at hauthority
          obtain ⟨hnot, hcut⟩ := eq_append_of_idxOf? hslash
          have htarget : req.target = ascii "http://" ++ (rest.take pos ++ slash :: rest.drop (pos + 1)) := by
            rw [← hcut, hrest]
          exact .absolute hmethod htarget hnot (Or.inr rfl) (parseAuthority_sound hauthority) hhost
  · split at h
    · cases h
    · rename_i hstart
      split at h
      · cases h
      · rename_i value hvalue
        split at h
        · cases h
        · rename_i authority hauthority
          split at h
          · cases h
          · rename_i host hhost
            cases h
            have hhead : req.target.head? = some slash := by
              rw [Bool.not_eq_true, Bool.not_eq_false'] at hstart
              obtain ⟨rest, hrest⟩ := List.isPrefixOf_iff_prefix.mp hstart
              rw [← hrest]
              rfl
            exact .origin hmethod hhead hvalue (parseAuthority_sound hauthority).default80 hhost

/-- The call names what the request says. -/
theorem connectCall_address {host : Bytes} {port : Nat} (h : connectCall env cfg client = some (host, port)) :
    ∃ header rest req, readHeader [] client.chunks = .complete header rest ∧ parseHeaderBlock header = some req ∧
      RequestAddress env.una req host port := by
  rw [connectCall] at h
  split at h
  · cases h
  · cases h
  · rename_i header rest hread
    split at h
    · cases h
    · rename_i req hreq
      refine ⟨header, rest, req, hread, hreq, ?_⟩
      split at h
      · cases h
      · split at h
        · cases h
        · split at h
          · rename_i hmethod
            obtain ⟨authority, hauthority, h⟩ := Option.bind_eq_some_iff.mp h
            obtain ⟨host, hhost, heq⟩ := Option.bind_eq_some_iff.mp h
            cases heq
            exact .connect hmethod (parseAuthority_sound hauthority) hhost
          · rename_i hmethod
            obtain ⟨target, htarget, h⟩ := Option.bind_eq_some_iff.mp h
            obtain ⟨length, _, heq⟩ := Option.bind_eq_some_iff.mp h
            cases heq
            apply parseHttpRequestTarget_address (Bool.eq_false_iff.mpr hmethod)
            cases hparsed : parseHttpRequestTarget env.una req with
            | error message =>
              rw [hparsed] at htarget
              cases htarget
            | ok parsed =>
              rw [hparsed] at htarget
              cases htarget
              rfl

end Clients

/-- The addresses that are tried for a client. -/
def clientDials (env : RelayEnv) (cfg : EgressProxyConfig) (dial : DialEnv) (fixtures : FixtureConfig)
    (outcome : Nat → ConnectOutcome) (client : ClientSocket) : List Sockaddr :=
  (connectCall env cfg client).elim [] fun call => (dial.connectUpstream fixtures outcome call.1 call.2).tried

/-- Without the rewriting for fixtures, whatever a client sends, the resolver answers and connecting comes to: only
public addresses of the host that the request names are tried, with the port that it names, in the resolver's order up to
the first success. -/
theorem clientDials_public (env : RelayEnv) (cfg : EgressProxyConfig) (dial : DialEnv) {fixtures : FixtureConfig}
    (hoff : fixtures.enableLocalFixtureRewrite = false) (outcome : Nat → ConnectOutcome) (client : ClientSocket) :
    (AsksOnly (connectCall env cfg client) fun connectUpstream =>
      handleClient { env with connectUpstream } cfg client) ∧
    (connectCall env cfg client = none → clientDials env cfg dial fixtures outcome client = []) ∧
    ∀ host port, connectCall env cfg client = some (host, port) →
      (∃ header rest req, readHeader [] client.chunks = .complete header rest ∧ parseHeaderBlock header = some req ∧
        RequestAddress env.una req host port) ∧
      (∀ addr ∈ clientDials env cfg dial fixtures outcome client, ∃ ip, addr = .inet ip port ∧ ip.isPublicRoutable = true) ∧
      clientDials env cfg dial fixtures outcome client = (dial.connectUpstream fixtures outcome host port).tried ∧
      (dial.connectUpstream fixtures outcome host port).UpToFirstSuccess outcome
        ((dial.publicAddresses host).map (Sockaddr.inet · port)) ∧
      (dial.publicAddresses host = [] → clientDials env cfg dial fixtures outcome client = []) := by
  refine ⟨handleClient_asksOnly env cfg client, ?_, ?_⟩
  · intro hcall
    rw [clientDials, hcall, Option.elim_none]
  · intro host port hcall
    have hdials : clientDials env cfg dial fixtures outcome client =
        (dial.connectUpstream fixtures outcome host port).tried := by
      rw [clientDials, hcall, Option.elim_some]
    have hspec : (dial.connectUpstream fixtures outcome host port).UpToFirstSuccess outcome
        ((dial.publicAddresses host).map (Sockaddr.inet · port)) := connectUpstream_spec hoff host port
    refine ⟨connectCall_address hcall, ?_, hdials, hspec, ?_⟩
    · intro addr haddr
      rw [hdials] at haddr
      obtain ⟨ip, hip, rfl⟩ := List.mem_map.mp (hspec.order.subset haddr)
      exact ⟨ip, rfl, (List.mem_filter.mp hip).2⟩
    · intro hempty
      have hprefix := hspec.order
      rw [hempty, List.map_nil, List.prefix_nil] at hprefix
      rw [hdials, hprefix]

/-- A resolver with one private and two public addresses. -/
def sampleDialEnv : DialEnv where
  una := asciiUna
  inetPton4 _ := none
  inetPton6 _ := none
  primaryAddressString ip :=
    match ip with
    | .v4 addr => (ascii ".").intercalate (addr.toList.map fun b => natText b.val)
    | .v6 _ => ascii "::"
  resolve _ := .addresses [.inet (.v4 #v[10, 0, 0, 1]) 0, .inet (.v4 #v[8, 8, 8, 8]) 0, .inet (.v4 #v[9, 9, 9, 9]) 0]

def sampleDialClient : ClientSocket where
  chunks := [ascii "G http://h/ H\r\n\r\n"]
  chunks_bounded := by decide

theorem clientDials_public_sample :
    clientDials ⟨asciiUna, fun _ => none, fun _ _ => .ok ()⟩ ⟨[], 100, false⟩ sampleDialEnv ⟨false, []⟩
        (fun n => if n = 0 then .failed [] else .connected) sampleDialClient =
      [.inet (.v4 #v[8, 8, 8, 8]) 80, .inet (.v4 #v[9, 9, 9, 9]) 80] ∧
    ∀ addr ∈ clientDials ⟨asciiUna, fun _ => none, fun _ _ => .ok ()⟩ ⟨[], 100, false⟩ sampleDialEnv ⟨false, []⟩
        (fun n => if n = 0 then .failed [] else .connected) sampleDialClient,
      ∃ ip, addr = .inet ip 80 ∧ ip.isPublicRoutable = true := by
  have hcall : connectCall ⟨asciiUna, fun _ => none, fun _ _ => .ok ()⟩ ⟨[], 100, false⟩ sampleDialClient =
      some (ascii "h", 80) := by
    decide +kernel
  refine ⟨by decide +kernel, ?_⟩
  exact ((clientDials_public _ _ sampleDialEnv rfl _ sampleDialClient).2.2 (ascii "h") 80 hcall).2.1

end Webshot.Crawler
