import Webshot.Crawler.ProxyRequests

/-! What the egress proxy passes on to the upstream of what it reads from the browser, piece by piece. -/
namespace Webshot.Crawler
open Text Foundation.JsonText Foundation.Occurrences

/-- `EgressProxyConfig`, as far as the handling of a client reads it. -/
structure EgressProxyConfig where
  runId : Bytes
  urlBytesMax : Nat
  requireAuth : Bool

/-- What a client's handling takes from libraries, and how connecting to an upstream ends. -/
structure RelayEnv where
  una : UniAlgo
  base64Decode : Bytes → Option Bytes
  connectUpstream : (host : Bytes) → (port : Nat) → Except Bytes Unit

def ioBufferBytes : Nat := 16 * 1024

def maxHeaderBytes : Nat := 64 * 1024

/-- The browser's end of a connection: the pieces in which `RecvSome` with a full buffer yields what it sends. -/
structure ClientSocket where
  chunks : List Bytes
  chunks_bounded : ∀ chunk ∈ chunks, 0 < chunk.length ∧ chunk.length ≤ ioBufferBytes

def ClientSocket.bytes (client : ClientSocket) : Bytes := client.chunks.flatten

/-- An upstream a client was connected to, and the bytes that were sent to it. -/
structure Relay where
  host : Bytes
  port : Nat
  toUpstream : Bytes
  deriving DecidableEq

/-- How `HandleClient` ends while the proxy is not stopped and every send succeeds. -/
inductive ClientOutcome where
  | closed
  | answered (response : Bytes)
  | relayed (relay : Relay)
  deriving DecidableEq

def makeErrorResponse (status message : Bytes) : Bytes :=
  let body := message ++ ascii "\n"
  status ++ ascii "\r\nContent-Type: text/plain; charset=utf-8\r\nConnection: close\r\nContent-Length: " ++
    natText body.length ++ blankLine ++ body

def make400Response (message : Bytes) : Bytes := makeErrorResponse (ascii "HTTP/1.1 400 Bad Request") message

def make502Response (message : Bytes) : Bytes := makeErrorResponse (ascii "HTTP/1.1 502 Bad Gateway") message

def proxyAuthRequiredResponse : Bytes :=
  ascii "HTTP/1.1 407 Proxy Authentication Required\r\nContent-Type: text/plain; charset=utf-8\r\n" ++
    ascii "Proxy-Authenticate: Basic realm=\"webshot\"\r\nConnection: close\r\nContent-Length: 30\r\n\r\n" ++
    ascii "Proxy authentication required\n"

/-- How the loop that reads the header ends. -/
inductive HeaderRead where
  | complete (header : Bytes) (rest : List Bytes)
  | tooLarge
  | closed

/-- The loop that reads the header: the size is looked at before each read. -/
def readHeader (header : Bytes) : List Bytes → HeaderRead
  | [] =>
    if occursIn blankLine header then .complete header []
    else if header.length > maxHeaderBytes then .tooLarge
    else .closed
  | chunk :: rest =>
    if occursIn blankLine header then .complete header (chunk :: rest)
    else if header.length > maxHeaderBytes then .tooLarge
    else readHeader (header ++ chunk) rest

/-- `CopyClientToUpstream`: every piece is sent on, until the browser closes its side. -/
def copyClientToUpstream : List Bytes → Bytes
  | [] => []
  | chunk :: rest => chunk ++ copyClientToUpstream rest

/-- The loop of `ForwardHttpRequestBody`. What a read leaves of a piece is never asked for: it is shorter than the
piece only when it is all that remains. -/
def forwardRemainingBody (remainingBody : Nat) : List Bytes → Bytes
  | [] => []
  | chunk :: rest =>
    if remainingBody = 0 then []
    else
      let received := chunk.take (min remainingBody ioBufferBytes)
      received ++ forwardRemainingBody (remainingBody - received.length) rest

def forwardHttpRequestBody (bufferedBody : Bytes) (remainingBody : Nat) (client : List Bytes) : Bytes :=
  let alreadyBuffered := bufferedBody.take (min remainingBody bufferedBody.length)
  alreadyBuffered ++ forwardRemainingBody (remainingBody - alreadyBuffered.length) client

def isConnect (req : ParsedRequest) : Bool := iCaseEqual req.method (ascii "CONNECT")

def invalidConnectTarget : Bytes := ascii "invalid CONNECT target"

section Handling
variable (env : RelayEnv) (cfg : EgressProxyConfig)

/-- `HandleConnect`: what was read behind the header block is not handed over. -/
def handleConnect (req : ParsedRequest) (client : List Bytes) : ClientOutcome :=
  match parseAuthority req.target 0 .required with
  | none => .answered (make400Response invalidConnectTarget)
  | some authority =>
    match fromBytes env.una authority.host with
    | none => .answered (make400Response invalidConnectTarget)
    | some host =>
      match env.connectUpstream host authority.port with
      | .error reason => .answered (make502Response reason)
      | .ok _ => .relayed ⟨host, authority.port, copyClientToUpstream client⟩

/-- `HandleHttp`. -/
def handleHttp (req : ParsedRequest) (header : Bytes) (client : List Bytes) : ClientOutcome :=
  match parseHttpRequestTarget env.una req with
  | .error message => .answered (make400Response message)
  | .ok target =>
    match contentLength req with
    | .error message => .answered (make400Response message)
    | .ok length =>
      match env.connectUpstream target.host target.port with
      | .error reason => .answered (make502Response reason)
      | .ok _ =>
        .relayed ⟨target.host, target.port, makeForwardRequest req target.path ++
          forwardHttpRequestBody (header.drop req.headerBytes) length client⟩

def isAuthorized (req : ParsedRequest) : Bool :=
  !cfg.requireAuth ||
    ((findHeaderValue req.headers (ascii "proxy-authorization")).bind
      (parseBasicAuthUser env.base64Decode)).any fun user => user.1 = cfg.runId

/-- `HandleClient`. -/
def handleClient (client : ClientSocket) : ClientOutcome :=
  match readHeader [] client.chunks with
  | .tooLarge => .answered (make400Response (ascii "header too large"))
  | .closed => .closed
  | .complete header rest =>
    match parseHeaderBlock header with
    | none => .answered (make400Response (ascii "invalid request"))
    | some req =>
      if req.target.length > cfg.urlBytesMax then .answered (make400Response (ascii "target too long"))
      else if !isAuthorized env cfg req then .answered proxyAuthRequiredResponse
      else if isConnect req then handleConnect env req rest
      else handleHttp env req header rest

end Handling

/-- What the upstream is due of a client's bytes: for CONNECT what follows the header block, otherwise the rewritten
request and as much of what follows as the content length says. -/
def dueUpstream (una : UniAlgo) (stream : Bytes) : Option Bytes := do
  let req ← parseHeaderBlock stream
  let following := stream.drop req.headerBytes
  if isConnect req then return following
  else
    let target ← (parseHttpRequestTarget una req).toOption
    let length ← (contentLength req).toOption
    return makeForwardRequest req target.path ++ following.take length

/-- One of the pieces ends where the first `n` bytes do. -/
def ClientSocket.BreaksAt (client : ClientSocket) (n : Nat) : Prop :=
  ∃ read, read <+: client.chunks ∧ read.flatten.length = n

theorem copyClientToUpstream_eq (chunks : List Bytes) : copyClientToUpstream chunks = chunks.flatten := by
  induction chunks with
  | nil => rfl
  | cons chunk rest ih => rw [copyClientToUpstream, List.flatten_cons, ih]

/-- However the body is split, its first bytes are sent. -/
theorem forwardRemainingBody_eq {chunks : List Bytes} (h : ∀ chunk ∈ chunks, chunk.length ≤ ioBufferBytes)
    (remainingBody : Nat) : forwardRemainingBody remainingBody chunks = chunks.flatten.take remainingBody := by
  induction chunks generalizing remainingBody with
  | nil => rw [forwardRemainingBody, List.flatten_nil, List.take_nil]
  | cons chunk rest ih =>
    have hchunk := h chunk List.mem_cons_self
    have hrest : ∀ c ∈ rest, c.length ≤ ioBufferBytes := fun c hc => h c (List.mem_cons_of_mem chunk hc)
    rw [forwardRemainingBody]
    split
    · rename_i hzero
      rw [hzero, List.take_zero]
    · have hreceived : chunk.take (min remainingBody ioBufferBytes) = chunk.take remainingBody := by
        rw [List.take_eq_take_iff]
        omega
      simp only [ih hrest, hreceived]
      rw [List.flatten_cons, List.take_append, List.length_take]
      congr 2
      omega

theorem forwardHttpRequestBody_eq {client : List Bytes} (h : ∀ chunk ∈ client, chunk.length ≤ ioBufferBytes)
    (bufferedBody : Bytes) (remainingBody : Nat) :
    forwardHttpRequestBody bufferedBody remainingBody client =
      (bufferedBody ++ client.flatten).take remainingBody := by
  have hbuffered : bufferedBody.take (min remainingBody bufferedBody.length) = bufferedBody.take remainingBody := by
    rw [List.take_eq_take_iff]
    omega
  simp only [forwardHttpRequestBody, hbuffered, forwardRemainingBody_eq h]
  rw [List.take_append, List.length_take]
  congr 2
  omega

/-- The loop stops with the piece that completes the blank line. -/
theorem readHeader_spec {chunks rest : List Bytes} {start header : Bytes}
    (h : readHeader start chunks = .complete header rest) :
    occursIn blankLine header = true ∧ ∃ read, chunks = read ++ rest ∧ header = start ++ read.flatten ∧
      ∀ init last, read = init ++ [last] → occursIn blankLine (start ++ init.flatten) = false := by
  induction chunks generalizing start with
  | nil =>
    rw [readHeader] at h
    split at h
    · rename_i hfound
      cases h
      refine ⟨hfound, [], rfl, (List.append_nil _).symm, ?_⟩
      intro init last hread
      exact absurd hread.symm (List.append_ne_nil_of_right_ne_nil init (List.cons_ne_nil last []))
    · split at h
      · cases h
      · cases h
  | cons chunk chunks ih =>
    rw [readHeader] at h
    split at h
    · rename_i hfound
      cases h
      refine ⟨hfound, [], rfl, (List.append_nil _).symm, ?_⟩
      intro init last hread
      exact absurd hread.symm (List.append_ne_nil_of_right_ne_nil init (List.cons_ne_nil last []))
    · rename_i hmissing
      split at h
      · cases h
      · obtain ⟨hfound, read, rfl, rfl, hfirst⟩ := ih h
        refine ⟨hfound, chunk :: read, rfl, by rw [List.flatten_cons, List.append_assoc], ?_⟩
        intro init last hread
        cases init with
        | nil =>
          rw [List.flatten_nil, List.append_nil]
          exact Bool.eq_false_iff.mpr hmissing
        | cons first init =>
          rw [List.cons_append, List.cons.injEq] at hread
          obtain ⟨rfl, hread⟩ := hread
          rw [List.flatten_cons, ← List.append_assoc]
          exact hfirst init last hread

/-- Nothing was read behind the header block exactly if a piece ends with it. -/
theorem breaksAt_iff {client : ClientSocket} {header : Bytes} {rest : List Bytes} {req : ParsedRequest}
    (hread : readHeader [] client.chunks = .complete header rest) (hreq : parseHeaderBlock header = some req) :
    client.BreaksAt req.headerBytes ↔ header.drop req.headerBytes = [] := by
  obtain ⟨_, read, hchunks, hheader, hfirst⟩ := readHeader_spec hread
  obtain ⟨endPos, hend, hbytes, hle⟩ := parseHeaderBlock_headerBytes hreq
  rw [List.nil_append] at hheader
  rw [List.drop_eq_nil_iff]
  constructor
  · rintro ⟨part, hpart, hlength⟩
    rcases List.eq_nil_or_concat read with rfl | ⟨init, last, rfl⟩
    · rw [hheader, List.flatten_nil, List.length_nil]
      exact Nat.zero_le _
    · rw [List.concat_eq_append] at hchunks hheader hfirst
      have hwhole : part.flatten = header.take req.headerBytes := by
        have hstream : part.flatten <+: client.chunks.flatten := hpart.flatten
        have hheader' : header <+: client.chunks.flatten := by
          rw [hchunks, hheader]
          exact ⟨rest.flatten, List.flatten_append.symm⟩
        have hprefix := List.prefix_of_prefix_length_le hstream hheader' (by omega)
        rw [List.prefix_iff_eq_take.mp hprefix, hlength]
      have hinit : ¬ part <+: init := by
        intro hshort
        have hfound : occursIn blankLine part.flatten = true := by
          rw [hwhole, hbytes]
          exact occursIn_take hend
        have hmissing := hfirst init last rfl
        rw [List.nil_append, occursIn_of_prefix hshort.flatten hfound] at hmissing
        cases hmissing
      have hlonger : init ++ [last] <+: part := by
        have hinit' : init <+: client.chunks := by
          rw [hchunks, List.append_assoc]
          exact List.prefix_append _ _
        have hlt : init.length < part.length := by
          by_contra hle'
          exact hinit (List.prefix_of_prefix_length_le hpart hinit' (not_lt.mp hle'))
        refine List.prefix_of_prefix_length_le (hchunks ▸ List.prefix_append _ _) hpart ?_
        rw [List.length_append, List.length_singleton]
        exact hlt
      rw [hheader, ← hlength]
      exact hlonger.flatten.length_le
  · intro hall
    refine ⟨read, hchunks ▸ List.prefix_append _ _, ?_⟩
    rw [← hheader]
    exact le_antisymm hall hle

private theorem handleConnect_relayed {env : RelayEnv} {req : ParsedRequest} {chunks : List Bytes} {relay : Relay}
    (h : handleConnect env req chunks = .relayed relay) : relay.toUpstream = chunks.flatten := by
  unfold handleConnect at h
  split at h
  · cases h
  · split at h
    · cases h
    · split at h
      · cases h
      · cases h
        exact copyClientToUpstream_eq chunks

private theorem handleHttp_relayed {env : RelayEnv} {req : ParsedRequest} {header : Bytes} {chunks : List Bytes}
    {relay : Relay} (h : handleHttp env req header chunks = .relayed relay) :
    ∃ target length, parseHttpRequestTarget env.una req = .ok target ∧ contentLength req = .ok length ∧
      relay.toUpstream = makeForwardRequest req target.path ++
        forwardHttpRequestBody (header.drop req.headerBytes) length chunks := by
  unfold handleHttp at h
  split at h
  · cases h
  · rename_i target htarget
    split at h
    · cases h
    · rename_i length hlength
      split at h
      · cases h
      · cases h
        exact ⟨target, length, htarget, hlength, rfl⟩

/-- A client that is relayed had a header block, and is handled by its method. -/
theorem handleClient_relayed {env : RelayEnv} {cfg : EgressProxyConfig} {client : ClientSocket} {relay : Relay}
    (h : handleClient env cfg client = .relayed relay) :
    ∃ header rest req, readHeader [] client.chunks = .complete header rest ∧ parseHeaderBlock header = some req ∧
      (if isConnect req then handleConnect env req rest else handleHttp env req header rest) = .relayed relay := by
  unfold handleClient at h
  split at h
  · cases h
  · cases h
  · rename_i header rest hread
    split at h
    · cases h
    · rename_i req hreq
      split at h
      · cases h
      · split at h
        · cases h
        · exact ⟨header, rest, req, hread, hreq, h⟩

private theorem eq_append_self_iff {a b : Bytes} : b = a ++ b ↔ a = [] := by
  constructor
  · intro h
    have hlength := congrArg List.length h
    rw [List.length_append] at hlength
    exact List.length_eq_zero_iff.mp (by omega)
  · rintro rfl
    rfl

/-- For every accepted client stream and every way in which it is split, the upstream receives what it is due exactly
if the request is no CONNECT, or the piece that completes the header block ends with it. -/
theorem relay_transparent_iff {env : RelayEnv} {cfg : EgressProxyConfig} {client : ClientSocket} {relay : Relay}
    (h : handleClient env cfg client = .relayed relay) :
    ∃ req, parseHeaderBlock client.bytes = some req ∧
      (dueUpstream env.una client.bytes = some relay.toUpstream ↔
        (isConnect req = true → client.BreaksAt req.headerBytes)) := by
  obtain ⟨header, rest, req, hread, hreq, hhandled⟩ := handleClient_relayed h
  obtain ⟨hfound, read, hchunks, hheader, _⟩ := readHeader_spec hread
  obtain ⟨_, _, _, hle⟩ := parseHeaderBlock_headerBytes hreq
  rw [List.nil_append] at hheader
  have hbytes : client.bytes = header ++ rest.flatten := by
    rw [ClientSocket.bytes, hchunks, hheader, List.flatten_append]
  have hparsed : parseHeaderBlock client.bytes = some req := by
    rw [hbytes, parseHeaderBlock_append rest.flatten hfound, hreq]
  have hfollowing : client.bytes.drop req.headerBytes = header.drop req.headerBytes ++ rest.flatten := by
    rw [hbytes, List.drop_append_of_le_length hle]
  refine ⟨req, hparsed, ?_⟩
  cases hconnect : isConnect req with
  | true =>
    rw [hconnect, if_pos rfl] at hhandled
    have hdue : dueUpstream env.una client.bytes = some (header.drop req.headerBytes ++ rest.flatten) := by
      simp only [dueUpstream, hparsed, Option.bind_eq_bind, Option.bind_some, hconnect, if_true, hfollowing,
        Option.pure_def]
    rw [hdue, handleConnect_relayed hhandled, Option.some.injEq, breaksAt_iff hread hreq, eq_comm, eq_append_self_iff]
    exact ⟨fun hnone _ => hnone, fun hnone => hnone rfl⟩
  | false =>
    rw [hconnect, if_neg Bool.false_ne_true] at hhandled
    obtain ⟨target, length, htarget, hlength, hsent⟩ := handleHttp_relayed hhandled
    have hbounded : ∀ chunk ∈ rest, chunk.length ≤ ioBufferBytes := by
      intro chunk hchunk
      exact (client.chunks_bounded chunk (hchunks ▸ List.mem_append_right read hchunk)).2
    have hdue : dueUpstream env.una client.bytes = some relay.toUpstream := by
      rw [hsent, forwardHttpRequestBody_eq hbounded]
      simp only [dueUpstream, hparsed, Option.bind_eq_bind, Option.bind_some, hconnect, Bool.false_eq_true, if_false,
        htarget, hlength, Except.toOption, hfollowing, Option.pure_def]
    exact ⟨fun _ => nofun, fun _ => hdue⟩

/-- A browser that sends the bytes in two pieces. -/
def twoPieces (first second : Bytes) (h : ∀ chunk ∈ [first, second], 0 < chunk.length ∧ chunk.length ≤ ioBufferBytes) :
    ClientSocket :=
  ⟨[first, second], h⟩

/-- Every upstream can be reached, and no request is authorized. -/
def reachableEnv : RelayEnv := ⟨asciiUna, fun _ => none, fun _ _ => .ok ()⟩

def openProxy : EgressProxyConfig := ⟨ascii "run", 100, false⟩

def connectHeader : Bytes := ascii "CONNECT a.b:443 HTTP/1.1\r\n\r\n"

theorem relay_transparent_post :
    ∃ client relay, handleClient reachableEnv openProxy client = .relayed relay ∧
      dueUpstream asciiUna client.bytes = some relay.toUpstream := by
  have hposted : handleClient reachableEnv openProxy
      (twoPieces (ascii "POST http://a.b/c HTTP/1.1\r\nContent-Length: 3\r\n\r\nx") (ascii "yzw") (by decide)) =
      .relayed ⟨ascii "a.b", 80,
        ascii "POST /c HTTP/1.1\r\nContent-Length: 3\r\nConnection: close\r\n\r\nxyz"⟩ := by
    decide +kernel
  obtain ⟨req, hreq, hiff⟩ := relay_transparent_iff hposted
  have hmethod : ∀ r, parseHeaderBlock (ascii "POST http://a.b/c HTTP/1.1\r\nContent-Length: 3\r\n\r\nxyzw") = some r →
      isConnect r = false := by
    decide
  exact ⟨_, _, hposted, hiff.mpr fun hconnect => nomatch (hmethod req hreq).symm.trans hconnect⟩

/-- The same CONNECT stream reaches the upstream or not, by how it was split. -/
theorem relay_drops_read_ahead :
    handleClient reachableEnv openProxy (twoPieces (connectHeader ++ ascii "x") (ascii "y") (by decide +kernel)) =
      .relayed ⟨ascii "a.b", 443, ascii "y"⟩ ∧
    handleClient reachableEnv openProxy (twoPieces connectHeader (ascii "xy") (by decide +kernel)) =
      .relayed ⟨ascii "a.b", 443, ascii "xy"⟩ ∧
    dueUpstream asciiUna (connectHeader ++ ascii "xy") = some (ascii "xy") := by
  decide +kernel

end Webshot.Crawler
