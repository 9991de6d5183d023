import Webshot.Storage.SignedRequests

/-! What S3 does with a signed request: it signs what it received with the secret that it knows, and compares. Whatever
else it accepts under one signature is the same request, or two texts with one hash are at hand. -/
namespace Webshot.Storage
open Text Foundation Foundation.JsonText Foundation.NamedValues Foundation.Squeezing Foundation.Splitting

/-- The characters of methods and header names. -/
def isTokenChar (c : Byte) : Bool :=
  (48 ≤ c.val && c.val ≤ 57) || (65 ≤ c.val && c.val ≤ 90) || (97 ≤ c.val && c.val ≤ 122) || c ∈ ascii "!#$%&'*+-.^_|~"

/-- A request off the wire: the path and the parameters decoded, header names in lower case, and no line in a line. -/
structure ReceivedRequest where
  method : Bytes
  path : Bytes
  parameters : List (Bytes × Bytes)
  headers : List (Bytes × Bytes)
  body : Bytes
  method_token : ∀ c ∈ method, isTokenChar c = true
  names_token : ∀ header ∈ headers, ∀ c ∈ header.1, isTokenChar c = true
  values_inline : ∀ header ∈ headers, lineFeed ∉ header.2

def ReceivedRequest.header (request : ReceivedRequest) (name : Bytes) : Option Bytes := request.headers.lookup name

/-- What the authorization of a request says. -/
structure SignatureClaim where
  accessKeyId : Bytes
  date : Bytes
  region : Bytes
  service : Bytes
  signedHeaders : Bytes
  signature : Bytes

namespace SignatureClaim

def readCredential (credential signedHeaders signature : Bytes) : Option SignatureClaim :=
  match credential.splitOn slash with
  | [accessKeyId, date, region, service, terminal] =>
    if terminal = ascii "aws4_request" then some ⟨accessKeyId, date, region, service, signedHeaders, signature⟩ else none
  | _ => none

/-- `AWS4-HMAC-SHA256 Credential=…, SignedHeaders=…, Signature=…` -/
def read (authorization : Bytes) : Option SignatureClaim :=
  match authorization.splitOn comma with
  | [credential, signedHeaders, signature] => do
    readCredential (← credential.dropPrefix? (ascii "AWS4-HMAC-SHA256 Credential="))
      (← signedHeaders.dropPrefix? (ascii " SignedHeaders=")) (← signature.dropPrefix? (ascii " Signature="))
  | _ => none

def scope (claim : SignatureClaim) : Bytes :=
  claim.date ++ slash :: claim.region ++ slash :: claim.service ++ slash :: ascii "aws4_request"

def names (claim : SignatureClaim) : List Bytes := claim.signedHeaders.splitOn semicolon

end SignatureClaim

/-- The parts of a received request that its signature speaks of. -/
structure SignedParts where
  claim : SignatureClaim
  amzDate : Bytes
  payload : Bytes
  headers : List (Bytes × Bytes)

def ReceivedRequest.signedParts (request : ReceivedRequest) : Option SignedParts := do
  let claim ← SignatureClaim.read (← request.header (ascii "authorization"))
  let amzDate ← request.header (ascii "x-amz-date")
  let payload ← request.header (ascii "x-amz-content-sha256")
  let headers ← select request.header claim.names
  return ⟨claim, amzDate, payload, headers⟩

def canonicalValue (value : Bytes) : Bytes := trimMarks (· = space) value

def headerText (header : Bytes × Bytes) : Bytes := header.1 ++ colon :: canonicalValue header.2

/-- The lines of the canonical request, with an empty one behind the headers. -/
def canonicalLines (request : ReceivedRequest) (parts : SignedParts) : List Bytes :=
  [request.method, percentEncodeBytes request.path .no, canonicalizeQuery request.parameters] ++
    parts.headers.map headerText ++ [[], parts.claim.signedHeaders, parts.payload]

def canonicalText (request : ReceivedRequest) (parts : SignedParts) : Bytes :=
  [lineFeed].intercalate (canonicalLines request parts)

structure Secret where
  secretAccessKey : Bytes
  sessionToken : Option Bytes

/-- S3, with the secrets of those who may send to it. -/
structure SigningServer where
  env : SigningEnv
  secrets : Bytes → Option Secret

namespace SigningServer
variable (server : SigningServer)

def signedText (request : ReceivedRequest) (parts : SignedParts) : Bytes :=
  server.env.stringToSign parts.amzDate parts.claim.scope (canonicalText request parts)

def key (claim : SignatureClaim) (secret : Secret) : Bytes :=
  server.env.signingKey secret.secretAccessKey claim.date claim.region claim.service

structure Checked (request : ReceivedRequest) (parts : SignedParts) (secret : Secret) : Prop where
  day : parts.claim.date <+: parts.amzDate
  body : parts.payload = server.env.sha256Hex request.body
  token : request.header (ascii "x-amz-security-token") = secret.sessionToken
  sorted : parts.claim.names.Pairwise (· < ·)
  host : ascii "host" ∈ parts.claim.names
  amz : ∀ header ∈ request.headers, ascii "x-amz-" <+: header.1 → header.1 ∈ parts.claim.names
  signature : parts.claim.signature =
    (server.env.hmacSha256 (server.key parts.claim secret) (server.signedText request parts)).flatMap hexPair

/-- The request is taken for one of the owner of the key. -/
def Accepts (request : ReceivedRequest) (accessKeyId : Bytes) : Prop :=
  ∃ parts secret, request.signedParts = some parts ∧ parts.claim.accessKeyId = accessKeyId ∧
    server.secrets accessKeyId = some secret ∧ server.Checked request parts secret

end SigningServer

section Lines
variable {request other : ReceivedRequest} {parts otherParts : SignedParts}

theorem token_plain {c : Byte} (h : isTokenChar c = true) :
    c.val < 128 ∧ c ≠ lineFeed ∧ c ≠ colon ∧ c ≠ semicolon ∧ c ≠ comma := by
  have hall : ∀ c : Byte, isTokenChar c = true →
      c.val < 128 ∧ c ≠ lineFeed ∧ c ≠ colon ∧ c ≠ semicolon ∧ c ≠ comma := by
    decide +kernel
  exact hall c h

theorem lineFeed_notMem_percentEncodeBytes (s : Bytes) (encodeSlash : EncodeSlash) :
    lineFeed ∉ percentEncodeBytes s encodeSlash := by
  have hkept : ∀ encodeSlash : EncodeSlash, ¬ (encodeSlash.keeps lineFeed = true ∨ lineFeed = PercentEncoding.percent ∨
      (48 ≤ lineFeed.val ∧ lineFeed.val ≤ 57 ∨ 65 ≤ lineFeed.val ∧ lineFeed.val ≤ 70)) := by
    intro encodeSlash
    cases encodeSlash <;> decide
  exact fun h => hkept encodeSlash (PercentEncoding.mem_encode h)

theorem lineFeed_notMem_canonicalizeQuery (query : List (Bytes × Bytes)) : lineFeed ∉ canonicalizeQuery query := by
  intro h
  rcases mem_intercalate h with hmark | ⟨segment, hsegment, hx⟩
  · exact absurd hmark (by decide)
  · obtain ⟨pair, hpair, rfl⟩ := List.mem_map.mp hsegment
    obtain ⟨plain, _, rfl⟩ := List.mem_map.mp ((List.mem_insertionSort PairLe).mp hpair)
    rcases List.mem_append.mp hx with hx | hx
    · exact lineFeed_notMem_percentEncodeBytes _ _ hx
    · rcases List.mem_cons.mp hx with hmark | hx
      · exact absurd hmark (by decide)
      · exact lineFeed_notMem_percentEncodeBytes _ _ hx

theorem mem_of_header {name value : Bytes} (h : request.header name = some value) : (name, value) ∈ request.headers := by
  obtain ⟨before, after, heq, _⟩ := List.lookup_eq_some_iff.mp h
  rw [heq]
  exact List.mem_append_right before List.mem_cons_self

/-- The headers and the payload of the parts are those of the request. -/
structure PartsOf (request : ReceivedRequest) (parts : SignedParts) : Prop where
  names : parts.headers.map Prod.fst = parts.claim.names
  values : ∀ header ∈ parts.headers, request.header header.1 = some header.2
  amzDate : request.header (ascii "x-amz-date") = some parts.amzDate
  payload : request.header (ascii "x-amz-content-sha256") = some parts.payload

theorem signedParts_spec (h : request.signedParts = some parts) :
    (∃ authorization, request.header (ascii "authorization") = some authorization ∧
      SignatureClaim.read authorization = some parts.claim) ∧ PartsOf request parts := by
  obtain ⟨authorization, hauthorization, h⟩ := Option.bind_eq_some_iff.mp h
  obtain ⟨claim, hclaim, h⟩ := Option.bind_eq_some_iff.mp h
  obtain ⟨amzDate, hamzDate, h⟩ := Option.bind_eq_some_iff.mp h
  obtain ⟨payload, hpayload, h⟩ := Option.bind_eq_some_iff.mp h
  obtain ⟨headers, hheaders, h⟩ := Option.bind_eq_some_iff.mp h
  cases h
  obtain ⟨hnames, hvalues⟩ := select_eq_some.mp hheaders
  exact ⟨⟨authorization, hauthorization, hclaim⟩, hnames, hvalues, hamzDate, hpayload⟩

theorem PartsOf.colon_notMem (h : PartsOf request parts) {header : Bytes × Bytes} (hheader : header ∈ parts.headers) :
    colon ∉ header.1 := by
  intro hmem
  have htoken := request.names_token _ (mem_of_header (h.values header hheader)) colon hmem
  exact (token_plain htoken).2.2.1 rfl

theorem PartsOf.lineFeed_notMem (h : PartsOf request parts) {header : Bytes × Bytes} (hheader : header ∈ parts.headers) :
    lineFeed ∉ headerText header := by
  have hmem := mem_of_header (h.values header hheader)
  rw [headerText, List.mem_append, List.mem_cons, not_or, not_or]
  refine ⟨?_, by decide, ?_⟩
  · intro hname
    exact (token_plain (request.names_token _ hmem lineFeed hname)).2.1 rfl
  · intro hvalue
    exact request.values_inline _ hmem (trimMarks_subset _ hvalue)

/-- Every name that is signed for is the name of a header. -/
theorem PartsOf.signedHeaders_plain (h : PartsOf request parts) : lineFeed ∉ parts.claim.signedHeaders := by
  intro hmem
  have hjoined : [semicolon].intercalate (parts.claim.signedHeaders.splitOn semicolon) = parts.claim.signedHeaders :=
    List.intercalate_splitOn semicolon
  rw [← hjoined] at hmem
  rcases mem_intercalate hmem with hmark | ⟨name, hname, hx⟩
  · exact absurd hmark (by decide)
  · have hnames : name ∈ parts.headers.map Prod.fst := h.names ▸ hname
    obtain ⟨header, hheader, rfl⟩ := List.mem_map.mp hnames
    have htoken := request.names_token _ (mem_of_header (h.values header hheader)) lineFeed hx
    exact (token_plain htoken).2.1 rfl

theorem PartsOf.lines_plain (h : PartsOf request parts) : ∀ line ∈ canonicalLines request parts, lineFeed ∉ line := by
  intro line hline
  simp only [canonicalLines, List.mem_append, List.mem_cons, List.not_mem_nil, or_false, List.mem_map] at hline
  rcases hline with ((rfl | rfl | rfl) | ⟨header, hheader, rfl⟩) | (rfl | rfl | rfl)
  · intro hmem
    exact (token_plain (request.method_token _ hmem)).2.1 rfl
  · exact lineFeed_notMem_percentEncodeBytes _ _
  · exact lineFeed_notMem_canonicalizeQuery _
  · exact h.lineFeed_notMem hheader
  · exact List.not_mem_nil
  · exact h.signedHeaders_plain
  · exact request.values_inline _ (mem_of_header h.payload)

theorem headerText_inj {a b : Bytes × Bytes} (ha : colon ∉ a.1) (hb : colon ∉ b.1)
    (h : headerText a = headerText b) : a.1 = b.1 ∧ canonicalValue a.2 = canonicalValue b.2 := by
  obtain ⟨hname, hrest⟩ := append_inj_of_notMem ha hb (Or.inr rfl) (Or.inr rfl) h
  exact ⟨hname, (List.cons.inj hrest).2⟩

/-- The lines can be read off the canonical request. -/
theorem canonicalText_inj (h : PartsOf request parts) (h' : PartsOf other otherParts)
    (heq : canonicalText request parts = canonicalText other otherParts) :
    canonicalLines request parts = canonicalLines other otherParts := by
  have hne : ∀ request parts, canonicalLines request parts ≠ [] := fun _ _ h => by cases h
  rw [← List.splitOn_intercalate lineFeed h.lines_plain (hne _ _)]
  rw [← List.splitOn_intercalate lineFeed h'.lines_plain (hne _ _)]
  exact congrArg (List.splitOn lineFeed) heq

end Lines

/-- Two requests that differ at most where no signature does. -/
structure SameRequest (names : List Bytes) (request other : ReceivedRequest) : Prop where
  method : request.method = other.method
  path : request.path = other.path
  parameters : request.parameters.Perm other.parameters
  headers : ∀ name ∈ names, (request.header name).map canonicalValue = (other.header name).map canonicalValue
  body : request.body = other.body

/-- Two texts with one image. -/
def Collides (f : Bytes → Bytes) (x y : Bytes) : Prop := x ≠ y ∧ f x = f y

theorem eq_or_collides {f : Bytes → Bytes} {x y : Bytes} (h : f x = f y) : x = y ∨ Collides f x y := by
  by_cases heq : x = y
  · exact Or.inl heq
  · exact Or.inr ⟨heq, h⟩

theorem hexPair_injective {x y : Bytes} (h : x.flatMap hexPair = y.flatMap hexPair) : x = y := by
  have hread := congrArg readHexPairs h
  rw [readHexPairs_hexPair, readHexPairs_hexPair] at hread
  exact Option.some.inj hread

section Binding
variable {server : SigningServer} {request other : ReceivedRequest} {parts otherParts : SignedParts} {secret : Secret}

/-- Every header stands in the other request too, up to blanks. -/
private theorem sameHeaders {headers others : List (Bytes × Bytes)} (h : ∀ header ∈ headers, colon ∉ header.1)
    (h' : ∀ header ∈ others, colon ∉ header.1) (heq : headers.map headerText = others.map headerText) :
    ∀ header ∈ headers, ∃ header' ∈ others, header.1 = header'.1 ∧ canonicalValue header.2 = canonicalValue header'.2 := by
  intro header hheader
  have hline : headerText header ∈ others.map headerText := heq ▸ List.mem_map_of_mem hheader
  obtain ⟨header', hheader', htext⟩ := List.mem_map.mp hline
  exact ⟨header', hheader', headerText_inj (h header hheader) (h' header' hheader') htext.symm⟩

theorem sameRequest_of_lines (h : PartsOf request parts) (h' : PartsOf other otherParts)
    (hclaim : parts.claim = otherParts.claim) (hbody : request.body = other.body)
    (heq : canonicalLines request parts = canonicalLines other otherParts) :
    SameRequest parts.claim.names request other := by
  have hlength : (parts.headers.map headerText).length = (otherParts.headers.map headerText).length := by
    have hnames : parts.headers.map Prod.fst = otherParts.headers.map Prod.fst := by rw [h.names, h'.names, hclaim]
    rw [List.length_map, List.length_map, ← List.length_map Prod.fst, hnames, List.length_map]
  rw [canonicalLines, canonicalLines, List.append_assoc, List.append_assoc] at heq
  obtain ⟨hfront, hrest⟩ := List.append_inj heq rfl
  obtain ⟨hlines, _⟩ := List.append_inj hrest hlength
  injection hfront with hmethod hfront
  injection hfront with hpath hfront
  injection hfront with hquery _
  have hsame := sameHeaders (fun _ => h.colon_notMem) (fun _ => h'.colon_notMem) hlines
  refine ⟨hmethod, percentEncodeBytes_injective .no hpath, canonicalizeQuery_eq_iff.mp hquery, ?_, hbody⟩
  intro name hname
  rw [← h.names] at hname
  obtain ⟨header, hheader, rfl⟩ := List.mem_map.mp hname
  obtain ⟨header', hheader', hnames, hvalues⟩ := hsame header hheader
  rw [h.values header hheader, hnames, h'.values header' hheader', Option.map_some, Option.map_some, hvalues]

/-- The hash of the canonical request is what the text to sign ends with. -/
theorem stringToSign_inj {env : SigningEnv} {amzDate amzDate' scope text text' : Bytes} (hdate : lineFeed ∉ amzDate)
    (hdate' : lineFeed ∉ amzDate') (h : env.stringToSign amzDate scope text = env.stringToSign amzDate' scope text') :
    env.sha256 text = env.sha256 text' := by
  simp only [SigningEnv.stringToSign, List.append_assoc, List.cons_append] at h
  have h := (List.cons.inj (List.append_cancel_left h)).2
  obtain ⟨_, h⟩ := append_inj_of_notMem hdate hdate' (Or.inr rfl) (Or.inr rfl) h
  have h := List.append_cancel_left (List.cons.inj h).2
  exact hexPair_injective (List.cons.inj h).2

end Binding

/-- Two requests that S3 accepts under one authorization are the same in everything signed, order of parameters and runs
of blanks apart; or two texts are known that have one hash: of the bodies, of the canonical requests, or under the key
of the sender of the texts signed. -/
theorem accepted_same (server : SigningServer) {request other : ReceivedRequest} {accessKeyId accessKeyId' : Bytes}
    (haccepts : server.Accepts request accessKeyId) (haccepts' : server.Accepts other accessKeyId')
    (hauthorization : request.header (ascii "authorization") = other.header (ascii "authorization")) :
    accessKeyId = accessKeyId' ∧ ∃ parts otherParts secret, request.signedParts = some parts ∧
      other.signedParts = some otherParts ∧ server.secrets accessKeyId = some secret ∧
      parts.claim = otherParts.claim ∧ (SameRequest parts.claim.names request other ∨
        Collides server.env.sha256 request.body other.body ∨
        Collides server.env.sha256 (canonicalText request parts) (canonicalText other otherParts) ∨
        Collides (server.env.hmacSha256 (server.key parts.claim secret)) (server.signedText request parts)
          (server.signedText other otherParts)) := by
  obtain ⟨parts, secret, hparts, hkey, hsecret, hchecked⟩ := haccepts
  obtain ⟨otherParts, secret', hparts', hkey', hsecret', hchecked'⟩ := haccepts'
  obtain ⟨⟨authorization, hread, hclaim⟩, hof⟩ := signedParts_spec hparts
  obtain ⟨⟨authorization', hread', hclaim'⟩, hof'⟩ := signedParts_spec hparts'
  have hsameClaim : parts.claim = otherParts.claim := by
    rw [hread, hread'] at hauthorization
    cases hauthorization
    exact Option.some.inj (hclaim.symm.trans hclaim')
  have hsameKey : accessKeyId = accessKeyId' := by rw [← hkey, ← hkey', hsameClaim]
  subst hsameKey
  have hsameSecret : secret = secret' := Option.some.inj (hsecret.symm.trans hsecret')
  subst hsameSecret
  refine ⟨rfl, parts, otherParts, secret, hparts, hparts', hsecret, hsameClaim, ?_⟩
  have hmac : server.env.hmacSha256 (server.key parts.claim secret) (server.signedText request parts) =
      server.env.hmacSha256 (server.key parts.claim secret) (server.signedText other otherParts) := by
    apply hexPair_injective
    rw [← hchecked.signature, hsameClaim, ← hchecked'.signature]
  rcases eq_or_collides hmac with hsigned | hcollision
  · rw [SigningServer.signedText, SigningServer.signedText, hsameClaim] at hsigned
    have hsha := stringToSign_inj (request.values_inline _ (mem_of_header hof.amzDate))
      (other.values_inline _ (mem_of_header hof'.amzDate)) hsigned
    rcases eq_or_collides hsha with htext | hcollision
    · have hlines := canonicalText_inj hof hof' htext
      have hpayload : parts.payload = otherParts.payload := by
        have hlast := congrArg List.getLast? hlines
        simp only [canonicalLines, List.getLast?_append, List.getLast?_cons_cons, List.getLast?_singleton, Option.some_or,
          Option.some_inj] at hlast
        exact hlast
      rw [hchecked.body, hchecked'.body] at hpayload
      rcases eq_or_collides (hexPair_injective hpayload) with hbody | hcollision
      · exact Or.inl (sameRequest_of_lines hof hof' hsameClaim hbody hlines)
      · exact Or.inr (Or.inl hcollision)
    · exact Or.inr (Or.inr (Or.inl hcollision))
  · exact Or.inr (Or.inr (Or.inr hcollision))

end Webshot.Storage
