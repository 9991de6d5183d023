import Webshot.Storage.SignatureChecks

/-! What the client signs, S3 accepts. -/
namespace Webshot.Storage
open Text Foundation Foundation.JsonText Foundation.NamedValues Foundation.Squeezing Foundation.Splitting

/-- A request as it arrives, whatever its path: the HTTP client adds the host and may add other headers, but none of
Amazon's. -/
structure Delivered (sent : SentRequest) (request : ReceivedRequest) : Prop where
  method : request.method = sent.method
  parameters : request.parameters = []
  body : request.body = sent.body
  host : request.header (ascii "host") = some sent.host
  headers : ∀ header ∈ sent.headers, request.header (asciiStrToLower header.1) = some header.2
  amz : ∀ header ∈ request.headers, ascii "x-amz-" <+: header.1 →
    ∃ own ∈ sent.headers, asciiStrToLower own.1 = header.1

/-- What arrives is the path of the URL, decoded. -/
structure Received (sent : SentRequest) (request : ReceivedRequest) : Prop extends Delivered sent request where
  path : request.path = PercentEncoding.decode sent.path

/-- A request with another path. -/
def ReceivedRequest.at (request : ReceivedRequest) (path : Bytes) : ReceivedRequest := { request with path := path }

theorem Delivered.at {sent : SentRequest} {request : ReceivedRequest} (h : Delivered sent request) (path : Bytes) :
    Delivered sent (request.at path) := ⟨h.method, h.parameters, h.body, h.host, h.headers, h.amz⟩

/-- A path that arrives as it is signed. -/
def Arrives (path : Bytes) : Prop := PlainPath path ∧ PercentEncoding.percent ∉ path

theorem Arrives.decode_setPathname {env : SigningEnv} {path : Bytes} (h : Arrives path) :
    PercentEncoding.decode (env.setPathname path) = path := by
  rw [env.setPathname_plain path h.1, PercentEncoding.decode_encode_of_notMem h.2]

/-- White space is blanks. -/
def OnlyBlanks (value : Bytes) : Prop := ∀ c ∈ value, isAsciiSpace c = true → c = space

instance (value : Bytes) : Decidable (OnlyBlanks value) :=
  inferInstanceAs (Decidable (∀ c ∈ value, isAsciiSpace c = true → c = space))

/-- A text that is its own normal form. -/
def IsText (una : UniAlgo) (value : Bytes) : Prop := fromBytes una value = some value ∧ OnlyBlanks value

/-- A call whose headers can be sent as they are, by a client whose names fit into an authorization. -/
structure Sendable (una : UniAlgo) (client : Client) (call : ClientCall) : Prop where
  accessKeyId : slash ∉ client.creds.accessKeyId ∧ comma ∉ client.creds.accessKeyId
  region : slash ∉ client.region ∧ comma ∉ client.region
  sessionToken : ∀ token, client.creds.sessionToken = some token → OnlyBlanks token
  host : IsText una client.host
  names : ∀ header ∈ call.ownHeaders, ∀ c ∈ header.1, isTokenChar c = true
  values : ∀ header ∈ call.ownHeaders, IsText una header.2

section Canonical

theorem trimSpaces_eq {value : Bytes} (h : OnlyBlanks value) : trimSpaces value = canonicalValue value := by
  apply trimMarks_congr
  intro c hc
  by_cases hspace : isAsciiSpace c = true
  · rw [hspace, h c hc hspace, decide_eq_true rfl]
  · rw [Bool.not_eq_true] at hspace
    have hne : c ≠ space := by
      rintro rfl
      cases hspace
    rw [hspace, decide_eq_false hne]

private theorem shift_lineFeed (headers : List (Bytes × Bytes)) (f : Bytes × Bytes → Bytes) :
    lineFeed :: headers.flatMap (fun header => f header ++ [lineFeed]) =
      (headers.map f).flatMap (lineFeed :: ·) ++ [lineFeed] := by
  induction headers with
  | nil => rfl
  | cons header headers ih =>
    rw [List.flatMap_cons, List.map_cons, List.flatMap_cons, List.append_assoc, List.append_assoc, ← ih]
    rfl

/-- The canonical request, line by line. -/
theorem canonicalRequest_eq (method canonicalUri : Bytes) (query : List (Bytes × Bytes)) {headers : List (Bytes × Bytes)}
    (payload : Bytes) (h : ∀ header ∈ headers, OnlyBlanks header.2) :
    (makeCanonicalRequest method canonicalUri query headers payload).canonicalRequest =
      [lineFeed].intercalate ([method, percentEncodeBytes canonicalUri .no, canonicalizeQuery query] ++
        headers.map headerText ++ [[], joinSignedHeaders headers, payload]) := by
  have htexts : canonicalHeaders headers = headers.flatMap fun header => headerText header ++ [lineFeed] := by
    apply List.flatMap_congr
    intro header hheader
    rw [headerText, trimSpaces_eq (h header hheader)]
  have hshift := shift_lineFeed headers headerText
  have hrest : lineFeed :: canonicalHeaders headers ++ lineFeed :: joinSignedHeaders headers ++ lineFeed :: payload =
      (headers.map headerText).flatMap (lineFeed :: ·) ++
        ([[], joinSignedHeaders headers, payload] : List Bytes).flatMap (lineFeed :: ·) := by
    rw [htexts, hshift]
    simp only [List.append_assoc, List.flatMap_cons, List.flatMap_nil, List.append_nil, List.cons_append, List.nil_append]
  rw [List.cons_append, List.cons_append, intercalate_cons, List.flatMap_append, List.flatMap_append, List.append_assoc,
    ← hrest]
  simp only [makeCanonicalRequest, List.flatMap_cons, List.flatMap_nil, List.append_assoc, List.cons_append, List.append_nil]

end Canonical

section Names
variable {call : ClientCall} {params : SigParams}

/-- The names under which a call may set a header. -/
def OwnName (name : Bytes) : Prop :=
  name = ascii "content-type" ∨ name = ascii "content-disposition" ∨ ascii "x-amz-meta-" <+: name

instance (name : Bytes) : Decidable (OwnName name) := inferInstanceAs (Decidable (_ ∨ _ ∨ _))

private theorem contentType_lower : asciiStrToLower (ascii "Content-Type") = ascii "content-type" := by decide

private theorem contentDisposition_lower : asciiStrToLower (ascii "Content-Disposition") = ascii "content-disposition" := by
  decide

theorem ownHeaders_names : ∀ header ∈ call.ownHeaders, OwnName (asciiStrToLower header.1) := by
  intro header hheader
  cases call with
  | putObject path data contentType contentDisposition metadata =>
    rcases List.mem_cons.mp hheader with rfl | hheader
    · exact Or.inl contentType_lower
    · rcases List.mem_append.mp hheader with hheader | hheader
      · obtain ⟨value, _, rfl⟩ := Option.map_eq_some_iff.mp (Option.mem_toList.mp hheader)
        exact Or.inr (Or.inl contentDisposition_lower)
      · obtain ⟨entry, _, rfl⟩ := List.mem_map.mp hheader
        right; right
        rw [asciiStrToLower, List.map_append]
        exact List.prefix_append (ascii "x-amz-meta-") _
  | getObjectHead path => cases hheader
  | deleteObject path => cases hheader

/-- What the call sets, a later header of one name in place of an earlier one. -/
def setHeaders (call : ClientCall) : List (Bytes × Bytes) := call.ownHeaders.foldl setHeader []

theorem setHeaders_subset : setHeaders call ⊆ call.ownHeaders := by
  intro header hheader
  rcases foldl_assign_subset hheader with h | h
  · exact h
  · cases h

theorem setHeaders_names : ∀ header ∈ setHeaders call, OwnName (asciiStrToLower header.1) :=
  fun header hheader => ownHeaders_names header (setHeaders_subset hheader)

theorem setHeaders_nodup : (keys asciiStrToLower (setHeaders call)).Nodup :=
  keys_foldl_nodup List.nodup_nil

/-- Names that signing sets; a header of the call has none of them. -/
def signingNames : List Bytes :=
  [ascii "x-amz-date", ascii "x-amz-content-sha256", ascii "x-amz-security-token", ascii "authorization"]

theorem signingNames_own : ∀ name ∈ signingNames, ¬ OwnName name := by decide +kernel

theorem signingNames_lower : ∀ name ∈ signingNames, asciiStrToLower name = name := by decide +kernel

theorem signingNames_nodup : signingNames.Nodup := by decide +kernel

theorem amzHeaders_names (payload : Bytes) :
    (params.amzHeaders payload).map Prod.fst = [ascii "x-amz-date", ascii "x-amz-content-sha256"] ++
      (params.sessionToken.map fun _ => ascii "x-amz-security-token").toList := by
  rw [SigParams.amzHeaders, List.map_append]
  cases params.sessionToken <;> rfl

/-- The headers that signing adds are named after `signingNames`, each name once. -/
theorem signed_names (params : SigParams) (payload authorization : Bytes) :
    ((params.amzHeaders payload ++ [(ascii "authorization", authorization)]).map Prod.fst).Sublist signingNames := by
  rw [List.map_append, amzHeaders_names]
  cases params.sessionToken with
  | none => exact .cons_cons _ (.cons_cons _ (.cons _ (.refl _)))
  | some token => exact .refl _

theorem amzNames_sublist (params : SigParams) (payload : Bytes) :
    ((params.amzHeaders payload).map Prod.fst).Sublist signingNames := by
  have hsigned := signed_names params payload []
  rw [List.map_append] at hsigned
  exact (List.sublist_append_left _ _).trans hsigned

end Names

section Authorization

/-- The credential without slashes in its parts. -/
private theorem readCredential_parts {accessKeyId date region service : Bytes} (signedHeaders signature : Bytes)
    (hslash : ∀ part ∈ [accessKeyId, date, region, service], slash ∉ part) :
    SignatureClaim.readCredential
        (accessKeyId ++ slash :: (date ++ slash :: region ++ slash :: service ++ slash :: ascii "aws4_request"))
        signedHeaders signature =
      some ⟨accessKeyId, date, region, service, signedHeaders, signature⟩ := by
  have hjoined : accessKeyId ++ slash :: (date ++ slash :: region ++ slash :: service ++ slash :: ascii "aws4_request") =
      [slash].intercalate ([accessKeyId, date, region, service] ++ [ascii "aws4_request"]) := by
    simp only [intercalate_cons, List.flatMap_cons, List.flatMap_nil, List.append_assoc, List.cons_append, List.append_nil,
      List.nil_append]
  have hparts : ([slash].intercalate ([accessKeyId, date, region, service] ++ [ascii "aws4_request"])).splitOn slash =
      [accessKeyId, date, region, service] ++ [ascii "aws4_request"] := by
    apply List.splitOn_intercalate
    · intro part hpart
      rcases List.mem_append.mp hpart with hpart | hpart
      · exact hslash part hpart
      · rw [List.mem_singleton.mp hpart]
        decide
    · exact List.cons_ne_nil _ _
  rw [SignatureClaim.readCredential, hjoined, hparts]
  rfl

/-- Parts without commas and slashes are read back off an authorization. -/
theorem read_authorization {accessKeyId date region service signedHeaders signature : Bytes}
    (hslash : ∀ part ∈ [accessKeyId, date, region, service], slash ∉ part)
    (hcomma : ∀ part ∈ [accessKeyId, date, region, service, signedHeaders, signature], comma ∉ part) :
    SignatureClaim.read (ascii "AWS4-HMAC-SHA256 Credential=" ++
        (accessKeyId ++ slash :: (date ++ slash :: region ++ slash :: service ++ slash :: ascii "aws4_request")) ++
        ascii ", SignedHeaders=" ++ signedHeaders ++ ascii ", Signature=" ++ signature) =
      some ⟨accessKeyId, date, region, service, signedHeaders, signature⟩ := by
  generalize hcredential :
    accessKeyId ++ slash :: (date ++ slash :: region ++ slash :: service ++ slash :: ascii "aws4_request") = credential
  have hplain : comma ∉ credential := by
    simp only [List.mem_cons, List.not_mem_nil, or_false, forall_eq_or_imp, forall_eq] at hcomma
    obtain ⟨hkey, hdate, hregion, hservice, _, _⟩ := hcomma
    have hmark : ¬ comma = slash := by decide
    have hterminal : comma ∉ ascii "aws4_request" := by decide
    simp only [← hcredential, List.mem_append, List.mem_cons, hkey, hdate, hregion, hservice, hmark, hterminal, or_false,
      not_false_eq_true]
  let segments := [ascii "AWS4-HMAC-SHA256 Credential=" ++ credential, ascii " SignedHeaders=" ++ signedHeaders,
    ascii " Signature=" ++ signature]
  have hjoined : ascii "AWS4-HMAC-SHA256 Credential=" ++ credential ++ ascii ", SignedHeaders=" ++ signedHeaders ++
      ascii ", Signature=" ++ signature = [comma].intercalate segments := by
    have hheaders : ascii ", SignedHeaders=" = comma :: ascii " SignedHeaders=" := by decide
    have hsignature : ascii ", Signature=" = comma :: ascii " Signature=" := by decide
    simp only [segments, hheaders, hsignature, intercalate_cons, List.flatMap_cons, List.flatMap_nil, List.append_assoc,
      List.cons_append, List.append_nil]
  have hsegments : ([comma].intercalate segments).splitOn comma = segments := by
    apply List.splitOn_intercalate
    · intro segment hsegment
      simp only [segments, List.mem_cons, List.not_mem_nil, or_false] at hsegment
      have hliterals : comma ∉ ascii "AWS4-HMAC-SHA256 Credential=" ∧ comma ∉ ascii " SignedHeaders=" ∧
          comma ∉ ascii " Signature=" := by decide
      rcases hsegment with rfl | rfl | rfl
      · rw [List.mem_append, not_or]
        exact ⟨hliterals.1, hplain⟩
      · rw [List.mem_append, not_or]
        exact ⟨hliterals.2.1, hcomma signedHeaders (by simp)⟩
      · rw [List.mem_append, not_or]
        exact ⟨hliterals.2.2, hcomma signature (by simp)⟩
    · exact List.cons_ne_nil _ _
  rw [SignatureClaim.read, hjoined, hsegments]
  simp only [segments, List.dropPrefix?_append_of_beq _ (beq_self_eq_true _), Option.bind_eq_bind, Option.bind_some]
  rw [← hcredential]
  exact readCredential_parts signedHeaders signature hslash

end Authorization

section Sorting

instance : Std.Total NameLe := ⟨fun a b => le_total a.1 b.1⟩

instance : IsTrans (Bytes × Bytes) NameLe := ⟨fun _ _ _ hab hbc => le_trans hab hbc⟩

/-- Different names stand in strict order. -/
theorem names_sorted {headers : List (Bytes × Bytes)} (h : (headers.map Prod.fst).Nodup) :
    ((headers.insertionSort NameLe).map Prod.fst).Pairwise (· < ·) := by
  have hsorted : ((headers.insertionSort NameLe).map Prod.fst).Pairwise (· ≤ ·) :=
    List.pairwise_map.mpr (List.pairwise_insertionSort NameLe headers)
  have hnodup : ((headers.insertionSort NameLe).map Prod.fst).Nodup :=
    ((List.perm_insertionSort NameLe headers).map Prod.fst).nodup_iff.mpr h
  exact hsorted.imp₂ (fun _ _ hle hne => lt_of_le_of_ne hle hne) hnodup

end Sorting

section Sending
variable {env : SigningEnv} {client : Client} {now : TimePoint} {call : ClientCall} {sent : SentRequest}

theorem stringPairs_eq {pairs : List (Bytes × Bytes)}
    (h : ∀ pair ∈ pairs, fromBytes env.una pair.1 = some pair.1 ∧ fromBytes env.una pair.2 = some pair.2) :
    env.stringPairs pairs = some pairs := by
  induction pairs with
  | nil => rfl
  | cons pair pairs ih =>
    obtain ⟨⟨hname, hvalue⟩, hrest⟩ := List.forall_mem_cons.mp h
    have hrest := ih hrest
    rw [SigningEnv.stringPairs] at hrest ⊢
    rw [List.mapM_cons, hname, hvalue, hrest]
    rfl

/-- The headers that a request is signed with, when all of them are texts. -/
def signedHeadersOf (env : SigningEnv) (client : Client) (now : TimePoint) (call : ClientCall) : List (Bytes × Bytes) :=
  (prepareSignedHeaders client.host (setHeaders call) ++
    (client.makeSigParams env now).amzHeaders (env.sha256Hex call.data)).insertionSort NameLe

theorem mem_signedHeadersOf {header : Bytes × Bytes} : header ∈ signedHeadersOf env client now call ↔
    header = (ascii "host", client.host) ∨ (∃ own ∈ setHeaders call, (asciiStrToLower own.1, own.2) = header) ∨
      header ∈ (client.makeSigParams env now).amzHeaders (env.sha256Hex call.data) := by
  rw [signedHeadersOf, List.mem_insertionSort, List.mem_append, prepareSignedHeaders, List.mem_insertionSort, List.mem_cons,
    List.mem_map, or_assoc]

theorem signedHeadersOf_nodup :
    ((prepareSignedHeaders client.host (setHeaders call) ++
      (client.makeSigParams env now).amzHeaders (env.sha256Hex call.data)).map Prod.fst).Nodup := by
  have hprepared : ((prepareSignedHeaders client.host (setHeaders call)).map Prod.fst).Perm
      (ascii "host" :: keys asciiStrToLower (setHeaders call)) := by
    refine ((List.perm_insertionSort NameLe _).map Prod.fst).trans ?_
    rw [List.map_cons, List.map_map]
    exact .refl _
  have hown : ∀ name ∈ ascii "host" :: keys asciiStrToLower (setHeaders call), name ∉ signingNames := by
    intro name hname hsigning
    rcases List.mem_cons.mp hname with rfl | hname
    · exact absurd hsigning (by decide)
    · obtain ⟨own, hmem, rfl⟩ := mem_keys.mp hname
      exact signingNames_own _ hsigning (setHeaders_names own hmem)
  have hamz := amzNames_sublist (client.makeSigParams env now) (env.sha256Hex call.data)
  rw [List.map_append, List.nodup_append']
  refine ⟨hprepared.nodup_iff.mpr (List.nodup_cons.mpr ⟨?_, setHeaders_nodup⟩), hamz.nodup signingNames_nodup, ?_⟩
  · intro hhost
    obtain ⟨own, hmem, hname⟩ := mem_keys.mp hhost
    have hown := setHeaders_names own hmem
    rw [hname] at hown
    exact absurd hown (by decide)
  · intro name hname hsigning
    exact hown name (hprepared.mem_iff.mp hname) (hamz.subset hsigning)

/-- A call that sends has texts for its path and its headers. -/
theorem request_spec (h : client.request env now call = some sent) : ∃ headersText,
    env.stringPairs (prepareSignedHeaders client.host (setHeaders call)) = some headersText ∧
    sent.path = env.setPathname sent.rawPath ∧ sent.method = call.method ∧ sent.host = client.host ∧
    sent.body = call.data ∧ sent.headers = (env.signHeaders (client.makeSigParams env now) call.method sent.rawPath [] headersText
      (env.sha256Hex call.data)).foldl setHeader (setHeaders call) := by
  obtain ⟨path, hpath, h⟩ := Option.bind_eq_some_iff.mp h
  obtain ⟨rawPath, hrawPath, h⟩ := Option.bind_eq_some_iff.mp h
  obtain ⟨headers, hheaders, h⟩ := Option.bind_eq_some_iff.mp h
  obtain ⟨headersText, htext, hheaders⟩ := Option.bind_eq_some_iff.mp hheaders
  cases h
  exact ⟨headersText, htext, rfl, rfl, rfl, rfl, (Option.some.inj hheaders).symm⟩

/-- The authorization that signing adds for the given headers. -/
def authorizationOf (env : SigningEnv) (client : Client) (now : TimePoint) (call : ClientCall) (rawPath : Bytes) : Bytes :=
  let params := client.makeSigParams env now
  let cr := makeCanonicalRequest call.method rawPath [] (signedHeadersOf env client now call) (env.sha256Hex call.data)
  ascii "AWS4-HMAC-SHA256 Credential=" ++ (params.accessKeyId ++ slash :: makeScope params) ++
    ascii ", SignedHeaders=" ++ cr.signedHeaders ++ ascii ", Signature=" ++
    env.computeSignature params (env.stringToSign params.amzDate (makeScope params) cr.canonicalRequest)

/-- The headers sent: those of the call, and those that signing adds. -/
structure SentHeaders (env : SigningEnv) (client : Client) (now : TimePoint) (call : ClientCall) (sent : SentRequest) : Prop
    where
  own : setHeaders call ⊆ sent.headers
  amz : (client.makeSigParams env now).amzHeaders (env.sha256Hex call.data) ⊆ sent.headers
  authorization : (ascii "authorization", authorizationOf env client now call sent.rawPath) ∈ sent.headers
  only : ∀ header ∈ sent.headers, header ∈ setHeaders call ∨
    header ∈ (client.makeSigParams env now).amzHeaders (env.sha256Hex call.data) ∨ header.1 = ascii "authorization"

theorem sentHeaders (htext : env.stringPairs (prepareSignedHeaders client.host (setHeaders call)) =
      some (prepareSignedHeaders client.host (setHeaders call)))
    (h : client.request env now call = some sent) : SentHeaders env client now call sent := by
  obtain ⟨headersText, hheaders, _, _, _, _, hsent⟩ := request_spec h
  cases hheaders.symm.trans htext
  have hsigned : env.signHeaders (client.makeSigParams env now) call.method sent.rawPath []
      (prepareSignedHeaders client.host (setHeaders call)) (env.sha256Hex call.data) =
      (client.makeSigParams env now).amzHeaders (env.sha256Hex call.data) ++
        [(ascii "authorization", authorizationOf env client now call sent.rawPath)] := rfl
  rw [hsigned] at hsent
  have hnames := signed_names (client.makeSigParams env now) (env.sha256Hex call.data)
    (authorizationOf env client now call sent.rawPath)
  generalize hadded : (client.makeSigParams env now).amzHeaders (env.sha256Hex call.data) ++
    [(ascii "authorization", authorizationOf env client now call sent.rawPath)] = added at hsent hnames
  have hkeys : keys asciiStrToLower added = added.map Prod.fst := by
    apply List.map_congr_left
    intro header hheader
    exact signingNames_lower _ (hnames.subset (List.mem_map_of_mem hheader))
  have hmem : ∀ header, header ∈ sent.headers ↔ header ∈ added ∨ (header ∈ setHeaders call ∧
      asciiStrToLower header.1 ∉ keys asciiStrToLower added) := by
    intro header
    rw [hsent]
    exact mem_foldl_assign (hkeys ▸ hnames.nodup signingNames_nodup)
  subst hadded
  constructor
  · intro own hown
    refine (hmem own).mpr (Or.inr ⟨hown, fun hkey => ?_⟩)
    rw [hkeys] at hkey
    exact signingNames_own _ (hnames.subset hkey) (setHeaders_names own hown)
  · intro header hheader
    exact (hmem header).mpr (Or.inl (List.mem_append_left _ hheader))
  · exact (hmem _).mpr (Or.inl (List.mem_append_right _ List.mem_cons_self))
  · intro header hheader
    rcases (hmem header).mp hheader with hadded | ⟨hown, _⟩
    · rcases List.mem_append.mp hadded with hamz | hlast
      · exact Or.inr (Or.inl hamz)
      · rw [List.mem_singleton.mp hlast]
        exact Or.inr (Or.inr rfl)
    · exact Or.inl hown

end Sending

section Accepting
variable {server : SigningServer} {client : Client} {now : TimePoint} {call : ClientCall} {sent : SentRequest}
  {request : ReceivedRequest}

theorem lower_token {name : Bytes} (h : ∀ c ∈ name, isTokenChar c = true) : IsAscii (asciiStrToLower name) := by
  have hall : ∀ c : Byte, c.val < 128 → (if 65 ≤ c.val ∧ c.val ≤ 90 then c + 32 else c).val < 128 := by decide +kernel
  intro x hx
  obtain ⟨c, hc, rfl⟩ := List.mem_map.mp hx
  exact hall c (token_plain (h c hc)).1

theorem Sendable.prepared {una : UniAlgo} (h : Sendable una client call) :
    ∀ pair ∈ prepareSignedHeaders client.host (setHeaders call),
      fromBytes una pair.1 = some pair.1 ∧ fromBytes una pair.2 = some pair.2 := by
  intro pair hpair
  rw [prepareSignedHeaders, List.mem_insertionSort, List.mem_cons, List.mem_map] at hpair
  rcases hpair with rfl | ⟨own, hown, rfl⟩
  · have hname : IsAscii (ascii "host") := IsAscii.ofList rfl
    exact ⟨fromBytes_ascii una hname, h.host.1⟩
  · have hmem := setHeaders_subset hown
    exact ⟨fromBytes_ascii una (lower_token (h.names own hmem)), (h.values own hmem).1⟩

theorem amzDate_plain (env : SigningEnv) (now : TimePoint) : ∀ c ∈ env.toAmzDateUtc now, isAsciiSpace c = false := by
  have hall : ∀ c : Byte, isDigit c = true ∨ c = 45 → isAsciiSpace c = false := by decide +kernel
  intro c hc
  rw [SigningEnv.toAmzDateUtc, List.mem_append, List.mem_append, List.mem_append] at hc
  rcases hc with ((hc | hc) | hc) | hc
  · exact hall c (env.utcDate_digits now c hc)
  · rw [List.mem_singleton.mp hc]
    decide
  · exact hall c (Or.inl (env.utcTime_digits now c hc))
  · rw [List.mem_singleton.mp hc]
    decide

theorem date_plain (env : SigningEnv) (now : TimePoint) : slash ∉ env.toDateStampUtc now ∧ comma ∉ env.toDateStampUtc now := by
  constructor
  · intro h
    exact absurd (env.utcDate_digits now slash h) (by decide)
  · intro h
    exact absurd (env.utcDate_digits now comma h) (by decide)

/-- White space in the headers that are signed is blanks. -/
theorem Sendable.onlyBlanks {env : SigningEnv} (h : Sendable env.una client call) (now : TimePoint) :
    ∀ header ∈ signedHeadersOf env client now call, OnlyBlanks header.2 := by
  intro header hheader
  rcases mem_signedHeadersOf.mp hheader with rfl | ⟨own, hown, rfl⟩ | hamz
  · exact h.host.2
  · exact (h.values own (setHeaders_subset hown)).2
  · rcases List.mem_append.mp hamz with hamz | hamz
    · simp only [List.mem_cons, List.not_mem_nil, or_false] at hamz
      rcases hamz with rfl | rfl
      · intro c hc hspace
        rw [amzDate_plain env now c hc] at hspace
        cases hspace
      · intro c hc hspace
        have hrange := hexPair_range hc
        rw [isAsciiSpace_of_visible (by omega)] at hspace
        cases hspace
    · obtain ⟨token, htoken, rfl⟩ := Option.map_eq_some_iff.mp (Option.mem_toList.mp hamz)
      exact h.sessionToken token htoken

/-- What was signed is what arrives. -/
theorem Delivered.signed {env : SigningEnv} (hreceived : Delivered sent request) (hhost : sent.host = client.host)
    (hsent : SentHeaders env client now call sent) :
    ∀ header ∈ signedHeadersOf env client now call, request.header header.1 = some header.2 := by
  intro header hheader
  rcases mem_signedHeadersOf.mp hheader with rfl | ⟨own, hown, rfl⟩ | hamz
  · exact hhost ▸ hreceived.host
  · exact hreceived.headers own (hsent.own hown)
  · have hname := signingNames_lower _ ((amzNames_sublist _ _).subset (List.mem_map_of_mem hamz))
    have harrived := hreceived.headers header (hsent.amz hamz)
    rwa [hname] at harrived

/-- The claim of the authorization that was made. -/
def claimOf (env : SigningEnv) (client : Client) (now : TimePoint) (call : ClientCall) (rawPath : Bytes) : SignatureClaim :=
  let params := client.makeSigParams env now
  let cr := makeCanonicalRequest call.method rawPath [] (signedHeadersOf env client now call) (env.sha256Hex call.data)
  { accessKeyId := client.creds.accessKeyId
    date := params.date
    region := client.region
    service := ascii "s3"
    signedHeaders := cr.signedHeaders
    signature := env.computeSignature params (env.stringToSign params.amzDate (makeScope params) cr.canonicalRequest) }

def partsOf (env : SigningEnv) (client : Client) (now : TimePoint) (call : ClientCall) (rawPath : Bytes) : SignedParts where
  claim := claimOf env client now call rawPath
  amzDate := env.toAmzDateUtc now
  payload := env.sha256Hex call.data
  headers := signedHeadersOf env client now call

theorem claimOf_names {env : SigningEnv} (rawPath : Bytes)
    (hsigned : ∀ header ∈ signedHeadersOf env client now call, request.header header.1 = some header.2) :
    (claimOf env client now call rawPath).names = (signedHeadersOf env client now call).map Prod.fst := by
  apply List.splitOn_intercalate
  · intro name hname hmark
    obtain ⟨header, hheader, rfl⟩ := List.mem_map.mp hname
    have htoken := request.names_token _ (mem_of_header (hsigned header hheader)) semicolon hmark
    exact (token_plain htoken).2.2.2.1 rfl
  · intro hempty
    rw [List.map_eq_nil_iff] at hempty
    have hhost : (ascii "host", client.host) ∈ signedHeadersOf env client now call :=
      mem_signedHeadersOf.mpr (Or.inl rfl)
    rw [hempty] at hhost
    cases hhost

theorem read_authorizationOf {env : SigningEnv} {rawPath : Bytes} (h : Sendable env.una client call)
    (hsigned : ∀ header ∈ signedHeadersOf env client now call, request.header header.1 = some header.2) :
    SignatureClaim.read (authorizationOf env client now call rawPath) = some (claimOf env client now call rawPath) := by
  have hdate := date_plain env now
  have hservice : slash ∉ ascii "s3" ∧ comma ∉ ascii "s3" := by decide
  apply read_authorization
  · simp only [List.mem_cons, List.not_mem_nil, or_false, forall_eq_or_imp, forall_eq]
    exact ⟨h.accessKeyId.1, hdate.1, h.region.1, hservice.1⟩
  · simp only [List.mem_cons, List.not_mem_nil, or_false, forall_eq_or_imp, forall_eq]
    refine ⟨h.accessKeyId.2, hdate.2, h.region.2, hservice.2, ?_, ?_⟩
    · intro hmem
      rcases mem_intercalate hmem with hmark | ⟨name, hname, hx⟩
      · exact absurd hmark (by decide)
      · obtain ⟨header, hheader, rfl⟩ := List.mem_map.mp hname
        have htoken := request.names_token _ (mem_of_header (hsigned header hheader)) comma hx
        exact (token_plain htoken).2.2.2.2 rfl
    · intro hmem
      exact absurd (hexPair_range hmem) (by decide)

theorem signedParts_eq {env : SigningEnv} (h : Sendable env.una client call) (hreceived : Delivered sent request)
    (hhost : sent.host = client.host) (hsent : SentHeaders env client now call sent) :
    request.signedParts = some (partsOf env client now call sent.rawPath) := by
  have hsigned := hreceived.signed hhost hsent
  have harrived : ∀ name ∈ signingNames, ∀ value, (name, value) ∈ sent.headers → request.header name = some value := by
    intro name hname value hmem
    have hheader := hreceived.headers (name, value) hmem
    rwa [signingNames_lower name hname] at hheader
  have hauthorization := harrived _ (by decide) _ hsent.authorization
  have hamzDate := harrived (ascii "x-amz-date") (by decide) _ (hsent.amz (List.mem_append_left _ List.mem_cons_self))
  have hpayload := harrived (ascii "x-amz-content-sha256") (by decide) _
    (hsent.amz (List.mem_append_left _ (List.mem_cons_of_mem _ List.mem_cons_self)))
  have hselect : select request.header (claimOf env client now call sent.rawPath).names =
      some (signedHeadersOf env client now call) :=
    select_eq_some.mpr ⟨(claimOf_names _ hsigned).symm, hsigned⟩
  rw [ReceivedRequest.signedParts, hauthorization, Option.bind_eq_bind, Option.bind_some, read_authorizationOf h hsigned,
    hamzDate, hpayload]
  simp only [Option.bind_eq_bind, Option.bind_some, hselect]
  rfl

/-- The session token arrives, and no other in the place of one that is missing. -/
theorem token_arrived {env : SigningEnv} (hreceived : Delivered sent request)
    (hsent : SentHeaders env client now call sent) :
    request.header (ascii "x-amz-security-token") = client.creds.sessionToken := by
  have hsigning : ascii "x-amz-security-token" ∈ signingNames := by decide
  cases htoken : client.creds.sessionToken with
  | some token =>
    have hmem : (ascii "x-amz-security-token", token) ∈
        (client.makeSigParams env now).amzHeaders (env.sha256Hex call.data) := by
      apply List.mem_append_right
      rw [Client.makeSigParams, htoken]
      exact List.mem_cons_self
    have harrived := hreceived.headers _ (hsent.amz hmem)
    rwa [signingNames_lower _ hsigning] at harrived
  | none =>
    have hamz : ascii "x-amz-" <+: ascii "x-amz-security-token" := by decide
    have hothers : ascii "x-amz-security-token" ∉ [ascii "x-amz-date", ascii "x-amz-content-sha256"] := by decide
    have hlast : asciiStrToLower (ascii "authorization") ≠ ascii "x-amz-security-token" := by decide
    cases hheader : request.header (ascii "x-amz-security-token") with
    | none => rfl
    | some token =>
      obtain ⟨own, hown, hname⟩ := hreceived.amz _ (mem_of_header hheader) hamz
      exfalso
      rcases hsent.only own hown with hset | hadded | hauthorization
      · have hownName := setHeaders_names own hset
        rw [hname] at hownName
        exact signingNames_own _ hsigning hownName
      · have hnames := List.mem_map_of_mem (f := Prod.fst) hadded
        rw [signingNames_lower _ ((amzNames_sublist _ _).subset hnames)] at hname
        rw [amzHeaders_names, Client.makeSigParams, htoken, hname] at hnames
        exact hothers hnames
      · rw [hauthorization] at hname
        exact hlast hname

theorem checked (h : Sendable server.env.una client call) (hrequest : client.request server.env now call = some sent)
    (hreceived : Delivered sent request) (hpath : request.path = sent.rawPath)
    (hsent : SentHeaders server.env client now call sent) :
    server.Checked request (partsOf server.env client now call sent.rawPath)
      ⟨client.creds.secretAccessKey, client.creds.sessionToken⟩ := by
  obtain ⟨_, _, _, hmethod, hhost, hbody, _⟩ := request_spec hrequest
  have hsigned := hreceived.signed hhost hsent
  have hnames := claimOf_names sent.rawPath hsigned
  have hmem : ∀ header, header ∈ signedHeadersOf server.env client now call →
      header.1 ∈ (claimOf server.env client now call sent.rawPath).names := by
    intro header hheader
    rw [hnames]
    exact List.mem_map_of_mem hheader
  constructor
  · refine ⟨ascii "T" ++ server.env.utcTime now ++ ascii "Z", ?_⟩
    change server.env.utcDate now ++ _ = server.env.toAmzDateUtc now
    rw [SigningEnv.toAmzDateUtc, List.append_assoc, List.append_assoc, List.append_assoc]
  · rw [hreceived.body, hbody]
    rfl
  · exact token_arrived hreceived hsent
  · rw [partsOf, hnames]
    exact names_sorted signedHeadersOf_nodup
  · exact hmem _ (mem_signedHeadersOf.mpr (Or.inl rfl))
  · intro header hheader hamz
    obtain ⟨own, hown, hname⟩ := hreceived.amz header hheader hamz
    rw [← hname]
    rcases hsent.only own hown with hset | hadded | hauthorization
    · exact hmem (asciiStrToLower own.1, own.2) (mem_signedHeadersOf.mpr (Or.inr (Or.inl ⟨own, hset, rfl⟩)))
    · rw [signingNames_lower _ ((amzNames_sublist _ _).subset (List.mem_map_of_mem hadded))]
      exact hmem own (mem_signedHeadersOf.mpr (Or.inr (Or.inr hadded)))
    · rw [← hname, hauthorization] at hamz
      exact absurd hamz (by decide)
  · have htext := canonicalRequest_eq call.method sent.rawPath [] (server.env.sha256Hex call.data)
      (h.onlyBlanks now)
    have hcanonical : canonicalText request (partsOf server.env client now call sent.rawPath) =
        (makeCanonicalRequest call.method sent.rawPath [] (signedHeadersOf server.env client now call)
          (server.env.sha256Hex call.data)).canonicalRequest := by
      rw [htext, canonicalText, canonicalLines, hreceived.method, hmethod, hpath, hreceived.parameters]
      rfl
    rw [SigningServer.signedText, hcanonical]
    rfl

end Accepting

/-- The octets that the URL standard leaves in a path as they are. -/
def standardPathByte (c : Byte) : Bool :=
  32 < c.val && c.val < 127 && c ∉ ([34, 35, 60, 62, 63, 94, 96, 123, 125] : Bytes)

/-- One hash for everything, at midnight of one day. -/
def sampleEnv : SigningEnv where
  una := asciiUna
  sha256 _ := List.replicate 32 0
  hmacSha256 _ _ := List.replicate 32 0
  utcDate _ := ascii "20130524"
  utcTime _ := ascii "000000"
  keptInPath := standardPathByte
  setPathname := PercentEncoding.encode standardPathByte
  utcDate_digits _ := by decide +kernel
  utcTime_digits _ := by decide +kernel
  percent_kept := by decide
  setPathname_plain _ _ := rfl

/-- A percent sign in a key is signed as one, and arrives as the start of an escape. -/
example : PercentEncoding.decode (sampleEnv.setPathname (ascii "/b/a%41")) = ascii "/b/aA" := by decide +kernel

def sampleClient : Client :=
  ⟨ascii "us", ⟨ascii "AKID", ascii "key", some (ascii "token")⟩, ascii "b", ascii "s3"⟩

def sampleCall : ClientCall := .deleteObject (ascii "a b")

def sampleSent : SentRequest := (sampleClient.request sampleEnv 1369353600000000000 sampleCall).get (by decide +kernel)

def sampleRequest : ReceivedRequest where
  method := sampleSent.method
  path := ascii "/b/a b"
  parameters := []
  headers := (ascii "host", sampleSent.host) :: sampleSent.headers.map fun header => (asciiStrToLower header.1, header.2)
  body := sampleSent.body
  method_token := by decide +kernel
  names_token := by decide +kernel
  values_inline := by decide +kernel

def sampleServer : SigningServer :=
  ⟨sampleEnv, fun accessKeyId => if accessKeyId = ascii "AKID" then some ⟨ascii "key", some (ascii "token")⟩ else none⟩

end Webshot.Storage
