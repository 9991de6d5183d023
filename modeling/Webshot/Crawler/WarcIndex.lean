import Webshot.Crawler.WarcFraming
import Webshot.Foundation.Tiling

/-! What the index of a WARC points at. -/
namespace Webshot.Crawler
open Text Foundation.JsonText Foundation.Tiling

def WarcCdxRecord.span (record : WarcCdxRecord) : Span := ⟨record.offset, record.length⟩

/-- The record points at the member that holds a text, and its digests are those of the member and of the body. -/
structure WarcCdxRecord.PointsAt (env : WarcEnv) (bytes text body : Bytes) (record : WarcCdxRecord) : Prop where
  inside : record.span.stop ≤ bytes.length
  compressed : env.gzipCompressMember text = .ok (record.span.slice bytes)
  recordDigest : record.recordDigest = ascii "sha256:" ++ sha256Hex env.sha (record.span.slice bytes)
  digest : record.digest = ascii "sha-256:" ++ sha256Hex env.sha body

/-- The record of a response. -/
def ResponseIndexed (env : WarcEnv) (bytes : Bytes) (response : SerializableResponse) (record : WarcCdxRecord) : Prop :=
  record.recordUrl = response.responseUrl ∧ record.statusCode = response.statusCode ∧
    record.headers = response.headers ∧ ∃ drawn statusMessage,
      record.PointsAt env bytes (response.responseRecord env drawn statusMessage) response.body

/-- The member of the request of one of the responses. -/
def RequestMember (env : WarcEnv) (bytes : Bytes) (responses : List SerializableResponse) (span : Span) : Prop :=
  ∃ response ∈ responses, ∃ drawn, span.stop ≤ bytes.length ∧
    env.gzipCompressMember (response.requestRecord env drawn) = .ok (span.slice bytes)

/-- What holds of the output after some responses. -/
structure WarcIndexed (env : WarcEnv) (responses : List SerializableResponse) (requests : List Span)
    (progress : WarcProgress) : Prop where
  offset_eq : progress.offset = progress.out.bytes.length
  tiled : ∃ spans, spans.Perm (progress.out.cdxRecords.map WarcCdxRecord.span ++ requests) ∧
    Tiles 0 spans progress.out.bytes.length
  responses_indexed : List.Forall₂ (ResponseIndexed env progress.out.bytes) responses progress.out.cdxRecords
  requests_members : ∀ span ∈ requests, RequestMember env progress.out.bytes responses span

/-- Nothing of a text changes when it is normalized behind a colon. -/
def ColonStays (una : UniAlgo) : Prop := ∀ start text, IsAscii start → una.toNfcUtf8 text = text →
  una.toNfcUtf8 (start ++ colon :: text) = start ++ colon :: text

/-- The record is found at its place: the bytes there decompress to a text that is about the record's URL and has the
body as its payload, and the digests are those of the bytes and of the body. -/
structure WarcCdxRecord.Finds (env : WarcEnv) (gunzip : Bytes → Option Bytes) (bytes type text body : Bytes)
    (record : WarcCdxRecord) : Prop where
  nonempty : 0 < record.length
  inside : record.offset + record.length ≤ bytes.length
  decompressed : gunzip (record.span.slice bytes) = some text
  target : warcVersion ++ crlf ++ headerLineText ⟨ascii "WARC-Type", type⟩ ++
    headerLineText ⟨ascii "WARC-Target-URI", record.recordUrl⟩ <+: text
  payload : body ++ ascii "\r\n\r\n" <:+ text
  recordDigest : record.recordDigest = ascii "sha256:" ++ sha256Hex env.sha (record.span.slice bytes)
  digest : record.digest = ascii "sha-256:" ++ sha256Hex env.sha body

section Index
variable {env : WarcEnv} {bytes text body : Bytes}

theorem WarcCdxRecord.PointsAt.append {record : WarcCdxRecord} (h : record.PointsAt env bytes text body)
    (more : Bytes) : record.PointsAt env (bytes ++ more) text body := by
  have hslice := Span.slice_append h.inside more
  refine ⟨?_, ?_, ?_, h.digest⟩
  · rw [List.length_append]
    exact Nat.le_add_right_of_le h.inside
  · rw [hslice]
    exact h.compressed
  · rw [hslice]
    exact h.recordDigest

theorem RequestMember.append {responses : List SerializableResponse} {span : Span}
    (h : RequestMember env bytes responses span) (response : SerializableResponse) (more : Bytes) :
    RequestMember env (bytes ++ more) (responses ++ [response]) span := by
  obtain ⟨other, hother, drawn, hinside, hcompressed⟩ := h
  refine ⟨other, List.mem_append_left _ hother, drawn, ?_, ?_⟩
  · rw [List.length_append]
    exact Nat.le_add_right_of_le hinside
  · rw [Span.slice_append hinside]
    exact hcompressed

private theorem fromBytes_prefixedHex (sha : Sha256) (data : Bytes) {start : Bytes} (h : IsAscii start)
    (una : UniAlgo) : fromBytes una (sha256PrefixedHex sha data start) = some (start ++ sha256Hex sha data) := by
  refine fromBytes_ascii una (h.append ?_)
  intro x hx
  exact (hexPair_spec hx).1

theorem cdxPayloadDigest_eq (env : WarcEnv) (payload : Bytes) :
    cdxPayloadDigest env payload = some (ascii "sha-256:" ++ sha256Hex env.sha payload) :=
  fromBytes_prefixedHex env.sha payload (.ofList rfl) env.una

theorem cdxRecordDigest_eq (env : WarcEnv) (recordBytes : Bytes) :
    cdxRecordDigest env recordBytes = some (ascii "sha256:" ++ sha256Hex env.sha recordBytes) :=
  fromBytes_prefixedHex env.sha recordBytes (.ofList rfl) env.una

/-- What an index entry says. -/
theorem makeCdxRecord_spec {recordUrl timestamp payload member : Bytes} {statusCode : Int} {headers : Headers}
    {offset : Nat} {record : WarcCdxRecord}
    (h : makeCdxRecord env recordUrl timestamp payload member statusCode headers offset = some record) :
    record.recordUrl = recordUrl ∧ record.statusCode = statusCode ∧ record.headers = headers ∧
      record.span = ⟨offset, member.length⟩ ∧
      record.recordDigest = ascii "sha256:" ++ sha256Hex env.sha member ∧
      record.digest = ascii "sha-256:" ++ sha256Hex env.sha payload := by
  simp only [makeCdxRecord, cdxPayloadDigest_eq, cdxRecordDigest_eq, Option.bind_eq_bind, Option.bind_some,
    Option.bind_eq_some_iff, Option.pure_def, Option.some.injEq] at h
  obtain ⟨cdxTimestamp, _, rfl⟩ := h
  exact ⟨rfl, rfl, rfl, rfl, rfl, rfl⟩

/-- A member that was written where the entry says is pointed at. -/
theorem makeCdxRecord_pointsAt {recordUrl timestamp member : Bytes} {statusCode : Int} {headers : Headers}
    {record : WarcCdxRecord}
    (h : makeCdxRecord env recordUrl timestamp body member statusCode headers bytes.length = some record)
    (hmember : env.gzipCompressMember text = .ok member) (more : Bytes) :
    record.PointsAt env (bytes ++ (member ++ more)) text body := by
  obtain ⟨_, _, _, hspan, hrecordDigest, hdigest⟩ := makeCdxRecord_spec h
  have hslice : record.span.slice (bytes ++ (member ++ more)) = member := by
    rw [hspan, Span.slice_between]
  refine ⟨?_, ?_, ?_, hdigest⟩
  · rw [hspan, List.length_append, List.length_append]
    exact Nat.add_le_add_left (Nat.le_add_right _ _) _
  · rw [hslice]
    exact hmember
  · rw [hslice]
    exact hrecordDigest

/-- What one round of the loop appends. -/
theorem appendResponse_spec {progress next : WarcProgress} {response : SerializableResponse}
    (h : appendResponse env progress response = some (.ok next)) :
    ∃ statusMessage responseGz requestGz record,
      serializeRecordPair env progress.drawn response =
        some (response.responseRecord env progress.drawn statusMessage, response.requestRecord env progress.drawn) ∧
      env.gzipCompressMember (response.responseRecord env progress.drawn statusMessage) = .ok responseGz ∧
      env.gzipCompressMember (response.requestRecord env progress.drawn) = .ok requestGz ∧
      makeCdxRecord env response.responseUrl response.timestamp response.body responseGz response.statusCode
        response.headers progress.offset = some record ∧
      next = ⟨⟨progress.out.bytes ++ (responseGz ++ requestGz), progress.out.cdxRecords ++ [record]⟩,
        progress.offset + (responseGz.length + requestGz.length), progress.drawn + 2⟩ := by
  simp only [appendResponse, serializeRecordPair, Option.bind_eq_bind, Option.bind_eq_some_iff, Option.pure_def,
    Option.some.injEq] at h
  obtain ⟨pair, ⟨statusMessage, hmessage, rfl⟩, h⟩ := h
  have hpair : serializeRecordPair env progress.drawn response =
      some (response.responseRecord env progress.drawn statusMessage, response.requestRecord env progress.drawn) := by
    rw [serializeRecordPair, hmessage]
    rfl
  split at h
  · cases h
  · rename_i responseGz hresponse
    split at h
    · cases h
    · rename_i requestGz hrequest
      simp only [Option.bind_eq_some_iff, Option.some.injEq, Except.ok.injEq, size64] at h
      obtain ⟨record, hrecord, offset, hoffset, rfl⟩ := h
      split at hoffset
      · cases hoffset
        exact ⟨statusMessage, responseGz, requestGz, record, hpair, hresponse, hrequest, hrecord, rfl⟩
      · cases hoffset

theorem WarcIndexed.initial (env : WarcEnv) : WarcIndexed env [] [] {} :=
  ⟨rfl, ⟨[], .refl _, rfl⟩, .nil, nofun⟩

private theorem perm_append_pair {α : Type} {spans records requests : List α} (h : spans.Perm (records ++ requests))
    (a b : α) : ((spans ++ [a]) ++ [b]).Perm ((records ++ [a]) ++ (requests ++ [b])) := by
  have hswap : (requests ++ ([a] ++ [b])).Perm ([a] ++ (requests ++ [b])) := List.perm_append_comm_assoc _ _ _
  calc ((spans ++ [a]) ++ [b])
      _ |>.Perm ((records ++ requests ++ [a]) ++ [b]) := (h.append_right [a]).append_right [b]
      _ = records ++ (requests ++ ([a] ++ [b])) := by simp only [List.append_assoc]
      _ |>.Perm (records ++ ([a] ++ (requests ++ [b]))) := hswap.append_left records
      _ = (records ++ [a]) ++ (requests ++ [b]) := by rw [List.append_assoc]

/-- One round of the loop keeps the index right. -/
theorem WarcIndexed.append {responses : List SerializableResponse} {requests : List Span}
    {progress next : WarcProgress} {response : SerializableResponse} (hindexed : WarcIndexed env responses requests progress)
    (h : appendResponse env progress response = some (.ok next)) :
    ∃ requests, WarcIndexed env (responses ++ [response]) requests next := by
  obtain ⟨statusMessage, responseGz, requestGz, record, _, hresponse, hrequest, hrecord, rfl⟩ := appendResponse_spec h
  rw [hindexed.offset_eq] at hrecord
  obtain ⟨hurl, hstatus, hheaders, hspan, _, _⟩ := makeCdxRecord_spec hrecord
  have hpoints := makeCdxRecord_pointsAt hrecord hresponse requestGz
  obtain ⟨spans, hperm, htiles⟩ := hindexed.tiled
  have hrequestSpan : (⟨progress.out.bytes.length + responseGz.length, requestGz.length⟩ : Span).slice
      (progress.out.bytes ++ (responseGz ++ requestGz)) = requestGz := by
    have hbetween := Span.slice_between (progress.out.bytes ++ responseGz) requestGz []
    rw [List.append_nil, List.length_append, List.append_assoc] at hbetween
    exact hbetween
  refine ⟨requests ++ [⟨progress.out.bytes.length + responseGz.length, requestGz.length⟩], ?_, ?_, ?_, ?_⟩
  · rw [List.length_append, List.length_append, hindexed.offset_eq]
  · refine ⟨(spans ++ [record.span]) ++ [⟨progress.out.bytes.length + responseGz.length, requestGz.length⟩], ?_, ?_⟩
    · rw [List.map_append]
      exact perm_append_pair hperm _ _
    · rw [hspan, List.length_append, List.length_append, ← Nat.add_assoc]
      exact (htiles.append_singleton responseGz.length).append_singleton requestGz.length
  · refine List.rel_append ?_ (.cons ⟨hurl, hstatus, hheaders, _, _, hpoints⟩ .nil)
    refine hindexed.responses_indexed.imp ?_
    rintro response record ⟨hurl, hstatus, hheaders, drawn, statusMessage, hpoints⟩
    exact ⟨hurl, hstatus, hheaders, drawn, statusMessage, hpoints.append _⟩
  · intro span hmem
    rcases List.mem_append.mp hmem with hmem | hmem
    · exact (hindexed.requests_members span hmem).append response _
    · rw [List.mem_singleton.mp hmem]
      refine ⟨response, List.mem_append_right _ (List.mem_singleton_self response), progress.drawn, ?_, ?_⟩
      · rw [List.length_append, List.length_append, ← Nat.add_assoc]
        exact le_rfl
      · rw [hrequestSpan]
        exact hrequest

/-- So does the whole loop. -/
theorem WarcIndexed.appendAll {responses rest : List SerializableResponse} {requests : List Span}
    {progress final : WarcProgress} (hindexed : WarcIndexed env responses requests progress)
    (h : appendResponses env progress rest = some (.ok final)) :
    ∃ requests, WarcIndexed env (responses ++ rest) requests final := by
  induction rest generalizing responses requests progress with
  | nil =>
    cases h
    rw [List.append_nil]
    exact ⟨requests, hindexed⟩
  | cons response rest ih =>
    simp only [appendResponses, Option.bind_eq_bind, Option.bind_eq_some_iff] at h
    obtain ⟨outcome, hstep, h⟩ := h
    split at h
    · cases h
    · rename_i next
      obtain ⟨requests, hnext⟩ := hindexed.append hstep
      obtain ⟨requests, hfinal⟩ := ih hnext h
      rw [List.append_assoc] at hfinal
      exact ⟨requests, hfinal⟩

/-- What `MakeWarc` appends for the page itself. -/
theorem appendPageInfo_spec {exchange : CapturedExchange} {progress : WarcProgress} {out : WarcBuildOutput}
    (h : appendPageInfo env exchange progress = some (.ok out)) :
    ∃ recordUrl member record, fromBytes env.una (pageInfoUrl exchange) = some recordUrl ∧
      env.gzipCompressMember (serializePageInfoRecord env progress.drawn exchange) = .ok member ∧
      makeCdxRecord env recordUrl (pageTimestamp exchange) (makePageInfoJsonBytes env exchange) member 200
        ((∅ : Headers).insert (ascii "content-type") (ascii "application/json")) progress.offset = some record ∧
      out = ⟨progress.out.bytes ++ member, progress.out.cdxRecords ++ [record]⟩ := by
  simp only [appendPageInfo, CaptureEnv.format, Option.bind_eq_bind, Option.bind_eq_some_iff, Option.pure_def] at h
  obtain ⟨recordUrl, hurl, h⟩ := h
  split at h
  · cases h
  · rename_i member hmember
    simp only [Option.bind_eq_some_iff, Option.some.injEq, Except.ok.injEq] at h
    obtain ⟨record, hrecord, rfl⟩ := h
    exact ⟨recordUrl, member, record, hurl, hmember, hrecord, rfl⟩

/-- A member for each of some records. -/
def Compressed (env : WarcEnv) : List EmittedRecord → List Bytes → Prop :=
  List.Forall₂ fun record member => env.gzipCompressMember record.bytes = .ok member

/-- The loop appends the members of the pairs. -/
theorem appendResponses_members {progress final : WarcProgress} {responses : List SerializableResponse}
    (h : appendResponses env progress responses = some (.ok final)) :
    ∃ pairs members, emittedPairs env progress.drawn responses = some pairs ∧ Compressed env pairs members ∧
      final.out.bytes = progress.out.bytes ++ members.flatten ∧
      final.drawn = progress.drawn + 2 * responses.length := by
  induction responses generalizing progress with
  | nil =>
    cases h
    exact ⟨[], [], rfl, .nil, (List.append_nil _).symm, rfl⟩
  | cons response responses ih =>
    simp only [appendResponses, Option.bind_eq_bind, Option.bind_eq_some_iff] at h
    obtain ⟨outcome, hstep, h⟩ := h
    split at h
    · cases h
    · rename_i next
      obtain ⟨statusMessage, responseGz, requestGz, record, hpair, hresponse, hrequest, _, rfl⟩ :=
        appendResponse_spec hstep
      obtain ⟨pairs, members, hpairs, hmembers, hbytes, hdrawn⟩ := ih h
      refine ⟨⟨.response, response.responseRecord env progress.drawn statusMessage⟩ ::
          ⟨.request, response.requestRecord env progress.drawn⟩ :: pairs,
        responseGz :: requestGz :: members, ?_, .cons hresponse (.cons hrequest hmembers), ?_, ?_⟩
      · simp only [emittedPairs, hpair, hpairs, Option.bind_eq_bind, Option.bind_some, Option.pure_def]
      · simp only [hbytes, List.flatten_cons, List.append_assoc]
      · rw [hdrawn, List.length_cons, Nat.mul_succ]
        exact (Nat.add_assoc progress.drawn 2 _).trans (congrArg (progress.drawn + ·) (Nat.add_comm 2 _))

/-- A WARC is made of the members of the emitted records, one behind another. -/
theorem makeWarc_members {exchange : CapturedExchange} {out : WarcBuildOutput}
    (h : makeWarc env exchange = some (.ok out)) :
    ∃ records members, emittedRecords env exchange = some records ∧ Compressed env records members ∧
      out.bytes = members.flatten := by
  simp only [makeWarc, Option.bind_eq_bind, Option.bind_eq_some_iff] at h
  obtain ⟨outcome, hloop, h⟩ := h
  split at h
  · cases h
  · rename_i progress
    obtain ⟨pairs, members, hpairs, hmembers, hbytes, hdrawn⟩ := appendResponses_members hloop
    obtain ⟨_, member, _, _, hmember, _, rfl⟩ := appendPageInfo_spec h
    rw [hdrawn] at hmember
    simp only [Nat.zero_add] at hmember
    refine ⟨pairs ++ [⟨.pageInfo, serializePageInfoRecord env
        (2 * (collectSerializableResponses env exchange).length) exchange⟩],
      members ++ [member], ?_, List.rel_append hmembers (.cons hmember .nil), ?_⟩
    · simp only [emittedRecords, hpairs, Option.bind_eq_bind, Option.bind_some, Option.pure_def]
    · rw [hbytes, List.flatten_append]
      simp only [List.nil_append, List.flatten_singleton]

variable {gunzip : Bytes → Option Bytes}

private theorem pointsAt_finds {record : WarcCdxRecord} {type : Bytes}
    (hgunzip : ∀ text member, env.gzipCompressMember text = .ok member → gunzip member = some text ∧ member ≠ [])
    (h : record.PointsAt env bytes text body)
    (htarget : warcVersion ++ crlf ++ headerLineText ⟨ascii "WARC-Type", type⟩ ++
      headerLineText ⟨ascii "WARC-Target-URI", record.recordUrl⟩ <+: text)
    (hpayload : body ++ ascii "\r\n\r\n" <:+ text) : record.Finds env gunzip bytes type text body := by
  obtain ⟨hdecompressed, hne⟩ := hgunzip text _ h.compressed
  have hpos : 0 < record.length := by
    have hlength := List.length_pos_iff.mpr hne
    rw [Span.slice, List.length_take] at hlength
    exact hlength.trans_le (min_le_left _ _)
  exact ⟨hpos, h.inside, hdecompressed, htarget, hpayload, h.recordDigest, h.digest⟩

private theorem warcRecord_starts (type url : Bytes) (fields : List HeaderLine) (block trailer : Bytes) :
    warcVersion ++ crlf ++ headerLineText ⟨ascii "WARC-Type", type⟩ ++ headerLineText ⟨ascii "WARC-Target-URI", url⟩ <+:
      warcRecord (⟨ascii "WARC-Type", type⟩ :: ⟨ascii "WARC-Target-URI", url⟩ :: fields) block trailer := by
  have hversion : warcVersion ++ crlf = ascii "WARC/1.1\r\n" := rfl
  rw [warcRecord, List.flatMap_cons, List.flatMap_cons, hversion, List.append_assoc]
  refine (List.prefix_append_right_inj _).mpr ?_
  rw [List.append_assoc, List.append_assoc, ← List.append_assoc (headerLineText ⟨ascii "WARC-Type", type⟩)]
  exact List.prefix_append _ _

private theorem warcRecord_ends (fields : List HeaderLine) (head body trailer : Bytes) :
    body ++ trailer <:+ warcRecord fields (head ++ body) trailer := by
  refine ⟨ascii "WARC/1.1\r\n" ++ (fields.flatMap headerLineText ++ (crlf ++ head)), ?_⟩
  simp only [warcRecord, List.append_assoc]

theorem capturedResponses_length (exchange : CapturedExchange) :
    (capturedResponses exchange).length = exchange.mainDocumentRedirects.length + 1 + exchange.resources.length := by
  rw [capturedResponses, List.length_append, List.length_cons, List.length_map, List.length_map]
  omega

/-- Each response of a capture of which a WARC is made has a record in the index by which it is found. -/
theorem makeWarc_finds {exchange : CapturedExchange} {out : WarcBuildOutput}
    (hgunzip : ∀ text member, env.gzipCompressMember text = .ok member → gunzip member = some text ∧ member ≠ [])
    (h : makeWarc env exchange = some (.ok out)) {response : SerializableResponse}
    (hresponse : response ∈ capturedResponses exchange) :
    ∃ record ∈ out.cdxRecords, record.recordUrl = response.responseUrl ∧ record.statusCode = response.statusCode ∧
      ∃ drawn statusMessage, record.Finds env gunzip out.bytes (ascii "response")
        (response.responseRecord env drawn statusMessage) response.body := by
  simp only [makeWarc, Option.bind_eq_bind, Option.bind_eq_some_iff] at h
  obtain ⟨outcome, hloop, h⟩ := h
  split at h
  · cases h
  rename_i progress
  obtain ⟨requests, hindexed⟩ := (WarcIndexed.initial env).appendAll hloop
  rw [List.nil_append] at hindexed
  obtain ⟨_, member, pageRecord, _, _, _, rfl⟩ := appendPageInfo_spec h
  have hcollected : response ∈ collectSerializableResponses env exchange :=
    (env.sort_perm _).mem_iff.mpr hresponse
  obtain ⟨i, hi, rfl⟩ := List.getElem_of_mem hcollected
  have hlength := hindexed.responses_indexed.length_eq
  obtain ⟨hurl, hstatus, _, drawn, statusMessage, hpoints⟩ := hindexed.responses_indexed.get hi (hlength ▸ hi)
  refine ⟨_, List.mem_append_left _ (List.getElem_mem (hlength ▸ hi)), hurl, hstatus, drawn, statusMessage, ?_⟩
  refine pointsAt_finds hgunzip (hpoints.append member) ?_ (warcRecord_ends _ _ _ _)
  exact hurl ▸ warcRecord_starts _ _ _ _ _

/-- For every capture of which a WARC is made, the index has one record for each redirect, the main document and each
resource, and one for the page; each finds what it is about; and the members it points at cover the bytes together
with the members of the requests, without gaps and without overlaps. -/
theorem index_finds_records {exchange : CapturedExchange} {out : WarcBuildOutput}
    (hgunzip : ∀ text member, env.gzipCompressMember text = .ok member → gunzip member = some text ∧ member ≠ [])
    (hcolon : ColonStays env.una) (hurl : env.una.toNfcUtf8 (pageUrl exchange) = pageUrl exchange)
    (h : makeWarc env exchange = some (.ok out)) :
    ∃ responses responseRecords infoRecord requests,
      out.cdxRecords = responseRecords ++ [infoRecord] ∧ responses.Perm (capturedResponses exchange) ∧
      out.cdxRecords.length = exchange.mainDocumentRedirects.length + 1 + exchange.resources.length + 1 ∧
      List.Forall₂ (fun response record => record.recordUrl = response.responseUrl ∧ ∃ drawn statusMessage,
        record.Finds env gunzip out.bytes (ascii "response") (response.responseRecord env drawn statusMessage)
          response.body) responses responseRecords ∧
      (infoRecord.recordUrl = pageInfoUrl exchange ∧ ∃ drawn,
        infoRecord.Finds env gunzip out.bytes (ascii "resource") (serializePageInfoRecord env drawn exchange)
          (makePageInfoJsonBytes env exchange)) ∧
      (∀ span ∈ requests, ∃ response ∈ responses, ∃ drawn,
        gunzip (span.slice out.bytes) = some (response.requestRecord env drawn)) ∧
      (∃ spans, spans.Perm (out.cdxRecords.map WarcCdxRecord.span ++ requests) ∧ Tiles 0 spans out.bytes.length) ∧
      (out.cdxRecords.map WarcCdxRecord.span).Pairwise Span.Apart := by
  simp only [makeWarc, Option.bind_eq_bind, Option.bind_eq_some_iff] at h
  obtain ⟨outcome, hloop, h⟩ := h
  split at h
  · cases h
  rename_i progress
  obtain ⟨requests, hindexed⟩ := (WarcIndexed.initial env).appendAll hloop
  rw [List.nil_append] at hindexed
  obtain ⟨recordUrl, member, record, hrecordUrl, hmember, hrecord, rfl⟩ := appendPageInfo_spec h
  rw [hindexed.offset_eq] at hrecord
  obtain ⟨hrecordUrl', _, _, hspan, _, _⟩ := makeCdxRecord_spec hrecord
  have hpoints := makeCdxRecord_pointsAt hrecord hmember []
  rw [List.append_nil] at hpoints
  have hpageUrl : record.recordUrl = pageInfoUrl exchange := by
    have hstays : env.una.toNfcUtf8 (pageInfoUrl exchange) = pageInfoUrl exchange :=
      hcolon (ascii "urn:pageinfo") (pageUrl exchange) (.ofList rfl) hurl
    rw [fromBytes_of_valid (valid_of_fromBytes hrecordUrl), hstays] at hrecordUrl
    cases hrecordUrl
    exact hrecordUrl'
  have htiled : ∃ spans, spans.Perm ((progress.out.cdxRecords ++ [record]).map WarcCdxRecord.span ++ requests) ∧
      Tiles 0 spans (progress.out.bytes ++ member).length := by
    obtain ⟨spans, hperm, htiles⟩ := hindexed.tiled
    refine ⟨spans ++ [record.span], ?_, ?_⟩
    · rw [List.map_append, List.append_assoc]
      refine (hperm.append_right _).trans ?_
      rw [List.append_assoc]
      exact List.perm_append_comm.append_left _
    · rw [hspan, List.length_append]
      exact htiles.append_singleton member.length
  have hapart : ((progress.out.cdxRecords ++ [record]).map WarcCdxRecord.span).Pairwise Span.Apart := by
    obtain ⟨spans, hperm, htiles⟩ := htiled
    have hall := (hperm.pairwise_iff fun hab => Span.Apart.symm hab).mp htiles.apart
    exact (List.pairwise_append.mp hall).1
  have hperm : (collectSerializableResponses env exchange).Perm (capturedResponses exchange) := env.sort_perm _
  refine ⟨collectSerializableResponses env exchange, progress.out.cdxRecords, record, requests, rfl, hperm, ?_, ?_,
    ⟨hpageUrl, progress.drawn, ?_⟩, ?_, htiled, hapart⟩
  · rw [List.length_append, ← hindexed.responses_indexed.length_eq, hperm.length_eq, capturedResponses_length,
      List.length_singleton]
  · refine hindexed.responses_indexed.imp ?_
    rintro response record ⟨hurl, _, _, drawn, statusMessage, hpoints⟩
    refine ⟨hurl, drawn, statusMessage, pointsAt_finds hgunzip (hpoints.append member) ?_ ?_⟩
    · rw [hurl]
      exact warcRecord_starts _ _ _ _ _
    · exact warcRecord_ends _ _ _ _
  · refine pointsAt_finds hgunzip hpoints ?_ ?_
    · rw [hpageUrl]
      exact warcRecord_starts _ _ _ _ _
    · exact warcRecord_ends _ [] _ _
  · intro span hmem
    obtain ⟨response, hresponse, drawn, hinside, hcompressed⟩ := hindexed.requests_members span hmem
    refine ⟨response, hresponse, drawn, ?_⟩
    rw [Span.slice_append hinside]
    exact (hgunzip _ _ hcompressed).1

end Index

theorem index_finds_records_empty :
    ∃ out, makeWarc plainWarcEnv emptyPage = some (.ok out) ∧ out.cdxRecords.length = 2 ∧
      (out.cdxRecords.map WarcCdxRecord.span).Pairwise Span.Apart := by
  have hcollected : collectSerializableResponses plainWarcEnv emptyPage = [makeMainDocumentResponse emptyPage] :=
    List.mergeSort_singleton _
  have hmade : (makeWarc plainWarcEnv emptyPage).any Except.isOk = true := by
    rw [makeWarc, hcollected]
    decide +kernel
  obtain ⟨outcome, hout, hok⟩ := (Option.any_eq_true _ _).mp hmade
  cases outcome with
  | error error => cases hok
  | ok out =>
    have hgunzip : ∀ text member, plainWarcEnv.gzipCompressMember text = .ok member →
        some member.tail = some text ∧ member ≠ [] := by
      intro text member hmember
      cases hmember
      exact ⟨rfl, List.cons_ne_nil 31 text⟩
    have hcolon : ColonStays plainWarcEnv.una := fun _ _ _ _ => rfl
    obtain ⟨_, _, _, _, _, _, hlength, _, _, _, _, hapart⟩ := index_finds_records hgunzip hcolon rfl hout
    exact ⟨out, hout, hlength, hapart⟩

end Webshot.Crawler
