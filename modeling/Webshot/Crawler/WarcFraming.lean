import Webshot.Crawler.WarcRecords
import Webshot.Foundation.FramedRecords

/-! Whether the records of a WARC are well formed. -/
namespace Webshot.Crawler
open Text Foundation.JsonText Foundation.FramedRecords

inductive RecordKind where
  | response
  | request
  | pageInfo
  deriving DecidableEq

structure EmittedRecord where
  kind : RecordKind
  bytes : Bytes

def emittedPairs (env : WarcEnv) (drawn : Nat) : List SerializableResponse → Option (List EmittedRecord)
  | [] => some []
  | response :: responses => do
    let (responseBytes, requestBytes) ← serializeRecordPair env drawn response
    let records ← emittedPairs env (drawn + 2) responses
    return ⟨.response, responseBytes⟩ :: ⟨.request, requestBytes⟩ :: records

/-- The records that `MakeWarc` compresses, in their order. -/
def emittedRecords (env : WarcEnv) (exchange : CapturedExchange) : Option (List EmittedRecord) := do
  let responses := collectSerializableResponses env exchange
  let records ← emittedPairs env 0 responses
  return records ++ [⟨.pageInfo, serializePageInfoRecord env (2 * responses.length) exchange⟩]

/-- No CR and no LF. -/
def PlainText (text : Bytes) : Prop := ∀ x ∈ crlf, x ∉ text

instance (text : Bytes) : Decidable (PlainText text) := inferInstanceAs (Decidable (∀ x ∈ crlf, x ∉ text))

/-- The texts of a capture that are written into lines of records have no line end in them. -/
structure CapturedExchange.PlainTexts (exchange : CapturedExchange) : Prop where
  seedUrl : PlainText exchange.seedUrl
  pageId : PlainText exchange.pageId
  finalUrl : PlainText exchange.finalUrl
  timestamp : PlainText exchange.timestamp
  redirects : ∀ redirect ∈ exchange.mainDocumentRedirects,
    PlainText redirect.redirectUrl ∧ PlainText redirect.timestamp
  resources : ∀ resource ∈ exchange.resources, PlainText resource.resourceUrl ∧ PlainText resource.timestamp ∧
    ∀ type ∈ resource.resourceType, PlainText type

def warcVersion : Bytes := ascii "WARC/1.1"

/-- The length of the block: the lines begin with the version, and one of them tells it. -/
def warcBlockLength : List Bytes → Option Nat
  | [] => none
  | version :: fields =>
    if version = warcVersion then
      (findHeaderValue (fields.filterMap parseHeaderLine) (ascii "content-length")).bind parseDigits
    else none

/-- WARC/1.1 records. -/
def warcFraming : Framing Byte := ⟨crlf, ascii "\r\n\r\n", warcBlockLength, by decide⟩

theorem PlainText.append {a b : Bytes} (ha : PlainText a) (hb : PlainText b) : PlainText (a ++ b) := by
  intro x hx hmem
  exact (List.mem_append.mp hmem).elim (ha x hx) (hb x hx)

theorem plainText_of_range {text : Bytes} (h : ∀ x ∈ text, 14 ≤ x.val) : PlainText text := by
  have hends : ∀ x ∈ crlf, x.val < 14 := by
    have hcrlf : crlf = [13, 10] := rfl
    rw [hcrlf, List.forall_mem_cons, List.forall_mem_singleton]
    decide
  intro x hx hmem
  exact absurd (h x hmem) (not_le.mpr (hends x hx))

/-- A literal of the source, character by character. -/
theorem PlainText.ofList {chars : List Char}
    (h : (chars.all fun c => decide (14 ≤ c.toNat ∧ c.toNat < 256)) = true) : PlainText (ascii (String.ofList chars)) := by
  apply plainText_of_range
  intro x hx
  rw [ascii, String.toList_ofList] at hx
  obtain ⟨c, hc, rfl⟩ := List.mem_map.mp hx
  have hrange : 14 ≤ c.toNat ∧ c.toNat < 256 := of_decide_eq_true (List.all_eq_true.mp h c hc)
  rw [Fin.ofNat, Fin.val_mk]
  omega

private theorem natText_range {n : Nat} {x : Byte} (hx : x ∈ natText n) : 48 ≤ x.val ∧ x.val ≤ 57 := by
  have hdigit := (natText_digits n).1 x hx
  rw [isDigit, Bool.and_eq_true, decide_eq_true_eq, decide_eq_true_eq] at hdigit
  exact hdigit

theorem plainText_natText (n : Nat) : PlainText (natText n) :=
  plainText_of_range fun _ hx => le_trans (by decide) (natText_range hx).1

theorem plainText_recordId (env : WarcEnv) (drawn : Nat) : PlainText (bracketed (recordId env drawn)) := by
  have hopen : PlainText (ascii "<") := .ofList rfl
  have hclose : PlainText (ascii ">") := .ofList rfl
  have hstart : PlainText (ascii "urn:uuid:") := .ofList rfl
  have huuid : PlainText (Storage.uuidText (env.generateBoostUuid drawn)) :=
    plainText_of_range fun _ hx => le_trans (by decide) (Storage.uuidText_range hx)
  exact hopen.append ((hstart.append huuid).append hclose)

section Reading

private theorem parseDigits_natText (n : Nat) : (parseDigits (trimView (natText n))) = some n := by
  have hvisible : ∀ x ∈ natText n, isAsciiSpace x = false := by
    intro x hx
    have hrange := natText_range hx
    exact isAsciiSpace_of_visible (by omega)
  have hempty : (natText n).isEmpty = false := by
    rw [List.isEmpty_eq_false_iff]
    exact natText_ne_nil n
  have hall : (natText n).all isDigit = true := List.all_eq_true.mpr (natText_digits n).1
  rw [trimView, trim_of_visible hvisible, parseDigits, hempty, hall, (natText_digits n).2]
  rfl

/-- The names of the fields in front of the length. -/
def fieldNames : List Bytes :=
  [ascii "WARC-Type", ascii "WARC-Target-URI", ascii "WARC-Date", ascii "WARC-Record-ID", ascii "WARC-Concurrent-To",
    ascii "WARC-Page-ID", ascii "WARC-Resource-Type", ascii "Content-Type"]

private theorem fieldNames_spec : ∀ name ∈ fieldNames, name ≠ [] ∧ colon ∉ name ∧ PlainText name ∧
    iCaseEqual name (ascii "content-length") = false := by
  decide +kernel

/-- Fields of known names whose values have no line end in them. -/
def PlainFields (fields : List HeaderLine) : Prop :=
  ∀ header ∈ fields, header.name ∈ fieldNames ∧ PlainText header.value

theorem PlainFields.append {a b : List HeaderLine} (ha : PlainFields a) (hb : PlainFields b) : PlainFields (a ++ b) := by
  intro header hmem
  exact (List.mem_append.mp hmem).elim (ha header) (hb header)

theorem PlainFields.cons {name value : Bytes} {fields : List HeaderLine} (hname : name ∈ fieldNames)
    (hvalue : PlainText value) (h : PlainFields fields) : PlainFields (⟨name, value⟩ :: fields) := by
  intro other hmem
  rcases List.mem_cons.mp hmem with rfl | hmem
  · exact ⟨hname, hvalue⟩
  · exact h other hmem

theorem PlainFields.nil : PlainFields [] := fun _ h => nomatch h

def lengthField (length : Nat) : HeaderLine := ⟨ascii "Content-Length", natText length⟩

private theorem lengthField_spec (length : Nat) : (lengthField length).name ≠ [] ∧ colon ∉ (lengthField length).name ∧
    PlainText (lengthField length).name ∧ iCaseEqual (lengthField length).name (ascii "content-length") = true := by
  have hname : ascii "Content-Length" ≠ [] ∧ colon ∉ ascii "Content-Length" ∧ PlainText (ascii "Content-Length") ∧
      iCaseEqual (ascii "Content-Length") (ascii "content-length") = true := by
    decide +kernel
  exact hname

def recordLines (fields : List HeaderLine) (length : Nat) : List Bytes :=
  warcVersion :: (fields ++ [lengthField length]).map headerText

variable {fields : List HeaderLine}

private theorem plainLine_headerText {header : HeaderLine} (hname : PlainText header.name)
    (hvalue : PlainText header.value) : warcFraming.PlainLine (headerText header) := by
  have hseparator : PlainText (ascii ": ") := .ofList rfl
  refine ⟨?_, hname.append (hseparator.append hvalue)⟩
  exact List.append_ne_nil_of_right_ne_nil header.name (List.cons_ne_nil colon (space :: header.value))

theorem plainLine_recordLines (h : PlainFields fields) (length : Nat) :
    ∀ line ∈ recordLines fields length, warcFraming.PlainLine line := by
  intro line hline
  rcases List.mem_cons.mp hline with rfl | hline
  · exact ⟨by decide, PlainText.ofList rfl⟩
  · obtain ⟨header, hheader, rfl⟩ := List.mem_map.mp hline
    rcases List.mem_append.mp hheader with hheader | hheader
    · obtain ⟨hname, hvalue⟩ := h header hheader
      exact plainLine_headerText (fieldNames_spec _ hname).2.2.1 hvalue
    · rw [List.mem_singleton.mp hheader]
      exact plainLine_headerText (lengthField_spec length).2.2.1 (plainText_natText length)

/-- The fields announce the length that is written into the last of them. -/
theorem blockLength_recordLines (h : PlainFields fields) (length : Nat) :
    warcBlockLength (recordLines fields length) = some length := by
  have hparsed : ((fields ++ [lengthField length]).map headerText).filterMap parseHeaderLine =
      (fields ++ [lengthField length]).map fun header => ⟨header.name, trimView header.value⟩ := by
    rw [List.filterMap_map, ← List.filterMap_eq_map]
    apply List.filterMap_congr
    intro header hheader
    rw [Function.comp_apply, Function.comp_apply]
    rcases List.mem_append.mp hheader with hheader | hheader
    · obtain ⟨hne, hcolon, _⟩ := fieldNames_spec _ (h header hheader).1
      exact parseHeaderLine_headerText hne hcolon
    · rw [List.mem_singleton.mp hheader]
      exact parseHeaderLine_headerText (lengthField_spec length).1 (lengthField_spec length).2.1
  have hothers : (fields.map fun header => HeaderLine.mk header.name (trimView header.value)).find?
      (fun header => iCaseEqual header.name (ascii "content-length")) = none := by
    rw [List.find?_eq_none]
    intro header hheader
    obtain ⟨field, hfield, rfl⟩ := List.mem_map.mp hheader
    rw [(fieldNames_spec _ (h field hfield).1).2.2.2]
    exact Bool.false_ne_true
  rw [recordLines, warcBlockLength, if_pos rfl, hparsed, findHeaderValue, List.map_append, List.find?_append, hothers,
    Option.none_or, List.map_singleton, List.find?_singleton, if_pos (lengthField_spec length).2.2.2]
  exact parseDigits_natText length

theorem warcRecord_eq (fields : List HeaderLine) (length : Nat) (block trailer : Bytes) :
    warcRecord (fields ++ [lengthField length]) block trailer =
      warcFraming.head (recordLines fields length) ++ (block ++ trailer) := by
  have hfields : ∀ headers : List HeaderLine,
      headers.flatMap headerLineText = (headers.map headerText).flatMap (· ++ crlf) := by
    intro headers
    rw [List.flatMap_map]
    exact List.flatMap_congr fun header _ => headerLineText_eq header
  have hversion : ascii "WARC/1.1\r\n" = warcVersion ++ crlf := rfl
  rw [warcRecord, hfields, hversion, Framing.head, recordLines, List.flatMap_cons]
  simp only [List.append_assoc, warcFraming]

/-- Fields of which the last tells the length of the block. -/
def Announces (fields : List HeaderLine) (length : Nat) : Prop :=
  ∃ others, PlainFields others ∧ fields = others ++ [lengthField length]

variable {length : Nat} {block : Bytes}

theorem announces_contentFields {type : Bytes} (h : PlainFields fields) (htype : PlainText type) (length : Nat) :
    Announces (fields ++ contentFields type length) length := by
  refine ⟨fields ++ [⟨ascii "Content-Type", type⟩], ?_, ?_⟩
  · exact h.append (PlainFields.cons (by decide) htype .nil)
  · rw [List.append_assoc]
    rfl

/-- With two line ends behind its block, a record is well formed. -/
theorem Announces.wellFormed (h : Announces fields block.length) :
    warcFraming.WellFormed (warcRecord fields block (ascii "\r\n\r\n")) := by
  obtain ⟨others, hplain, rfl⟩ := h
  refine ⟨⟨recordLines others block.length, block, plainLine_recordLines hplain _,
    blockLength_recordLines hplain _⟩, ?_⟩
  exact (warcRecord_eq others block.length block _).symm

/-- With one line end, it is not. -/
theorem Announces.not_wellFormed (h : Announces fields block.length) :
    ¬ warcFraming.WellFormed (warcRecord fields block (ascii "\r\n")) := by
  obtain ⟨others, hplain, rfl⟩ := h
  rw [warcRecord_eq]
  refine Framing.not_wellFormed_of_short (plainLine_recordLines hplain _) (blockLength_recordLines hplain _) ?_
  rw [List.length_append]
  exact Nat.add_lt_add_left (by decide) block.length

/-- After such a record, the reader goes on two bytes into the next. -/
theorem Announces.readRecord (h : Announces fields block.length) {rest : Bytes} (hrest : 2 ≤ rest.length) :
    ∃ record, warcFraming.readRecord (warcRecord fields block (ascii "\r\n") ++ rest) = some (record, rest.drop 2) := by
  obtain ⟨others, hplain, rfl⟩ := h
  have hends : (ascii "\r\n").length = 2 := rfl
  have htrailer : warcFraming.trailer.length = 4 := rfl
  have henough : ¬ (block ++ (ascii "\r\n" ++ rest)).length < block.length + warcFraming.trailer.length := by
    rw [List.length_append, List.length_append, hends, htrailer]
    omega
  have hdrop : (block ++ (ascii "\r\n" ++ rest)).drop (block.length + warcFraming.trailer.length) = rest.drop 2 := by
    rw [htrailer, List.drop_length_add_append]
    rfl
  refine ⟨(recordLines others block.length, (block ++ (ascii "\r\n" ++ rest)).take block.length), ?_⟩
  rw [warcRecord_eq, List.append_assoc, List.append_assoc,
    Framing.readRecord_head (plainLine_recordLines hplain _) (blockLength_recordLines hplain _), if_neg henough, hdrop]

/-- Two bytes into a record, nothing can be read. -/
theorem readRecords_inside (rest : Bytes) (rounds : Nat) :
    warcFraming.readRecords rounds ((ascii "WARC/1.1\r\n" ++ rest).drop 2) = none := by
  have hinside : (ascii "WARC/1.1\r\n" ++ rest).drop 2 = ascii "RC/1.1" ++ (warcFraming.mark ++ rest) := rfl
  have hline : warcFraming.PlainLine (ascii "RC/1.1") := ⟨by decide, PlainText.ofList rfl⟩
  have hnone : ∀ lines, warcFraming.blockLength (ascii "RC/1.1" :: lines) = none := fun _ => rfl
  rw [hinside]
  exact Framing.readRecords_none (Framing.readRecord_none hline hnone rest) (List.cons_ne_nil _ _) rounds

end Reading

section Records
variable {env : WarcEnv} {exchange : CapturedExchange} {records : List EmittedRecord}

structure SerializableResponse.PlainTexts (response : SerializableResponse) : Prop where
  responseUrl : PlainText response.responseUrl
  timestamp : PlainText response.timestamp
  pageId : PlainText response.pageId
  resourceType : ∀ type ∈ response.resourceType, PlainText type

private theorem plainFields_optional {response : SerializableResponse} (h : response.PlainTexts) :
    PlainFields response.optionalFields := by
  apply PlainFields.append
  · split
    · exact .nil
    · exact .cons (by decide) h.pageId .nil
  · cases htype : response.resourceType with
    | none => exact .nil
    | some type => exact .cons (by decide) (h.resourceType type htype) .nil

theorem announces_response {response : SerializableResponse} (h : response.PlainTexts) (env : WarcEnv)
    (drawn length : Nat) : Announces (response.responseFields env drawn length) length := by
  apply announces_contentFields
  · refine PlainFields.append ?_ (plainFields_optional h)
    exact .cons (by decide) (.ofList rfl) (.cons (by decide) h.responseUrl
      (.cons (by decide) h.timestamp (.cons (by decide) (plainText_recordId env drawn) .nil)))
  · exact .ofList rfl

theorem announces_request {response : SerializableResponse} (h : response.PlainTexts) (env : WarcEnv)
    (drawn length : Nat) : Announces (response.requestFields env drawn length) length := by
  apply announces_contentFields
  · refine PlainFields.append ?_ (plainFields_optional h)
    exact .cons (by decide) (.ofList rfl) (.cons (by decide) h.responseUrl
      (.cons (by decide) h.timestamp (.cons (by decide) (plainText_recordId env (drawn + 1))
        (.cons (by decide) (plainText_recordId env drawn) .nil))))
  · exact .ofList rfl

private theorem plainText_pageTimestamp (h : exchange.PlainTexts) : PlainText (pageTimestamp exchange) := by
  rw [pageTimestamp]
  split
  · exact h.timestamp
  · rename_i redirect redirects hredirects
    exact (h.redirects redirect (hredirects ▸ List.mem_cons_self)).2

theorem plainText_pageUrl (h : exchange.PlainTexts) : PlainText (pageUrl exchange) := by
  rw [pageUrl]
  split
  · exact h.finalUrl
  · exact h.seedUrl

theorem announces_pageInfo (h : exchange.PlainTexts) (env : WarcEnv) (drawn length : Nat) :
    Announces (pageInfoFields env drawn exchange length) length := by
  have hstart : PlainText (ascii "urn:pageinfo:") := .ofList rfl
  apply announces_contentFields
  · exact .cons (by decide) (.ofList rfl) (.cons (by decide)
      (hstart.append (plainText_pageUrl h)) (.cons (by decide) (plainText_pageTimestamp h)
        (.cons (by decide) (plainText_recordId env drawn) (.cons (by decide) h.pageId
          (.cons (by decide) (.ofList rfl) .nil)))))
  · exact .ofList rfl

theorem capturedResponses_plain (h : exchange.PlainTexts) :
    ∀ response ∈ capturedResponses exchange, response.PlainTexts := by
  have hdocument : ∀ type ∈ some (ascii "Document"), PlainText type := by
    rintro _ ⟨⟩
    exact .ofList rfl
  intro response hresponse
  rcases List.mem_append.mp hresponse with hresponse | hresponse
  · obtain ⟨redirect, hredirect, rfl⟩ := List.mem_map.mp hresponse
    obtain ⟨hurl, htimestamp⟩ := h.redirects redirect hredirect
    exact ⟨hurl, htimestamp, h.pageId, hdocument⟩
  · rcases List.mem_cons.mp hresponse with rfl | hresponse
    · exact ⟨h.finalUrl, h.timestamp, h.pageId, hdocument⟩
    · obtain ⟨resource, hresource, rfl⟩ := List.mem_map.mp hresponse
      obtain ⟨hurl, htimestamp, htype⟩ := h.resources resource hresource
      exact ⟨hurl, htimestamp, h.pageId, htype⟩

theorem mem_collected {response : SerializableResponse} :
    response ∈ collectSerializableResponses env exchange ↔ response ∈ capturedResponses exchange :=
  (env.sort_perm (capturedResponses exchange)).mem_iff

/-- Every record is the response's, the request's or the page-info record. -/
theorem emittedPairs_mem {drawn : Nat} {responses : List SerializableResponse}
    (h : emittedPairs env drawn responses = some records) {record : EmittedRecord} (hrecord : record ∈ records) :
    ∃ response ∈ responses, ∃ drawn,
      (∃ statusMessage, record = ⟨.response, response.responseRecord env drawn statusMessage⟩) ∨
        record = ⟨.request, response.requestRecord env drawn⟩ := by
  induction responses generalizing drawn records with
  | nil =>
    cases h
    cases hrecord
  | cons response responses ih =>
    simp only [emittedPairs, serializeRecordPair, Option.bind_eq_bind, Option.bind_eq_some_iff, Option.pure_def,
      Option.some.injEq] at h
    obtain ⟨pair, ⟨statusMessage, _, rfl⟩, others, hothers, rfl⟩ := h
    rcases List.mem_cons.mp hrecord with rfl | hrecord
    · exact ⟨response, List.mem_cons_self, drawn, .inl ⟨statusMessage, rfl⟩⟩
    · rcases List.mem_cons.mp hrecord with rfl | hrecord
      · exact ⟨response, List.mem_cons_self, drawn, .inr rfl⟩
      · obtain ⟨other, hother, hrest⟩ := ih hothers hrecord
        exact ⟨other, List.mem_cons_of_mem response hother, hrest⟩

theorem emittedRecords_spec (h : emittedRecords env exchange = some records) :
    ∃ pairs, emittedPairs env 0 (collectSerializableResponses env exchange) = some pairs ∧
      records = pairs ++ [⟨.pageInfo, serializePageInfoRecord env
        (2 * (collectSerializableResponses env exchange).length) exchange⟩] := by
  simp only [emittedRecords, Option.bind_eq_bind, Option.bind_eq_some_iff, Option.pure_def, Option.some.injEq] at h
  obtain ⟨pairs, hpairs, rfl⟩ := h
  exact ⟨pairs, hpairs, rfl⟩

private theorem wellFormed_iff (hplain : exchange.PlainTexts) (h : emittedRecords env exchange = some records)
    {record : EmittedRecord} (hrecord : record ∈ records) :
    (warcFraming.WellFormed record.bytes ↔ record.kind ≠ .request) ∧
      (record.kind = .request → warcFraming.WellFormed (record.bytes ++ crlf)) := by
  obtain ⟨pairs, hpairs, rfl⟩ := emittedRecords_spec h
  rcases List.mem_append.mp hrecord with hrecord | hrecord
  · obtain ⟨response, hresponse, drawn, hkind⟩ := emittedPairs_mem hpairs hrecord
    have hresponsePlain := capturedResponses_plain hplain response (mem_collected.mp hresponse)
    rcases hkind with ⟨statusMessage, rfl⟩ | rfl
    · have hannounces := announces_response hresponsePlain env drawn
        (response.httpResponseHead env statusMessage ++ response.body).length
      have hwell := hannounces.wellFormed
      rw [List.length_append] at hwell
      exact ⟨⟨fun _ => nofun, fun _ => hwell⟩, nofun⟩
    · have hannounces := announces_request hresponsePlain env drawn (response.requestPayload env).length
      refine ⟨⟨fun hwell => absurd hwell hannounces.not_wellFormed, fun hkind => absurd rfl hkind⟩, fun _ => ?_⟩
      have hlonger : response.requestRecord env drawn ++ crlf =
          warcRecord (response.requestFields env drawn (response.requestPayload env).length)
            (response.requestPayload env) (ascii "\r\n\r\n") := by
        simp only [SerializableResponse.requestRecord, warcRecord, List.append_assoc]
        rfl
      rw [hlonger]
      exact hannounces.wellFormed
  · rw [List.mem_singleton.mp hrecord]
    exact ⟨⟨fun _ => nofun, fun _ => (announces_pageInfo hplain env _ _).wellFormed⟩, nofun⟩

private theorem starts_with_version (h : emittedRecords env exchange = some records) {record : EmittedRecord}
    (hrecord : record ∈ records) : ∃ tail, record.bytes = ascii "WARC/1.1\r\n" ++ tail := by
  obtain ⟨pairs, hpairs, rfl⟩ := emittedRecords_spec h
  rcases List.mem_append.mp hrecord with hrecord | hrecord
  · obtain ⟨response, _, drawn, ⟨statusMessage, rfl⟩ | rfl⟩ := emittedPairs_mem hpairs hrecord
    · exact ⟨_, rfl⟩
    · exact ⟨_, rfl⟩
  · rw [List.mem_singleton.mp hrecord]
    exact ⟨_, rfl⟩

/-- The records are a response, its request and at least one more. -/
private theorem emittedRecords_cons (h : emittedRecords env exchange = some records) :
    ∃ response ∈ capturedResponses exchange, ∃ statusMessage next others,
      records = ⟨.response, response.responseRecord env 0 statusMessage⟩ ::
        ⟨.request, response.requestRecord env 0⟩ :: next :: others := by
  obtain ⟨pairs, hpairs, rfl⟩ := emittedRecords_spec h
  cases hcollected : collectSerializableResponses env exchange with
  | nil =>
    have hmain : makeMainDocumentResponse exchange ∈ collectSerializableResponses env exchange :=
      mem_collected.mpr (List.mem_append_right _ List.mem_cons_self)
    rw [hcollected] at hmain
    cases hmain
  | cons response responses =>
    rw [hcollected] at hpairs
    simp only [emittedPairs, serializeRecordPair, Option.bind_eq_bind, Option.bind_eq_some_iff, Option.pure_def,
      Option.some.injEq] at hpairs
    obtain ⟨pair, ⟨statusMessage, _, rfl⟩, rest, _, rfl⟩ := hpairs
    refine ⟨response, mem_collected.mp (hcollected ▸ List.mem_cons_self), statusMessage, ?_⟩
    cases rest with
    | nil => exact ⟨_, [], rfl⟩
    | cons next others => exact ⟨next, _, rfl⟩

private theorem not_readable (hplain : exchange.PlainTexts) (h : emittedRecords env exchange = some records) :
    warcFraming.readAll (records.flatMap EmittedRecord.bytes) = none := by
  obtain ⟨response, hresponse, statusMessage, next, others, rfl⟩ := emittedRecords_cons h
  obtain ⟨tail, htail⟩ := starts_with_version h (List.mem_cons_of_mem _ (List.mem_cons_of_mem _ List.mem_cons_self))
  obtain ⟨record, hrecord⟩ := (wellFormed_iff hplain h List.mem_cons_self).1.mpr nofun
  have hrest : next.bytes ++ others.flatMap EmittedRecord.bytes =
      ascii "WARC/1.1\r\n" ++ (tail ++ others.flatMap EmittedRecord.bytes) := by
    rw [htail, List.append_assoc]
  have hlong : 2 ≤ (ascii "WARC/1.1\r\n" ++ (tail ++ others.flatMap EmittedRecord.bytes)).length := by
    rw [List.length_append]
    exact Nat.le_add_right_of_le (by decide)
  have hannounces := announces_request (capturedResponses_plain hplain response hresponse) env 0
    (response.requestPayload env).length
  obtain ⟨request, hrequest⟩ := hannounces.readRecord hlong
  have hstop := Framing.readRecords_none_of_rest hrequest (List.cons_ne_nil _ _) (readRecords_inside _)
  have hfirst := Framing.readRecord_letters record
    (response.requestRecord env 0 ++ (ascii "WARC/1.1\r\n" ++ (tail ++ others.flatMap EmittedRecord.bytes)))
  have hne := List.ne_nil_of_length_pos (Framing.letters_pos record)
  rw [List.flatMap_cons, List.flatMap_cons, List.flatMap_cons, hrest, ← hrecord]
  exact Framing.readRecords_none_of_rest hfirst (List.append_ne_nil_of_left_ne_nil hne _) hstop _

/-- With the line end that the request records lack, there is nothing a reader cannot read. -/
theorem readable_with_line_end (hplain : exchange.PlainTexts) (h : emittedRecords env exchange = some records) :
    ∃ read, warcFraming.readAll (records.flatMap fun record =>
        if record.kind = .request then record.bytes ++ crlf else record.bytes) = some read ∧
      read.length = records.length := by
  have hwell : ∀ text ∈ records.map fun record => if record.kind = .request then record.bytes ++ crlf else record.bytes,
      warcFraming.WellFormed text := by
    intro text htext
    obtain ⟨record, hrecord, rfl⟩ := List.mem_map.mp htext
    obtain ⟨hwhole, hcompleted⟩ := wellFormed_iff hplain h hrecord
    by_cases hkind : record.kind = .request
    · rw [if_pos hkind]
      exact hcompleted hkind
    · rw [if_neg hkind]
      exact hwhole.mpr hkind
  obtain ⟨read, hread, hlength⟩ := Framing.readAll_wellFormed hwell
  rw [List.length_map] at hlength
  exact ⟨read, by rw [List.flatMap_def, hread], hlength⟩

/-- For every capture without line ends in its texts, the response and page-info records are well formed, the request
records, of which there is at least one, lack one line end, and a reader that goes by the announced lengths cannot
read the records. -/
theorem warc_framing_fails (env : WarcEnv) {exchange : CapturedExchange} (hplain : exchange.PlainTexts)
    {records : List EmittedRecord} (h : emittedRecords env exchange = some records) :
    (∀ record ∈ records, (warcFraming.WellFormed record.bytes ↔ record.kind ≠ .request) ∧
      (record.kind = .request → warcFraming.WellFormed (record.bytes ++ crlf))) ∧
    (∃ record ∈ records, ¬ warcFraming.WellFormed record.bytes) ∧
    warcFraming.readAll (records.flatMap EmittedRecord.bytes) = none := by
  refine ⟨fun record hrecord => wellFormed_iff hplain h hrecord, ?_, not_readable hplain h⟩
  obtain ⟨response, _, statusMessage, next, others, hrecords⟩ := emittedRecords_cons h
  have hmem : (⟨.request, response.requestRecord env 0⟩ : EmittedRecord) ∈ records := by
    rw [hrecords]
    exact List.mem_cons_of_mem _ List.mem_cons_self
  exact ⟨_, hmem, fun hwell => (wellFormed_iff hplain h hmem).1.mp hwell rfl⟩

end Records

/-- Libraries that compress nothing and know no URLs. -/
def plainWarcEnv : WarcEnv where
  una := asciiUna
  urlFromText _ := none
  statusCodeString _ := some (ascii "OK")
  iterate headers := headers.entries.map fun entry => (entry.1, entry.2)
  iterate_perm _ := List.Perm.refl _
  sort responses := responses.mergeSort fun left right => left.timestamp ≤ right.timestamp
  sort_perm responses := List.mergeSort_perm responses _
  sort_sorted responses := by
    have htrans : ∀ a b c : SerializableResponse, decide (a.timestamp ≤ b.timestamp) = true →
        decide (b.timestamp ≤ c.timestamp) = true → decide (a.timestamp ≤ c.timestamp) = true := by
      intro a b c hab hbc
      exact decide_eq_true (le_trans (of_decide_eq_true hab) (of_decide_eq_true hbc))
    have htotal : ∀ a b : SerializableResponse,
        (decide (a.timestamp ≤ b.timestamp) || decide (b.timestamp ≤ a.timestamp)) = true := by
      intro a b
      rcases le_total a.timestamp b.timestamp with hle | hle
      · rw [decide_eq_true hle, Bool.true_or]
      · rw [decide_eq_true hle, Bool.or_true]
    exact (List.pairwise_mergeSort htrans htotal responses).imp fun h => of_decide_eq_true h
  generateBoostUuid drawn := Storage.smallUuid (Fin.ofNat 256 drawn)
  jsonToString _ := ascii "\x7b\x7d"
  gzipCompressMember body := .ok (31 :: body)
  sha := .plain
  utcTimestring timestamp := some timestamp

/-- The capture of a page with an empty body. -/
def emptyPage : CapturedExchange where
  seedUrl := ascii "https://a/"
  pageId := ascii "p"
  finalUrl := ascii "https://a/"
  statusCode := 200
  statusMessage := ascii "OK"
  headers := ∅
  body := []
  timestamp := ascii "2024-01-01T00:00:00Z"
  redirectChain := []
  mainDocumentRedirects := []
  resources := []
  title := none

theorem emptyPage_plain : emptyPage.PlainTexts :=
  ⟨.ofList rfl, .ofList rfl, .ofList rfl, .ofList rfl, nofun, nofun⟩

theorem emptyPage_records : ∃ records, emittedRecords plainWarcEnv emptyPage = some records := by
  have hcollected : collectSerializableResponses plainWarcEnv emptyPage = [makeMainDocumentResponse emptyPage] :=
    List.mergeSort_singleton _
  rw [emittedRecords, hcollected]
  exact ⟨_, rfl⟩

theorem warc_framing_fails_empty :
    ∃ records, emittedRecords plainWarcEnv emptyPage = some records ∧
      warcFraming.readAll (records.flatMap EmittedRecord.bytes) = none := by
  obtain ⟨records, hrecords⟩ := emptyPage_records
  exact ⟨records, hrecords, (warc_framing_fails plainWarcEnv emptyPage_plain hrecords).2.2⟩

/-- The request record of the empty page is not well formed, and its records cannot be read. -/
theorem request_record_malformed :
    emptyPage.PlainTexts ∧ ∃ records, emittedRecords plainWarcEnv emptyPage = some records ∧
      (∃ record ∈ records, record.kind = .request ∧ ¬ warcFraming.WellFormed record.bytes) ∧
      warcFraming.readAll (records.flatMap EmittedRecord.bytes) = none := by
  obtain ⟨records, hrecords⟩ := emptyPage_records
  obtain ⟨response, _, statusMessage, next, others, hlist⟩ := emittedRecords_cons hrecords
  have hmem : (⟨.request, response.requestRecord plainWarcEnv 0⟩ : EmittedRecord) ∈ records := by
    rw [hlist]
    exact List.mem_cons_of_mem _ List.mem_cons_self
  refine ⟨emptyPage_plain, records, hrecords, ⟨_, hmem, rfl, ?_⟩, not_readable emptyPage_plain hrecords⟩
  intro hwell
  exact (wellFormed_iff emptyPage_plain hrecords hmem).1.mp hwell rfl

end Webshot.Crawler
