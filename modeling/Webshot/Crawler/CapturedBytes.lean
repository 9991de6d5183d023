import Webshot.Crawler.CaptureErrors
import Webshot.Crawler.CdpSteps
import Webshot.Foundation.JsonLiterals
import Webshot.Foundation.TransitionRuns

/-! What is left of a response of the browser when it reaches the caller of `SendRaw`. -/
namespace Webshot.Crawler
open Text Foundation.JsonLiterals Foundation.TransitionRuns

mutual
/-- The strings in a value and the names of its members, in their order. -/
def Json.literals : Json → List Bytes
  | .string s => [s]
  | .array items => literalsOfItems items
  | .object members => literalsOfMembers members
  | .null => []
  | .bool _ => []
  | .number _ => []

def literalsOfItems : List Json → List Bytes
  | [] => []
  | item :: items => item.literals ++ literalsOfItems items

def literalsOfMembers : List (Bytes × Json) → List Bytes
  | [] => []
  | member :: members => member.1 :: (member.2.literals ++ literalsOfMembers members)
end

/-- The JSON parser of userver. A text is read token by token; the value shows each of its literals, and what is not
ASCII in a literal stays so when it is decoded. -/
structure JsonReader where
  decodeLiteral : Bytes → Option Bytes
  build : List Token → Option Json
  decode_ascii : ∀ raw s, decodeLiteral raw = some s → IsAscii s → IsAscii raw
  build_literals : ∀ tokens value, build tokens = some value → value.literals = literals tokens

namespace JsonReader
variable (reader : JsonReader)

def decodeTokens : List Token → Option (List Token)
  | [] => some []
  | .mark c :: tokens => (decodeTokens tokens).map (.mark c :: ·)
  | .literal raw :: tokens => (reader.decodeLiteral raw).bind fun s => (decodeTokens tokens).map (.literal s :: ·)

def parse (text : Bytes) : Option Json := ((scan text).bind reader.decodeTokens).bind reader.build

theorem decodeTokens_literals {tokens decoded : List Token} (h : reader.decodeTokens tokens = some decoded) :
    List.Forall₂ (fun raw s => reader.decodeLiteral raw = some s) (literals tokens) (literals decoded) := by
  induction tokens generalizing decoded with
  | nil =>
    cases h
    exact .nil
  | cons token tokens ih =>
    cases token with
    | mark c =>
      obtain ⟨rest, hrest, rfl⟩ := Option.map_eq_some_iff.mp h
      rw [literals_mark, literals_mark]
      exact ih hrest
    | literal raw =>
      obtain ⟨s, hs, hmap⟩ := Option.bind_eq_some_iff.mp h
      obtain ⟨rest, hrest, rfl⟩ := Option.map_eq_some_iff.mp hmap
      exact .cons hs (ih hrest)

theorem decodeTokens_map {g : Bytes → Bytes} {tokens : List Token}
    (h : ∀ raw ∈ literals tokens, reader.decodeLiteral (g raw) = reader.decodeLiteral raw) :
    reader.decodeTokens (tokens.map (Token.map g)) = reader.decodeTokens tokens := by
  induction tokens with
  | nil => rfl
  | cons token tokens ih =>
    cases token with
    | mark c => exact congrArg (Option.map _) (ih h)
    | literal raw =>
      rw [literals_literal, List.forall_mem_cons] at h
      rw [List.map_cons, Token.map, decodeTokens, decodeTokens, h.1, ih h.2]

/-- The value shows what its literals read as. -/
theorem parse_literals {text : Bytes} {value : Json} (h : reader.parse text = some value) :
    ∃ tokens, scan text = some tokens ∧
      List.Forall₂ (fun raw s => reader.decodeLiteral raw = some s) (literals tokens) value.literals := by
  obtain ⟨decoded, hdecoded, hbuild⟩ := Option.bind_eq_some_iff.mp h
  obtain ⟨tokens, htokens, hdecode⟩ := Option.bind_eq_some_iff.mp hdecoded
  rw [reader.build_literals decoded value hbuild]
  exact ⟨tokens, htokens, reader.decodeTokens_literals hdecode⟩

end JsonReader

/-- What the calls of uni-algo do around quotes and backslashes: UTF-8 can be cut at an ASCII character, nothing is merged
into what stands before one, a quote or a backslash merges with nothing, and neither of them arises from something else. -/
structure LiteralLaws (una : UniAlgo) : Prop where
  valid_split : ∀ a c b, c.val < 128 → una.isValidUtf8 (a ++ c :: b) = true →
    una.isValidUtf8 a = true ∧ una.isValidUtf8 (c :: b) = true ∧ una.isValidUtf8 b = true
  nfc_append : ∀ a c b, c.val < 128 → una.isValidUtf8 a = true → una.isValidUtf8 (c :: b) = true →
    una.toNfcUtf8 (a ++ c :: b) = una.toNfcUtf8 a ++ una.toNfcUtf8 (c :: b)
  nfc_mark : ∀ c b, c = quote ∨ c = backslash → una.isValidUtf8 b = true →
    una.toNfcUtf8 (c :: b) = c :: una.toNfcUtf8 b
  nfc_mem : ∀ a c, c = quote ∨ c = backslash → una.isValidUtf8 a = true → c ∈ una.toNfcUtf8 a → c ∈ a
  nfc_nil : ∀ a, una.isValidUtf8 a = true → (una.toNfcUtf8 a = [] ↔ a = [])

theorem LiteralLaws.keepsMarks {una : UniAlgo} (laws : LiteralLaws una) :
    KeepsMarks (una.isValidUtf8 · = true) una.toNfcUtf8 where
  valid_split := laws.valid_split
  ascii c hc := una.ascii_nfc [c] fun x hx => by
    rw [List.mem_singleton.mp hx]
    exact hc
  append := laws.nfc_append
  mark := laws.nfc_mark
  mem := laws.nfc_mem
  nil := laws.nfc_nil

/-- The literals of a text as they are spelled there. -/
def spelledLiterals (text : Bytes) : List Bytes := (scan text).elim [] literals

/-- Each literal of the text reads the same after it was normalized. -/
def JsonReader.LiteralsKept (reader : JsonReader) (una : UniAlgo) (text : Bytes) : Prop :=
  ∀ raw ∈ spelledLiterals text, reader.decodeLiteral (una.toNfcUtf8 raw) = reader.decodeLiteral raw

/-- The value that `HandleMessage` takes apart. -/
def CdpParsers.messageValue (p : CdpParsers) (payload : Bytes) : Option Json := (fromBytes p.una payload).bind p.parseJson

/-- The parsers are those of the reader, on a uni-algo that keeps to the laws. -/
structure CdpParsers.Uses (p : CdpParsers) (reader : JsonReader) : Prop where
  laws : LiteralLaws p.una
  parse : ∀ text, p.parseJson text = reader.parse text

section Values
variable {p : CdpParsers} {reader : JsonReader} {payload : Bytes} {value : Json}

/-- A message that was taken for a response, and what it says. -/
theorem decodeMessage_response {id : Int} {error result : Option Json}
    (h : p.decodeMessage payload = .response id error result) :
    ∃ value x, p.messageValue payload = some value ∧ value.member (ascii "id") = some (some x) ∧ x.asInt64 = some id ∧
      error = (value.member (ascii "error")).join ∧ result = (value.member (ascii "result")).join := by
  rw [CdpParsers.decodeMessage] at h
  split at h
  · cases h
  · rename_i text htext
    split at h
    · cases h
    · rename_i value hvalue
      have hmessage : p.messageValue payload = some value := by
        rw [CdpParsers.messageValue, htext, Option.bind_some, hvalue]
      rw [CdpParsers.decodeValue] at h
      split at h
      · cases h
      · rename_i x hx
        split at h
        · cases h
        · rename_i int hint
          cases h
          exact ⟨value, x, hmessage, hx, hint, rfl, rfl⟩
      · -- Messages without an id are no responses.
        split at h
        · cases h
        · cases h
        · split at h
          · cases h
          · cases h
          · rename_i message _
            rw [CdpParsers.decodeEvent] at h
            split at h
            · cases h
            · split at h
              · cases h
              · split at h
                · cases h
                · cases h

theorem decodeMessage_of_value {id : Int} {x : Json} (hvalue : p.messageValue payload = some value)
    (hx : value.member (ascii "id") = some (some x)) (hid : x.asInt64 = some id) :
    p.decodeMessage payload =
      .response id (value.member (ascii "error")).join (value.member (ascii "result")).join := by
  obtain ⟨text, htext, hparse⟩ := Option.bind_eq_some_iff.mp hvalue
  simp only [CdpParsers.decodeMessage, CdpParsers.decodeValue, htext, hparse, hx, hid]

variable (huses : p.Uses reader) (hvalid : p.una.isValidUtf8 payload = true)
include huses hvalid

theorem messageValue_eq : p.messageValue payload = reader.parse (p.una.toNfcUtf8 payload) := by
  rw [CdpParsers.messageValue, fromBytes, if_pos hvalid, Option.bind_some, huses.parse]

/-- Literals that read the same make the same value. -/
theorem messageValue_of_kept (hvalue : p.parseJson payload = some value) (hkept : reader.LiteralsKept p.una payload) :
    p.messageValue payload = some value := by
  rw [huses.parse] at hvalue
  obtain ⟨tokens, htokens, _⟩ := reader.parse_literals hvalue
  rw [JsonReader.LiteralsKept, spelledLiterals, htokens, Option.elim_some] at hkept
  rw [messageValue_eq huses hvalid, ← hvalue, JsonReader.parse, JsonReader.parse, htokens,
    huses.laws.keepsMarks.scan_eq htokens hvalid, Option.bind_some, Option.bind_some, reader.decodeTokens_map hkept]

/-- The values of a payload and of what is made of it show how each literal reads before and after. -/
theorem literals_before_and_after {value' : Json} (hvalue : p.parseJson payload = some value)
    (hvalue' : p.messageValue payload = some value') :
    List.Forall₂ (fun raw s => reader.decodeLiteral raw = some s) (spelledLiterals payload) value.literals ∧
    List.Forall₂ (fun raw s => reader.decodeLiteral (p.una.toNfcUtf8 raw) = some s) (spelledLiterals payload)
      value'.literals := by
  rw [huses.parse] at hvalue
  rw [messageValue_eq huses hvalid] at hvalue'
  obtain ⟨tokens, htokens, hbefore⟩ := reader.parse_literals hvalue
  obtain ⟨tokens', htokens', hafter⟩ := reader.parse_literals hvalue'
  rw [huses.laws.keepsMarks.scan_eq htokens hvalid] at htokens'
  cases htokens'
  rw [literals_map, List.forall₂_map_left_iff] at hafter
  rw [spelledLiterals, htokens, Option.elim_some]
  exact ⟨hbefore, hafter⟩

end Values

/-- A reply as the browser writes it: the id and the result, and behind them at most ASCII, such as the id of a session. -/
def IsReply (value : Json) (id : Int) (result : Json) : Prop :=
  ∃ more, value = .object ((ascii "id", .number (some id)) :: (ascii "result", result) :: more) ∧
    more.lookup (ascii "error") = none ∧ ∀ s ∈ literalsOfMembers more, IsAscii s

theorem replyNames_ascii : IsAscii (ascii "id") ∧ IsAscii (ascii "result") ∧ IsAscii (ascii "body") ∧
    IsAscii (ascii "base64Encoded") := ⟨.ofList rfl, .ofList rfl, .ofList rfl, .ofList rfl⟩

theorem replyNames_apart : (ascii "result" == ascii "id") = false ∧ (ascii "error" == ascii "id") = false ∧
    (ascii "error" == ascii "result") = false := by decide

section Replies
variable {p : CdpParsers} {reader : JsonReader} {payload : Bytes} {value : Json}

theorem first_member {members : List (Bytes × Json)} {key : Bytes} {x : Json} {later : List Bytes}
    (h : literalsOfMembers members = key :: later) (hlookup : members.lookup key = some x) :
    ∃ rest, members = (key, x) :: rest ∧ later = x.literals ++ literalsOfMembers rest := by
  cases members with
  | nil => cases h
  | cons member rest =>
    obtain ⟨name, y⟩ := member
    rw [literalsOfMembers, List.cons.injEq] at h
    obtain ⟨rfl, rfl⟩ := h
    rw [List.lookup_cons_self] at hlookup
    cases hlookup
    exact ⟨rest, rfl, rfl⟩

private theorem exists_read {P : Bytes → Bytes → Prop} {raws texts : List Bytes} (h : List.Forall₂ P raws texts) :
    ∀ raw ∈ raws, ∃ s ∈ texts, P raw s := by
  induction h with
  | nil => exact fun raw hraw => absurd hraw List.not_mem_nil
  | cons hp _ ih =>
    intro raw hraw
    rcases List.mem_cons.mp hraw with rfl | hraw
    · exact ⟨_, List.mem_cons_self, hp⟩
    · obtain ⟨s, hs, hp⟩ := ih raw hraw
      exact ⟨s, List.mem_cons_of_mem _ hs, hp⟩

/-- Of two readings that begin alike, the first is the second one's up to there. -/
private theorem compared {P Q : Bytes → Bytes → Prop} {raws a b b' : List Bytes} (h : List.Forall₂ P raws (a ++ b))
    (h' : List.Forall₂ Q raws (a ++ b')) : ∀ raw ∈ raws, (∃ s, P raw s ∧ Q raw s) ∨ ∃ s ∈ b, P raw s := by
  induction a generalizing raws with
  | nil =>
    exact fun raw hraw => Or.inr (exists_read h raw hraw)
  | cons s a ih =>
    cases h with
    | cons hp hrest =>
      cases h' with
      | cons hq hrest' =>
        intro raw hraw
        rcases List.mem_cons.mp hraw with rfl | hraw
        · exact Or.inl ⟨s, hp, hq⟩
        · exact ih hrest hrest' raw hraw

theorem JsonReader.ascii_kept (reader : JsonReader) (una : UniAlgo) {raw s : Bytes} (h : reader.decodeLiteral raw = some s)
    (hs : IsAscii s) : una.toNfcUtf8 raw = raw := una.ascii_nfc raw (reader.decode_ascii raw s h hs)

/-- An ASCII literal in front reads the same, and both readings go on behind it. -/
theorem JsonReader.head_kept (reader : JsonReader) (una : UniAlgo) {spelled before after : List Bytes} {key : Bytes}
    (hkey : IsAscii key) (hbefore : List.Forall₂ (fun raw s => reader.decodeLiteral raw = some s) spelled (key :: before))
    (hafter : List.Forall₂ (fun raw s => reader.decodeLiteral (una.toNfcUtf8 raw) = some s) spelled after) :
    ∃ raw spelled' after', spelled = raw :: spelled' ∧ after = key :: after' ∧ una.toNfcUtf8 raw = raw ∧
      List.Forall₂ (fun raw s => reader.decodeLiteral raw = some s) spelled' before ∧
      List.Forall₂ (fun raw s => reader.decodeLiteral (una.toNfcUtf8 raw) = some s) spelled' after' := by
  cases hbefore with
  | @cons raw _ spelled' _ hraw hbefore =>
    cases hafter with
    | @cons _ text _ after' htext hafter =>
      have hkept := reader.ascii_kept una hraw hkey
      rw [hkept, hraw, Option.some.injEq] at htext
      subst htext
      exact ⟨raw, spelled', after', rfl, rfl, hkept, hbefore, hafter⟩

variable (huses : p.Uses reader) (hvalue : p.parseJson payload = some value)
include huses hvalue

/-- A text of which only ASCII is read is kept. -/
theorem kept_of_ascii (hascii : ∀ s ∈ value.literals, IsAscii s) : reader.LiteralsKept p.una payload := by
  rw [huses.parse] at hvalue
  obtain ⟨tokens, htokens, hread⟩ := reader.parse_literals hvalue
  rw [JsonReader.LiteralsKept, spelledLiterals, htokens, Option.elim_some]
  intro raw hraw
  obtain ⟨s, hs, hdecode⟩ := exists_read hread raw hraw
  rw [reader.ascii_kept p.una hdecode (hascii s hs)]

/-- Only a payload whose literals are kept gives its own result. -/
theorem kept_of_result (hvalid : p.una.isValidUtf8 payload = true) {id id' : Int} {result : Json}
    {error : Option Json} (hreply : IsReply value id result)
    (h : p.decodeMessage payload = .response id' error (some result)) : reader.LiteralsKept p.una payload := by
  obtain ⟨more, rfl, -, hmore⟩ := hreply
  obtain ⟨value', x, hvalue', hx, hint, -, hresult⟩ := decodeMessage_response h
  obtain ⟨hbefore, hafter⟩ := literals_before_and_after huses hvalid hvalue hvalue'
  rw [JsonReader.LiteralsKept]
  -- The names of the first two members are ASCII, so they are found again in the other value.
  rw [Json.literals, literalsOfMembers, literalsOfMembers, Json.literals, List.nil_append] at hbefore
  obtain ⟨idRaw, spelled, after, hspelled, hliterals, hidKept, hbehindId, hbehindId'⟩ :=
    reader.head_kept p.una replyNames_ascii.1 hbefore hafter
  obtain ⟨nameRaw, spelled', after', rfl, rfl, hnameKept, hbehind, hbehind'⟩ :=
    reader.head_kept p.una replyNames_ascii.2.1 hbehindId hbehindId'
  cases value' with
  | object members =>
    simp only [Json.member, Option.some.injEq, Option.join_some] at hx hresult
    rw [Json.literals] at hliterals
    obtain ⟨rest, rfl, hrest⟩ := first_member hliterals hx
    cases x with
    | number n =>
      rw [Json.literals, List.nil_append] at hrest
      rw [List.lookup_cons, replyNames_apart.1] at hresult
      obtain ⟨last, rfl, hlast⟩ := first_member hrest.symm hresult.symm
      rw [hlast] at hbehind'
      intro raw hraw
      rw [hspelled, List.mem_cons, List.mem_cons] at hraw
      rcases hraw with rfl | rfl | hraw
      · rw [hidKept]
      · rw [hnameKept]
      · rcases compared hbehind hbehind' raw hraw with ⟨s, hs, hs'⟩ | ⟨s, hs, hread⟩
        · rw [hs, hs']
        · rw [reader.ascii_kept p.una hread (hmore s hs)]
    | _ => cases hint
  | _ => cases hx

end Replies

/-- The command of call `c` is pending under the id, and the reader waits for the next message. -/
structure System.Awaits (s : System) (c : Nat) (id : Int) : Prop where
  running : s.aborted = false
  reader : s.reader = .receiving
  request : ∃ request, s.shared.pendingRequests.lookup id = some request ∧ request.ignoreResponse = false
  waiter : s.shared.pendingWaiters.lookup id = some c
  fresh : s.waiters c = {}

/-- After the message was handled, the outcome is what `SendRaw` returns for call `c`. -/
def System.Hands (p : CdpParsers) (s : System) (c : Nat) (payload : Bytes) (outcome : Except CdpError (Option Json)) : Prop :=
  ∃ t, execute (step p) s [.receive payload, .completeWaiter] = some t ∧ (t.waiters c).done = true ∧
    (t.waiters c).outcome = some outcome

section Handing
variable {p : CdpParsers} {s : System} {c : Nat} {payload : Bytes}

theorem System.Awaits.hands {id : Int} {result : Option Json} (h : s.Awaits c id)
    (hmessage : p.decodeMessage payload = .response id none result) : s.Hands p c payload (.ok result) := by
  obtain ⟨request, hrequest, hignore⟩ := h.request
  have htaken : takeResponse p s.shared id none result = .claimed (s.shared.forget id) c (.ok result) := by
    simp only [takeResponse, hrequest, claimWaiter, hignore, h.waiter, Bool.false_eq_true, if_false]
  have hreceive : step p s (.receive payload) =
      some { s.note id result with shared := s.shared.forget id, reader := .completing c id (.ok result) } := by
    simp only [step, h.running, h.reader, System.handleMessage, hmessage, htaken, System.handleResponse, Bool.false_eq_true,
      if_false]
  let received := { s.note id result with shared := s.shared.forget id, reader := .completing c id (.ok result) }
  have hcomplete : step p received .completeWaiter = some { received.complete c (.ok result) with reader := .receiving } := by
    have hrunning : received.aborted = false := h.running
    rw [step, hrunning]
    rfl
  refine ⟨{ received.complete c (.ok result) with reader := .receiving }, ?_, ?_⟩
  · rw [execute, hreceive, Option.bind_some, execute, hcomplete]
    rfl
  · simp [received, System.note, System.complete, h.fresh, PendingCommandWaiter.complete, PendingCommandWaiter.outcome]

/-- The reader is about to complete a waiter only after a response. -/
theorem handleMessage_completing {waiter : Nat} {id : Int} {reply : Except CdpError (Option Json)} (hreader : s.reader = .receiving)
    (h : (s.handleMessage p payload).reader = .completing waiter id reply) :
    (s.handleMessage p payload).waiters = s.waiters ∧ ∃ error result, p.decodeMessage payload = .response id error result ∧
      ∀ r, reply = .ok r → r = result := by
  rw [System.handleMessage] at h ⊢
  split at h
  · cases h
  · cases h
  · rename_i id' error result hmessage
    have hspec := takeResponse_spec p s.shared id' error result
    simp only [hmessage]
    revert h hspec
    cases takeResponse p s.shared id' error result with
    | claimed state waiter' reply' =>
      intro h hspec
      cases h
      exact ⟨rfl, error, result, rfl, hspec.2.2⟩
    | consumed state =>
      intro h
      rw [System.handleResponse, System.note, hreader] at h
      cases h
    | dropped =>
      intro h
      rw [System.handleResponse, System.note, hreader] at h
      cases h
    | aborted =>
      intro h
      rw [System.handleResponse, System.abort, System.note, hreader] at h
      cases h
    | _ =>
      intro h
      cases h
  · split at h
    · rw [hreader] at h
      cases h
    · cases h

/-- Only a response hands a result to a call that awaits one. -/
theorem System.Awaits.response {id : Int} {result : Option Json} (h : s.Awaits c id)
    (hhands : s.Hands p c payload (.ok result)) : ∃ id' error, p.decodeMessage payload = .response id' error result := by
  obtain ⟨t, hexec, hdone, houtcome⟩ := hhands
  obtain ⟨received, hreceive, hrest⟩ := Option.bind_eq_some_iff.mp hexec
  obtain ⟨completed, hcomplete, hlast⟩ := Option.bind_eq_some_iff.mp hrest
  cases hlast
  simp only [step, h.running, h.reader, Bool.false_eq_true, if_false, Option.some.injEq] at hreceive
  subst hreceive
  rw [step] at hcomplete
  split at hcomplete
  · cases hcomplete
  · simp only at hcomplete
    split at hcomplete
    · rename_i waiter id' reply hreader
      cases hcomplete
      obtain ⟨hwaiters, error, result', hmessage, hreply⟩ := handleMessage_completing h.reader hreader
      refine ⟨id', error, ?_⟩
      rw [hmessage]
      simp only [System.complete, hwaiters] at hdone houtcome
      by_cases hc : c = waiter
      · subst hc
        rw [Function.update_self, h.fresh] at houtcome
        cases reply with
        | error e => cases houtcome
        | ok r =>
          cases houtcome
          rw [hreply result rfl]
      · rw [Function.update_of_ne hc, h.fresh] at hdone
        cases hdone
    · cases hcomplete

end Handing

/-- The generated parser of `NetworkGetResponseBodyResult`: both members, and no other. -/
def asBodyReply : Json → Option BodyReply
  | .object members =>
    if members.all fun member => member.1 = ascii "body" || member.1 = ascii "base64Encoded" then
      match members.lookup (ascii "body"), members.lookup (ascii "base64Encoded") with
      | some (.string body), some (.bool base64Encoded) => some ⟨body, base64Encoded⟩
      | _, _ => none
    else none
  | _ => none

/-- The body that `ReadBody` and `ReadResources` take from what `SendRaw` returned. -/
def capturedBody (base64Decode : Bytes → Option Bytes) : Except CdpError (Option Json) → Option Bytes
  | .ok (some result) => (asBodyReply result).bind (decodeCdpBody base64Decode)
  | _ => none

/-- A body as the browser reports it. -/
def BodyReply.toJson (reply : BodyReply) : Json :=
  .object [(ascii "body", .string reply.body), (ascii "base64Encoded", .bool reply.base64Encoded)]

theorem asBodyReply_toJson (reply : BodyReply) : asBodyReply reply.toJson = some reply := by
  have hnames : (ascii "base64Encoded" == ascii "body") = false := rfl
  simp [asBodyReply, BodyReply.toJson, List.lookup_cons, hnames]

theorem IsReply.literals_ascii {value : Json} {id : Int} {reply : BodyReply} (h : IsReply value id reply.toJson)
    (hbody : IsAscii reply.body) : ∀ text ∈ value.literals, IsAscii text := by
  obtain ⟨more, rfl, -, hmore⟩ := h
  intro text htext
  simp only [BodyReply.toJson, Json.literals, literalsOfMembers, List.mem_cons, List.mem_append, List.not_mem_nil, or_false,
    false_or] at htext
  obtain ⟨hid, hresult, hname, hencoded⟩ := replyNames_ascii
  rcases htext with rfl | rfl | (rfl | rfl | rfl) | hmem
  · exact hid
  · exact hresult
  · exact hname
  · exact hbody
  · exact hencoded
  · exact hmore text hmem

section Bytes
variable {p : CdpParsers} {reader : JsonReader}

/-- A payload is read as it was sent if each of its literals reads the same after normalization: then a pending call gets the
result that the payload's own bytes say. Of the replies that a browser writes, exactly those are read as they were sent.
Bodies reported so reach the archive, and ASCII ones always do. -/
theorem payload_unaltered_iff (huses : p.Uses reader) {payload : Bytes} {value : Json}
    (hvalid : p.una.isValidUtf8 payload = true) (hvalue : p.parseJson payload = some value) {s : System} {c : Nat} {id : Int}
    (hs : s.Awaits c id) :
    (reader.LiteralsKept p.una payload → ∀ x, value.member (ascii "id") = some (some x) → x.asInt64 = some id →
      (value.member (ascii "error")).join = none →
      s.Hands p c payload (.ok (value.member (ascii "result")).join)) ∧
    (∀ result, IsReply value id result →
      (s.Hands p c payload (.ok (some result)) ↔ reader.LiteralsKept p.una payload)) ∧
    (∀ reply : BodyReply, IsReply value id reply.toJson →
      reader.LiteralsKept p.una payload ∨ IsAscii reply.body → ∃ outcome, s.Hands p c payload outcome ∧
        ∀ base64Decode, capturedBody base64Decode outcome = decodeCdpBody base64Decode reply) := by
  have hreturned : reader.LiteralsKept p.una payload → ∀ x, value.member (ascii "id") = some (some x) →
      x.asInt64 = some id → (value.member (ascii "error")).join = none →
      s.Hands p c payload (.ok (value.member (ascii "result")).join) := by
    intro hkept x hx hid herror
    have hmessage := decodeMessage_of_value (messageValue_of_kept huses hvalid hvalue hkept) hx hid
    rw [herror] at hmessage
    exact hs.hands hmessage
  have hreplied : ∀ result, IsReply value id result → reader.LiteralsKept p.una payload →
      s.Hands p c payload (.ok (some result)) := by
    rintro result ⟨more, rfl, herror, -⟩ hkept
    have hmember : ∀ key, Json.member (.object ((ascii "id", .number (some id)) :: (ascii "result", result) :: more)) key =
        some (((ascii "id", .number (some id)) :: (ascii "result", result) :: more).lookup key) := fun _ => rfl
    have hhands := hreturned hkept (.number (some id)) (by rw [hmember, List.lookup_cons_self]) rfl
      (by rw [hmember, List.lookup_cons, replyNames_apart.2.1, List.lookup_cons, replyNames_apart.2.2, herror]; rfl)
    rw [hmember, List.lookup_cons, replyNames_apart.1, List.lookup_cons_self] at hhands
    exact hhands
  refine ⟨hreturned, fun result hreply => ⟨fun hhands => ?_, hreplied result hreply⟩, fun reply hreply hkept => ?_⟩
  · obtain ⟨id', error, hmessage⟩ := hs.response hhands
    exact kept_of_result huses hvalue hvalid hreply hmessage
  · have hliterals : reader.LiteralsKept p.una payload :=
      hkept.elim (fun h => h) fun hascii => kept_of_ascii huses hvalue (hreply.literals_ascii hascii)
    refine ⟨_, hreplied _ hreply hliterals, fun base64Decode => ?_⟩
    rw [capturedBody, asBodyReply_toJson, Option.bind_some]

end Bytes

section Samples

/-- One letter of NFC: an e with an acute accent behind it becomes one character. -/
def composeAcute : Bytes → Bytes
  | [] => []
  | [a] => [a]
  | [a, b] => [a, b]
  | a :: b :: c :: rest =>
    if a = 101 ∧ b = 204 ∧ c = 129 then 195 :: 169 :: composeAcute rest else a :: composeAcute (b :: c :: rest)

theorem composeAcute_hit (rest : Bytes) : composeAcute (101 :: 204 :: 129 :: rest) = 195 :: 169 :: composeAcute rest := by
  rw [composeAcute, if_pos ⟨rfl, rfl, rfl⟩]

theorem composeAcute_skip {a : Byte} {rest : Bytes} (h : a = 101 → ∀ later, rest ≠ 204 :: 129 :: later) :
    composeAcute (a :: rest) = a :: composeAcute rest := by
  match rest with
  | [] => rfl
  | [b] => rfl
  | b :: c :: rest =>
    rw [composeAcute, if_neg]
    rintro ⟨ha, rfl, rfl⟩
    exact h ha rest rfl

/-- A text is empty, begins with the letter, or begins with something else. -/
theorem composeAcute_cases (text : Bytes) :
    text = [] ∨ (∃ rest, text = 101 :: 204 :: 129 :: rest) ∨
      ∃ a rest, text = a :: rest ∧ (a = 101 → ∀ later, rest ≠ 204 :: 129 :: later) := by
  cases text with
  | nil => exact Or.inl rfl
  | cons a rest =>
    by_cases hit : a = 101 ∧ ∃ later, rest = 204 :: 129 :: later
    · obtain ⟨rfl, later, rfl⟩ := hit
      exact Or.inr (Or.inl ⟨later, rfl⟩)
    · exact Or.inr (Or.inr ⟨a, rest, rfl, fun ha later hrest => hit ⟨ha, later, hrest⟩⟩)

theorem composeAcute_append (a : Bytes) {c : Byte} (hc : c.val < 128) (b : Bytes) :
    composeAcute (a ++ c :: b) = composeAcute a ++ composeAcute (c :: b) := by
  have hbound : ∀ d : Byte, d = c → d.val < 128 := fun d hd => hd ▸ hc
  induction hn : a.length using Nat.strongRecOn generalizing a with
  | ind n ih =>
    rcases composeAcute_cases a with rfl | ⟨rest, rfl⟩ | ⟨x, rest, rfl, hskip⟩
    · rfl
    · have hrest := ih rest.length (by rw [← hn, List.length_cons, List.length_cons, List.length_cons]; omega) rest rfl
      rw [List.cons_append, List.cons_append, List.cons_append, composeAcute_hit, composeAcute_hit, hrest]
      rfl
    · have hrest := ih rest.length (by rw [← hn, List.length_cons]; omega) rest rfl
      rw [List.cons_append, composeAcute_skip hskip, composeAcute_skip, hrest, List.cons_append]
      -- The accent could only end behind the cut, and what stands there is ASCII.
      intro hx later heq
      match rest with
      | [] => exact absurd (hbound 204 (List.cons.inj heq).1.symm) (by decide)
      | [y] => exact absurd (hbound 129 (List.cons.inj (List.cons.inj heq).2).1.symm) (by decide)
      | y :: z :: rest =>
        cases heq
        exact hskip hx rest rfl

theorem mem_composeAcute {c : Byte} (hc : c.val < 128) (a : Bytes) (h : c ∈ composeAcute a) : c ∈ a := by
  induction hn : a.length using Nat.strongRecOn generalizing a with
  | ind n ih =>
    rcases composeAcute_cases a with rfl | ⟨rest, rfl⟩ | ⟨x, rest, rfl, hskip⟩
    · exact h
    · rw [composeAcute_hit, List.mem_cons, List.mem_cons] at h
      rcases h with rfl | rfl | h
      · exact absurd hc (by decide)
      · exact absurd hc (by decide)
      · have hrest := ih rest.length (by rw [← hn, List.length_cons, List.length_cons, List.length_cons]; omega) rest h rfl
        exact List.mem_cons_of_mem _ (List.mem_cons_of_mem _ (List.mem_cons_of_mem _ hrest))
    · rw [composeAcute_skip hskip, List.mem_cons] at h
      rcases h with rfl | h
      · exact List.mem_cons_self
      · exact List.mem_cons_of_mem _ (ih rest.length (by rw [← hn, List.length_cons]; omega) rest h rfl)

theorem composeAcute_nil_iff (a : Bytes) : composeAcute a = [] ↔ a = [] := by
  rcases composeAcute_cases a with rfl | ⟨rest, rfl⟩ | ⟨x, rest, rfl, hskip⟩
  · exact Iff.rfl
  · rw [composeAcute_hit]
    simp
  · rw [composeAcute_skip hskip]
    simp

/-- A uni-algo that composes this letter and takes every text for UTF-8. -/
def acuteUna : UniAlgo where
  isValidUtf8 _ := true
  toNfcUtf8 := composeAcute
  ascii_valid _ _ := rfl
  ascii_nfc a ha := by
    induction a with
    | nil => rfl
    | cons x a ih =>
      rw [composeAcute_skip, ih fun y hy => ha y (List.mem_cons_of_mem _ hy)]
      rintro _ later rfl
      exact absurd (ha 204 (by simp)) (by decide)

theorem acuteUna_laws : LiteralLaws acuteUna where
  valid_split _ _ _ _ _ := ⟨rfl, rfl, rfl⟩
  nfc_append a c b hc _ _ := composeAcute_append a hc b
  nfc_mark c b hc _ := composeAcute_skip fun h => by
    rcases hc with rfl | rfl
    · cases h
    · cases h
  nfc_mem a c hc _ h := by
    refine mem_composeAcute ?_ a h
    rcases hc with rfl | rfl
    · decide
    · decide
  nfc_nil a _ := composeAcute_nil_iff a

/-- The payload with the body in it. -/
def samplePayload (body : Bytes) : Bytes :=
  ascii "\x7b\"id\":1,\"result\":\x7b\"body\":\"" ++ (body ++ ascii "\",\"base64Encoded\":false\x7d\x7d")

def sampleTokens (body : Bytes) : List Token :=
  [.mark 123, .literal (ascii "id"), .mark 58, .mark 49, .mark 44, .literal (ascii "result"), .mark 58, .mark 123,
    .literal (ascii "body"), .mark 58, .literal body, .mark 44, .literal (ascii "base64Encoded"), .mark 58, .mark 102,
    .mark 97, .mark 108, .mark 115, .mark 101, .mark 125, .mark 125]

def sampleValue : List Bytes → Option Json
  | [id, result, body, text, encoded] =>
    some (.object [(id, .number (some 1)), (result, .object [(body, .string text), (encoded, .bool false)])])
  | _ => none

/-- A reader of such payloads, of literals without escapes. -/
def sampleReader : JsonReader where
  decodeLiteral raw := if backslash ∈ raw then none else some raw
  build tokens :=
    if tokens.map (Token.map fun _ => []) = (sampleTokens []).map (Token.map fun _ => []) then sampleValue (literals tokens)
    else none
  decode_ascii raw s h hs := by
    split at h
    · cases h
    · cases h
      exact hs
  build_literals tokens value h := by
    split at h
    · unfold sampleValue at h
      split at h
      · rename_i hliterals
        cases h
        rw [hliterals]
        rfl
      · cases h
    · cases h

def sampleParsers : CdpParsers where
  una := acuteUna
  parseJson := sampleReader.parse
  asCdpError _ := .jsonException
  asCdpEventMessage _ := .jsonException

theorem sampleParsers_uses : sampleParsers.Uses sampleReader := ⟨acuteUna_laws, fun _ => rfl⟩

/-- The body with its e and accent apart, and composed. -/
def apartBody : Bytes := [101, 204, 129]

def composedBody : Bytes := [195, 169]

theorem sample_parse {body : Bytes} (hscan : scan (samplePayload body) = some (sampleTokens body))
    (hdecode : sampleReader.decodeTokens (sampleTokens body) = some (sampleTokens body)) :
    sampleParsers.parseJson (samplePayload body) =
      some (.object [(ascii "id", .number (some 1)), (ascii "result", BodyReply.toJson ⟨body, false⟩)]) := by
  rw [sampleParsers_uses.parse, JsonReader.parse, hscan, Option.bind_some, hdecode, Option.bind_some]
  rfl

theorem apartBody_parse : sampleParsers.parseJson (samplePayload apartBody) =
    some (.object [(ascii "id", .number (some 1)), (ascii "result", BodyReply.toJson ⟨apartBody, false⟩)]) :=
  sample_parse rfl rfl

theorem composedBody_parse : sampleParsers.parseJson (samplePayload composedBody) =
    some (.object [(ascii "id", .number (some 1)), (ascii "result", BodyReply.toJson ⟨composedBody, false⟩)]) :=
  sample_parse rfl rfl

theorem sample_isReply (body : Bytes) :
    IsReply (.object [(ascii "id", .number (some 1)), (ascii "result", BodyReply.toJson ⟨body, false⟩)]) 1
      (BodyReply.toJson ⟨body, false⟩) :=
  ⟨[], rfl, rfl, fun _ h => absurd h List.not_mem_nil⟩

/-- The first command was sent. -/
def sampleCall : List Action := [.sendRaw 0 (ascii "Network.getResponseBody") none, .sent 0]

theorem sample_awaits : ∃ s, Run (step sampleParsers) always {} sampleCall s ∧ s.Awaits 0 1 := by
  refine ⟨_, Run.of_execute rfl, ?_⟩
  exact ⟨rfl, rfl, ⟨_, rfl, rfl⟩, rfl, rfl⟩

theorem payload_unaltered_sample : ∃ s : System, s.Awaits 0 1 ∧
    s.Hands sampleParsers 0 (samplePayload composedBody) (.ok (some (BodyReply.toJson ⟨composedBody, false⟩))) := by
  obtain ⟨s, -, hs⟩ := sample_awaits
  have hkept : sampleReader.LiteralsKept acuteUna (samplePayload composedBody) := by
    rw [JsonReader.LiteralsKept]
    decide
  refine ⟨s, hs, ?_⟩
  exact ((payload_unaltered_iff sampleParsers_uses rfl composedBody_parse hs).2.1 _ (sample_isReply _)).mpr hkept

/-- The body that reaches the archive is not the one in the payload. -/
theorem payload_altered : ∃ s value, Run (step sampleParsers) always {} sampleCall s ∧ s.Awaits 0 1 ∧
    sampleParsers.una.isValidUtf8 (samplePayload apartBody) = true ∧
    sampleParsers.parseJson (samplePayload apartBody) = some value ∧ IsReply value 1 (BodyReply.toJson ⟨apartBody, false⟩) ∧
    ¬ s.Hands sampleParsers 0 (samplePayload apartBody) (.ok (some (BodyReply.toJson ⟨apartBody, false⟩))) ∧
    s.Hands sampleParsers 0 (samplePayload apartBody) (.ok (some (BodyReply.toJson ⟨composedBody, false⟩))) ∧
    ∀ base64Decode, capturedBody base64Decode (.ok (some (BodyReply.toJson ⟨composedBody, false⟩))) = some composedBody := by
  obtain ⟨s, hrun, hs⟩ := sample_awaits
  refine ⟨s, _, hrun, hs, rfl, apartBody_parse, sample_isReply _, ?_, ?_, ?_⟩
  · intro hhands
    obtain ⟨id', error, hmessage⟩ := hs.response hhands
    have hkept := kept_of_result sampleParsers_uses apartBody_parse rfl (sample_isReply _) hmessage
    exact absurd (hkept apartBody (by decide)) (by decide)
  · have hnormal : acuteUna.toNfcUtf8 (samplePayload apartBody) = samplePayload composedBody := rfl
    have hvalue : sampleParsers.messageValue (samplePayload apartBody) =
        sampleParsers.parseJson (acuteUna.toNfcUtf8 (samplePayload apartBody)) := messageValue_eq sampleParsers_uses rfl
    rw [hnormal, composedBody_parse] at hvalue
    exact hs.hands (decodeMessage_of_value hvalue rfl rfl)
  · intro base64Decode
    rw [capturedBody, asBodyReply_toJson]
    rfl

end Samples

end Webshot.Crawler
