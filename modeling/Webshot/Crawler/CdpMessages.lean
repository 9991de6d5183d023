import Webshot.Text.Bytes

/-! Incoming DevTools messages: what `CdpClient::HandleMessage` makes of a payload before it consults
the state of the client. -/
namespace Webshot.Crawler
open Text

/-- A JSON value; of a number it matters which 64-bit integer it is, if it is one. -/
inductive Json where
  | null
  | bool (b : Bool)
  | number (int64 : Option Int)
  | string (s : Bytes)
  | array (items : List Json)
  | object (members : List (Bytes × Json))

namespace Json

/-- `value[key]`: missing members and members of null are missing values, and a value that is
neither an object nor null makes the access throw. -/
def member (value : Json) (key : Bytes) : Option (Option Json) :=
  match value with
  | object members => some (members.lookup key)
  | null => some none
  | _ => none

/-- `As<int64_t>`, which throws unless the value is such a number. -/
def asInt64 : Json → Option Int
  | number int64 => int64
  | _ => none

/-- `As<std::string>`, which throws unless the value is a string. -/
def asString : Json → Option Bytes
  | string s => some s
  | _ => none

def isObject : Json → Bool
  | object _ => true
  | _ => false

end Json

inductive CdpErrorCode where
  | traceFileOpenFailed
  | traceWriteFailed
  | socketConnectFailed
  | handshakeTimeout
  | handshakeResponseTooLarge
  | handshakeUnexpectedEof
  | handshakeMalformedResponse
  | handshakeRejected
  | handshakeMissingHeader
  | socketClosed
  | transport
  | timeout
  | jsonParseFailed
  | protocol
  | commandFailed
  deriving DecidableEq

structure CdpError where
  code : CdpErrorCode
  detail : Option Bytes
  deriving DecidableEq

structure CdpEvent where
  method : Bytes
  params : Option (List (Bytes × Json))
  sessionId : Option Bytes

/-- `dto::CdpError`. -/
structure CdpErrorDto where
  code : Option Int
  message : Bytes
  data : Option Bytes

/-- `dto::CdpEventMessage`; `params` admits any members. -/
structure CdpEventMessage where
  method : Bytes
  params : Option (List (Bytes × Json))
  sessionId : Option Bytes

/-- How a generated parser ends: only exceptions of the JSON library are caught by `ws::json::As`. -/
inductive Parsed (α : Type) where
  | parsed (dto : α)
  | jsonException
  | otherException

/-- The text check, the JSON parser of userver and the parsers generated from the schema. -/
structure CdpParsers where
  una : UniAlgo
  parseJson : Bytes → Option Json
  asCdpError : Json → Parsed CdpErrorDto
  asCdpEventMessage : Json → Parsed CdpEventMessage

/-- How `GetErrorMessage` ends. -/
inductive ErrorMessage where
  | text (message : Bytes)
  | failed (error : CdpError)
  | threw
  | aborted

/-- A payload up to the point where the state of the client decides. -/
inductive Incoming where
  | failed (error : CdpError)
  | threw
  | response (id : Int) (error result : Option Json)
  | event (routingSessionId routingTargetId : Option Bytes) (event : CdpEvent)

namespace CdpParsers
variable (p : CdpParsers)

/-- The two invariants abort the process. -/
def getErrorMessage (error : Json) : ErrorMessage :=
  if error.isObject then
    match p.asCdpError error with
    | .jsonException => .aborted
    | .otherException => .threw
    | .parsed dto =>
      match fromBytes p.una dto.message with
      | none => .failed ⟨.protocol, none⟩
      | some message => .text message
  else .aborted

/-- `text::OptionalString`; the outer `none` is its error. -/
def optionalString : Option Bytes → Option (Option Bytes)
  | none => some none
  | some bytes => (fromBytes p.una bytes).map some

/-- A member of `params` as text; the outer `none` is the exception of `As<std::string>`. -/
def paramsText (message : CdpEventMessage) (key : Bytes) : Option (Option Bytes) :=
  match message.params.bind (·.lookup key) with
  | none => some none
  | some value => value.asString.map (fromBytes p.una)

def extractRoutingSessionId (message : CdpEventMessage) : Option (Option Bytes) :=
  match message.sessionId with
  | some sessionId => some (fromBytes p.una sessionId)
  | none => p.paramsText message (ascii "sessionId")

def extractRoutingTargetId (message : CdpEventMessage) : Option (Option Bytes) :=
  p.paramsText message (ascii "targetId")

def decodeEvent (message : CdpEventMessage) : Incoming :=
  match p.optionalString message.sessionId with
  | none => .failed ⟨.protocol, some (ascii "cdp event contained invalid session id text")⟩
  | some sessionId =>
    match fromBytes p.una message.method with
    | none => .failed ⟨.protocol, some (ascii "cdp event contained invalid method text")⟩
    | some method =>
      match p.extractRoutingSessionId message, p.extractRoutingTargetId message with
      | some routingSessionId, some routingTargetId =>
        .event routingSessionId routingTargetId ⟨method, message.params, sessionId⟩
      | _, _ => .threw

def decodeValue (value : Json) : Incoming :=
  match value.member (ascii "id") with
  | none => .threw
  | some (some id) =>
    match id.asInt64 with
    | none => .threw
    | some id => .response id (value.member (ascii "error")).join (value.member (ascii "result")).join
  | some none =>
    match value.member (ascii "method") with
    | none => .threw
    | some none => .failed ⟨.protocol, some (ascii "cdp message missing id and method")⟩
    | some (some _) =>
      match p.asCdpEventMessage value with
      | .jsonException => .failed ⟨.protocol, none⟩
      | .otherException => .threw
      | .parsed message => p.decodeEvent message

def decodeMessage (payload : Bytes) : Incoming :=
  match fromBytes p.una payload with
  | none => .failed ⟨.jsonParseFailed, none⟩
  | some text =>
    match p.parseJson text with
    | none => .failed ⟨.jsonParseFailed, none⟩
    | some value => p.decodeValue value

end CdpParsers
end Webshot.Crawler
