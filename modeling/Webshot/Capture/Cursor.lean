import Webshot.Storage.Values

/-! Opaque page tokens: a DTO as JSON text in Base64-url, and the time unit its cursors use. -/
namespace Webshot.Capture
open Text Storage Foundation.SignedWords

inductive PageDirection where
  | next
  | previous
  deriving DecidableEq

/-- `duration_cast` to microseconds rounds toward zero. -/
def timePointToMicros (tp : TimePoint) : Int := tp.tdiv 1000

/-- The product is an `int64_t` and wraps. -/
def microsToTimePoint (micros : Int) : TimePoint := wrap64 (micros * 1000)

theorem microsToTimePoint_timePointToMicros {tp : TimePoint} (hfits : InInt64 tp) (h : (1000 : Int) ∣ tp) :
    microsToTimePoint (timePointToMicros tp) = tp := by
  have hback : timePointToMicros tp * 1000 = tp := Int.tdiv_mul_cancel h
  rw [microsToTimePoint, hback, wrap64_eq hfits]

example : microsToTimePoint (-9223372036854776) = 9223372036854775616 := by decide

/-- The generated JSON serialiser of a DTO and the Base64-url codec of userver. Relied upon are
their round trips, for DTOs whose texts are plain ASCII, and that they then produce ASCII. -/
structure TokenCodec (Dto : Type) (Plain : Dto → Prop) where
  base64UrlEncode : Bytes → Bytes
  base64UrlDecode : Bytes → Option Bytes
  toJson : Dto → Bytes
  parseJson : Bytes → Option Dto
  base64_ascii : ∀ b, IsAscii (base64UrlEncode b)
  base64_ne_nil : ∀ b, b ≠ [] → base64UrlEncode b ≠ []
  base64_decode : ∀ b, base64UrlDecode (base64UrlEncode b) = some b
  json_ascii : ∀ d, Plain d → IsAscii (toJson d)
  json_ne_nil : ∀ d, toJson d ≠ []
  json_parse : ∀ d, Plain d → parseJson (toJson d) = some d

variable {Dto : Type} {Plain : Dto → Prop}

/-- `none` is the dereference of a failed `String::FromBytes`. -/
def encodeToken (una : UniAlgo) (codec : TokenCodec Dto Plain) (dto : Dto) : Option Bytes :=
  fromBytes una (codec.base64UrlEncode (codec.toJson dto))

def decodeToken (una : UniAlgo) (codec : TokenCodec Dto Plain) (token : Bytes) : Option Dto := do
  let decoded ← codec.base64UrlDecode token
  let decodedText ← fromBytes una decoded
  codec.parseJson decodedText

/-- Encoding a plain DTO succeeds; the token is not empty and decodes to the DTO. -/
theorem encodeToken_spec (una : UniAlgo) (codec : TokenCodec Dto Plain) {dto : Dto} (h : Plain dto) :
    ∃ token, encodeToken una codec dto = some token ∧ token ≠ [] ∧ decodeToken una codec token = some dto := by
  refine ⟨_, fromBytes_ascii una (codec.base64_ascii _), codec.base64_ne_nil _ (codec.json_ne_nil dto), ?_⟩
  simp only [decodeToken, codec.base64_decode, fromBytes_ascii una (codec.json_ascii dto h), codec.json_parse dto h,
    Option.bind_eq_bind, Option.bind_some]

end Webshot.Capture
