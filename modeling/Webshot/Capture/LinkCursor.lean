import Webshot.Capture.Cursor
import Webshot.Foundation.Base64Url
import Webshot.Storage.UuidText

/-! The cursor of exact-link listings and the JSON text of its DTO. -/
namespace Webshot.Capture
open Text Storage Foundation.SignedWords

structure Cursor where
  createdAt : TimePoint
  id : Uuid
  direction : PageDirection
  deriving DecidableEq

inductive PaginationCursor.D where
  | next
  | previous
  deriving DecidableEq

/-- The DTO inside a token. -/
structure PaginationCursor where
  t : Int
  i : Uuid
  d : PaginationCursor.D
  deriving DecidableEq

namespace PaginationCursor

def toDto : PageDirection → D
  | .next => .next
  | .previous => .previous

def fromDto : D → PageDirection
  | .next => .next
  | .previous => .previous

theorem fromDto_toDto (direction : PageDirection) : fromDto (toDto direction) = direction := by
  cases direction <;> rfl

end PaginationCursor

/-- Every DTO of this cursor is plain: a number, a UUID and one of two words. -/
abbrev LinkCodec := TokenCodec PaginationCursor fun _ => True

def encodeCursor (una : UniAlgo) (codec : LinkCodec) (createdAt : TimePoint) (id : Uuid) (direction : PageDirection) :
    Option Bytes :=
  encodeToken una codec ⟨timePointToMicros createdAt, id, PaginationCursor.toDto direction⟩

def decodeCursor (una : UniAlgo) (codec : LinkCodec) (token : Bytes) : Option Cursor := do
  let cur ← decodeToken una codec token
  return ⟨microsToTimePoint cur.t, cur.i, PaginationCursor.fromDto cur.d⟩

theorem encodeCursor_spec (una : UniAlgo) (codec : LinkCodec) {createdAt : TimePoint} (hfits : InInt64 createdAt)
    (ht : (1000 : Int) ∣ createdAt) (id : Uuid) (direction : PageDirection) :
    ∃ token, encodeCursor una codec createdAt id direction = some token ∧ token ≠ [] ∧
      decodeCursor una codec token = some ⟨createdAt, id, direction⟩ := by
  obtain ⟨token, henc, hne, hdec⟩ := encodeToken_spec una codec
    (show True from trivial)
  refine ⟨token, henc, hne, ?_⟩
  rw [decodeCursor, hdec, Option.bind_eq_bind, Option.bind_some, microsToTimePoint_timePointToMicros hfits ht,
    PaginationCursor.fromDto_toDto]
  rfl

namespace LinkCursorJson
open Foundation Foundation.JsonText

def dText : PaginationCursor.D → Bytes
  | .next => ascii "next"
  | .previous => ascii "previous"

def readD (s : Bytes) : Option PaginationCursor.D :=
  if s = ascii "next" then some .next else if s = ascii "previous" then some .previous else none

def toJson (cur : PaginationCursor) : Bytes :=
  ascii "\x7b\"t\":" ++ intText cur.t ++ ascii ",\"i\":" ++ stringText (uuidText cur.i) ++ ascii ",\"d\":" ++
    stringText (dText cur.d) ++ ascii "\x7d"

def parseJson (text : Bytes) : Option PaginationCursor := do
  let (t, text) := readInt (← expect (ascii "\x7b\"t\":") text)
  let (iName, text) ← readString (← expect (ascii ",\"i\":") text)
  let i ← readUuid iName
  let (dName, text) ← readString (← expect (ascii ",\"d\":") text)
  let d ← readD dName
  if text = ascii "\x7d" then some ⟨t, i, d⟩ else none

theorem readD_dText (d : PaginationCursor.D) : readD (dText d) = some d := by
  cases d <;> rfl

theorem parseJson_toJson (cur : PaginationCursor) : parseJson (toJson cur) = some cur := by
  have ht : ∀ rest, readInt (intText cur.t ++ (ascii ",\"i\":" ++ rest)) = (cur.t, ascii ",\"i\":" ++ rest) :=
    fun rest => readInt_intText cur.t (c := 44) (by decide)
  simp only [parseJson, toJson, List.append_assoc, expect_append, ht, readString_stringText, readUuid_uuidText,
    readD_dText, Option.bind_eq_bind, Option.bind_some, if_true]

theorem toJson_ascii (cur : PaginationCursor) : IsAscii (toJson cur) := by
  have hd : IsAscii (dText cur.d) := by
    cases cur.d <;> exact .ofList rfl
  have hi : IsAscii (stringText (uuidText cur.i)) := stringText_ascii (uuidText_ascii cur.i)
  have hd' : IsAscii (stringText (dText cur.d)) := stringText_ascii hd
  have hlit : IsAscii (ascii "\x7b\"t\":") ∧ IsAscii (ascii ",\"i\":") ∧ IsAscii (ascii ",\"d\":") ∧
      IsAscii (ascii "\x7d") := ⟨.ofList rfl, .ofList rfl, .ofList rfl, .ofList rfl⟩
  exact (((((hlit.1.append (intText_ascii cur.t)).append hlit.2.1).append hi).append hlit.2.2.1).append hd').append
    hlit.2.2.2

/-- The codec the tokens of the service are written with. -/
def codec : LinkCodec where
  base64UrlEncode := Base64Url.encode
  base64UrlDecode := Base64Url.decode
  toJson := toJson
  parseJson := parseJson
  base64_ascii := Base64Url.encode_ascii
  base64_ne_nil _ := Base64Url.encode_ne_nil
  base64_decode := Base64Url.decode_encode
  json_ascii cur _ := toJson_ascii cur
  json_ne_nil _ := List.cons_ne_nil _ _
  json_parse cur _ := parseJson_toJson cur

end LinkCursorJson
end Webshot.Capture
