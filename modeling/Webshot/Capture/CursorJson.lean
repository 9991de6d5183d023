import Webshot.Capture.PrefixCursor
import Webshot.Foundation.Base64Url
import Webshot.Storage.UuidText

/-! The JSON text of prefix cursors, and the token codec it makes with Base64-url. -/
namespace Webshot.Capture.CursorJson
open Text Storage Foundation Foundation.JsonText

def dText : PaginationPrefixCursor.D → Bytes
  | .next => ascii "next"
  | .previous => ascii "previous"

def readD (s : Bytes) : Option PaginationPrefixCursor.D :=
  if s = ascii "next" then some .next else if s = ascii "previous" then some .previous else none

def tText : Option Int → Bytes
  | none => []
  | some t => ascii ",\"t\":" ++ intText t

def iText : Option Uuid → Bytes
  | none => []
  | some i => ascii ",\"i\":" ++ stringText (uuidText i)

def toJson (cur : PaginationPrefixCursor) : Bytes :=
  ascii "\x7b\"p\":" ++ stringText cur.p ++ ascii ",\"l\":" ++ stringText cur.l ++ ascii ",\"d\":" ++
    stringText (dText cur.d) ++ tText cur.t ++ iText cur.i ++ ascii "\x7d"

def readT (text : Bytes) : Option Int × Bytes :=
  match expect (ascii ",\"t\":") text with
  | none => (none, text)
  | some rest => ((readInt rest).1, (readInt rest).2)

def readI (text : Bytes) : Option (Option Uuid × Bytes) :=
  match expect (ascii ",\"i\":") text with
  | none => some (none, text)
  | some rest => do
    let (s, rest) ← readString rest
    return (some (← readUuid s), rest)

def parseJson (text : Bytes) : Option PaginationPrefixCursor := do
  let (p, text) ← readString (← expect (ascii "\x7b\"p\":") text)
  let (l, text) ← readString (← expect (ascii ",\"l\":") text)
  let (dName, text) ← readString (← expect (ascii ",\"d\":") text)
  let d ← readD dName
  let (t, text) := readT text
  let (i, text) ← readI text
  if text = ascii "\x7d" then some ⟨p, l, d, t, i⟩ else none

theorem readD_dText (d : PaginationPrefixCursor.D) : readD (dText d) = some d := by
  cases d <;> rfl

/-- What follows a number is a comma or the closing brace. -/
private theorem iText_head (i : Option Uuid) :
    ∃ c rest, iText i ++ ascii "\x7d" = c :: rest ∧ isDigit c = false := by
  cases i with
  | none => exact ⟨_, _, rfl, by decide⟩
  | some i => exact ⟨_, _, rfl, by decide⟩

theorem readT_tText (t : Option Int) (i : Option Uuid) :
    readT (tText t ++ (iText i ++ ascii "\x7d")) = (t, iText i ++ ascii "\x7d") := by
  cases t with
  | none =>
    have hnone : expect (ascii ",\"t\":") (iText i ++ ascii "\x7d") = none := by
      cases i with
      | none => rfl
      | some i => rfl
    rw [tText, List.nil_append, readT, hnone]
  | some t =>
    obtain ⟨c, rest, hc, hdigit⟩ := iText_head i
    rw [tText, List.append_assoc, readT, expect_append, hc]
    simp only [readInt_intText t hdigit]

theorem readI_iText (i : Option Uuid) : readI (iText i ++ ascii "\x7d") = some (i, ascii "\x7d") := by
  cases i with
  | none => rfl
  | some i =>
    rw [iText, List.append_assoc, readI, expect_append]
    simp only [readString_stringText, readUuid_uuidText, Option.bind_eq_bind, Option.bind_some, Option.pure_def]

theorem parseJson_toJson (cur : PaginationPrefixCursor) : parseJson (toJson cur) = some cur := by
  simp only [parseJson, toJson, List.append_assoc, expect_append, readString_stringText, readD_dText, readT_tText,
    readI_iText, Option.bind_eq_bind, Option.bind_some, if_true]

theorem toJson_ascii {cur : PaginationPrefixCursor} (h : cur.Plain) : IsAscii (toJson cur) := by
  have hd : IsAscii (dText cur.d) := by
    cases cur.d <;> exact .ofList rfl
  have ht : IsAscii (tText cur.t) := by
    cases cur.t with
    | none => exact fun _ hx => nomatch hx
    | some t => exact IsAscii.append (.ofList rfl) (intText_ascii t)
  have hi : IsAscii (iText cur.i) := by
    cases cur.i with
    | none => exact fun _ hx => nomatch hx
    | some i => exact IsAscii.append (.ofList rfl) (stringText_ascii (uuidText_ascii i))
  have hp : IsAscii (stringText cur.p) := stringText_ascii h.1
  have hl : IsAscii (stringText cur.l) := stringText_ascii h.2
  have hd' : IsAscii (stringText (dText cur.d)) := stringText_ascii hd
  have hlit : IsAscii (ascii "\x7b\"p\":") ∧ IsAscii (ascii ",\"l\":") ∧ IsAscii (ascii ",\"d\":") ∧
      IsAscii (ascii "\x7d") := ⟨.ofList rfl, .ofList rfl, .ofList rfl, .ofList rfl⟩
  exact (((((((hlit.1.append hp).append hlit.2.1).append hl).append hlit.2.2.1).append hd').append ht).append hi).append
    hlit.2.2.2

/-- The codec the tokens of the service are written with. -/
def codec : PrefixCodec where
  base64UrlEncode := Base64Url.encode
  base64UrlDecode := Base64Url.decode
  toJson := toJson
  parseJson := parseJson
  base64_ascii := Base64Url.encode_ascii
  base64_ne_nil _ := Base64Url.encode_ne_nil
  base64_decode := Base64Url.decode_encode
  json_ascii _ := toJson_ascii
  json_ne_nil _ := List.cons_ne_nil _ _
  json_parse cur _ := parseJson_toJson cur

end Webshot.Capture.CursorJson
