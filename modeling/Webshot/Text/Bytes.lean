import Mathlib.Data.Fin.Basic
import Mathlib.Data.List.Basic
import Mathlib.Data.List.DropRight
import Webshot.Foundation.Octets

/-! Byte strings and the normalized text type built on them. -/
namespace Webshot.Text

abbrev Byte := Fin 256
abbrev Bytes := List Byte

/-- The bytes of an ASCII literal of the source. -/
def ascii (s : String) : Bytes := s.toList.map fun c => Fin.ofNat 256 c.toNat

def slash : Byte := 47
def dot : Byte := 46
def lineFeed : Byte := 10
def space : Byte := 32
def comma : Byte := 44
def colon : Byte := 58
def questionMark : Byte := 63

def isAsciiSpace (b : Byte) : Bool := b = 32 || (9 ≤ b.val && b.val ≤ 13)

theorem isAsciiSpace_of_visible {b : Byte} (h : 32 < b.val) : isAsciiSpace b = false := by
  have hspace : b ≠ 32 := by
    rintro rfl
    exact absurd h (by decide)
  have hcontrol : ¬ b.val ≤ 13 := by omega
  rw [isAsciiSpace, decide_eq_false hspace, decide_eq_false hcontrol, Bool.and_false, Bool.or_false]

/-- There is nothing to trim off a text without white space. -/
theorem trim_of_visible {text : Bytes} (h : ∀ x ∈ text, isAsciiSpace x = false) :
    (text.dropWhile isAsciiSpace).rdropWhile isAsciiSpace = text := by
  have hleft : text.dropWhile isAsciiSpace = text := by
    rw [List.dropWhile_eq_self_iff]
    intro hpos
    rw [h _ (List.getElem_mem hpos)]
    exact Bool.false_ne_true
  rw [hleft, List.rdropWhile_eq_self_iff]
  intro hne
  rw [h _ (List.getLast_mem hne)]
  exact Bool.false_ne_true

def IsAscii (b : Bytes) : Prop := ∀ x ∈ b, x.val < 128

instance (b : Bytes) : Decidable (IsAscii b) := inferInstanceAs (Decidable (∀ x ∈ b, x.val < 128))

theorem IsAscii.append {a b : Bytes} (ha : IsAscii a) (hb : IsAscii b) : IsAscii (a ++ b) := by
  intro x hx
  exact (List.mem_append.mp hx).elim (ha x) (hb x)

theorem IsAscii.of_subset {a b : Bytes} (hb : IsAscii b) (h : a ⊆ b) : IsAscii a :=
  fun x hx => hb x (h hx)

/-- A literal of the source, character by character. -/
theorem IsAscii.ofList {chars : List Char} (h : (chars.all fun c => decide (c.toNat < 128)) = true) :
    IsAscii (ascii (String.ofList chars)) := by
  intro x hx
  rw [ascii, String.toList_ofList] at hx
  obtain ⟨c, hc, rfl⟩ := List.mem_map.mp hx
  have hlt : c.toNat < 128 := of_decide_eq_true (List.all_eq_true.mp h c hc)
  rw [Fin.ofNat, Fin.val_mk]
  omega

/-- The two uni-algo calls behind `text::String`. Only their behaviour on ASCII is relied upon:
ASCII is valid UTF-8 and is its own NFC form. -/
structure UniAlgo where
  isValidUtf8 : Bytes → Bool
  toNfcUtf8 : Bytes → Bytes
  ascii_valid : ∀ b, IsAscii b → isValidUtf8 b = true
  ascii_nfc : ∀ b, IsAscii b → toNfcUtf8 b = b

/-- `String::FromBytes`; `none` is the error whose dereference aborts. -/
def fromBytes (una : UniAlgo) (b : Bytes) : Option Bytes :=
  if una.isValidUtf8 b then some (una.toNfcUtf8 b) else none

theorem fromBytes_ascii (una : UniAlgo) {b : Bytes} (h : IsAscii b) : fromBytes una b = some b := by
  rw [fromBytes, if_pos (una.ascii_valid b h), una.ascii_nfc b h]

/-- A library that only ever sees ASCII. -/
def asciiUna : UniAlgo where
  isValidUtf8 b := decide (IsAscii b)
  toNfcUtf8 b := b
  ascii_valid _ h := decide_eq_true h
  ascii_nfc _ _ := rfl

end Webshot.Text
