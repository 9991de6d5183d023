import Webshot.Text.Bytes

/-! Values of `text::String`: valid UTF-8 in normal form, and what stays of a text when others are put behind it. -/
namespace Webshot.Text
variable {una : UniAlgo}

/-- What the calls of uni-algo do beyond ASCII: texts can be put together, and nothing of a text changes when it is
normalized with another one behind it that begins with an ASCII character. -/
structure TextLaws (una : UniAlgo) : Prop where
  valid_append : ∀ a b, una.isValidUtf8 a = true → una.isValidUtf8 b = true → una.isValidUtf8 (a ++ b) = true
  valid_nfc : ∀ a, una.isValidUtf8 a = true → una.isValidUtf8 (una.toNfcUtf8 a) = true
  nfc_nfc : ∀ a, una.isValidUtf8 a = true → una.toNfcUtf8 (una.toNfcUtf8 a) = una.toNfcUtf8 a
  nfc_append : ∀ a x b, una.isValidUtf8 a = true → una.isValidUtf8 (x :: b) = true → x.val < 128 →
    una.toNfcUtf8 (a ++ x :: b) = una.toNfcUtf8 a ++ una.toNfcUtf8 (x :: b)

/-- A `text::String`. -/
structure Str (una : UniAlgo) where
  bytes : Bytes
  valid : una.isValidUtf8 bytes = true
  normal : una.toNfcUtf8 bytes = bytes

/-- A literal of the source. -/
def Str.ofAscii (una : UniAlgo) (bytes : Bytes) (h : IsAscii bytes) : Str una :=
  ⟨bytes, una.ascii_valid bytes h, una.ascii_nfc bytes h⟩

theorem fromBytes_of_valid {b : Bytes} (h : una.isValidUtf8 b = true) : fromBytes una b = some (una.toNfcUtf8 b) :=
  if_pos h

theorem valid_of_fromBytes {b text : Bytes} (h : fromBytes una b = some text) : una.isValidUtf8 b = true := by
  unfold fromBytes at h
  split at h
  · assumption
  · cases h

namespace TextLaws

/-- A text keeps its place at the head of a longer one. -/
theorem fromBytes_append (laws : TextLaws una) {a b : Bytes} {x : Byte} (ha : una.isValidUtf8 a = true)
    (hnormal : una.toNfcUtf8 a = a) (hx : x.val < 128) (hb : una.isValidUtf8 (x :: b) = true) :
    fromBytes una (a ++ x :: b) = some (a ++ una.toNfcUtf8 (x :: b)) := by
  rw [fromBytes_of_valid (laws.valid_append a (x :: b) ha hb), laws.nfc_append a x b ha hb hx, hnormal]

theorem valid_text (laws : TextLaws una) {b text : Bytes} (h : fromBytes una b = some text) :
    una.isValidUtf8 text = true := by
  have hvalid := valid_of_fromBytes h
  rw [fromBytes_of_valid hvalid] at h
  cases h
  exact laws.valid_nfc b hvalid

theorem nfc_text (laws : TextLaws una) {b text : Bytes} (h : fromBytes una b = some text) :
    una.toNfcUtf8 text = text := by
  have hvalid := valid_of_fromBytes h
  rw [fromBytes_of_valid hvalid] at h
  cases h
  exact laws.nfc_nfc b hvalid

theorem fromBytes_text (laws : TextLaws una) {b text : Bytes} (h : fromBytes una b = some text) :
    fromBytes una text = some text := by
  rw [fromBytes_of_valid (laws.valid_text h), laws.nfc_text h]

end TextLaws

/-- Over ASCII alone the laws hold. -/
theorem asciiUna_laws : TextLaws asciiUna := by
  have hvalid : ∀ b, asciiUna.isValidUtf8 b = true ↔ IsAscii b := by
    intro b
    simp only [asciiUna, decide_eq_true_eq]
  have hnfc : ∀ b, asciiUna.toNfcUtf8 b = b := fun _ => rfl
  refine ⟨?_, ?_, ?_, ?_⟩
  · intro a b ha hb
    exact (hvalid _).mpr (((hvalid a).mp ha).append ((hvalid b).mp hb))
  · intro a ha
    rwa [hnfc]
  · intro a _
    rw [hnfc]
  · intro a x b _ _ _
    rw [hnfc, hnfc, hnfc]

end Webshot.Text
