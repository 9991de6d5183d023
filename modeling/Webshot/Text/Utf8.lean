import Mathlib.Data.List.Forall2
import Webshot.Foundation.LeadCodes
import Webshot.Text.Strings

/-! UTF-8: which octets may stand in a text, and a library that checks it. -/
namespace Webshot.Text
open Foundation

/-- The well-formed byte sequences of the Unicode standard: the range of the first octet of a character, and those of
the octets that follow it. -/
def utf8Table : List ((Nat × Nat) × List (Nat × Nat)) :=
  [((0x00, 0x7F), []),
    ((0xC2, 0xDF), [(0x80, 0xBF)]),
    ((0xE0, 0xE0), [(0xA0, 0xBF), (0x80, 0xBF)]),
    ((0xE1, 0xEC), [(0x80, 0xBF), (0x80, 0xBF)]),
    ((0xED, 0xED), [(0x80, 0x9F), (0x80, 0xBF)]),
    ((0xEE, 0xEF), [(0x80, 0xBF), (0x80, 0xBF)]),
    ((0xF0, 0xF0), [(0x90, 0xBF), (0x80, 0xBF), (0x80, 0xBF)]),
    ((0xF1, 0xF3), [(0x80, 0xBF), (0x80, 0xBF), (0x80, 0xBF)]),
    ((0xF4, 0xF4), [(0x80, 0x8F), (0x80, 0xBF), (0x80, 0xBF)])]

def Within (x : Byte) (range : Nat × Nat) : Prop := range.1 ≤ x.val ∧ x.val ≤ range.2

instance (x : Byte) (range : Nat × Nat) : Decidable (Within x range) := inferInstanceAs (Decidable (_ ∧ _))

def followers (lead : Byte) : Option (List (Nat × Nat)) :=
  (utf8Table.find? fun row => decide (Within lead row.1)).map Prod.snd

/-- An octet that goes on with a character. -/
def IsContinuation (x : Byte) : Prop := Within x (0x80, 0xBF)

instance : DecidablePred IsContinuation := fun _ => inferInstanceAs (Decidable (Within _ _))

/-- An octet with its followers. -/
def IsUtf8Char (char : Bytes) : Prop :=
  ∃ lead tail ranges, char = lead :: tail ∧ followers lead = some ranges ∧ List.Forall₂ Within tail ranges

theorem followers_spec {lead : Byte} {ranges : List (Nat × Nat)} (h : followers lead = some ranges) :
    ¬ IsContinuation lead ∧ lead.val ≤ 0xF4 ∧ ∀ range ∈ ranges, 0x80 ≤ range.1 ∧ range.2 ≤ 0xBF := by
  have htable : ∀ row ∈ utf8Table, (row.1.2 < 0x80 ∨ 0xBF < row.1.1) ∧ row.1.2 ≤ 0xF4 ∧
      ∀ range ∈ row.2, 0x80 ≤ range.1 ∧ range.2 ≤ 0xBF := by decide
  obtain ⟨row, hrow, rfl⟩ := Option.map_eq_some_iff.mp h
  have hfound := List.find?_some hrow
  have hlead : Within lead row.1 := of_decide_eq_true hfound
  obtain ⟨hfirst, hlast, hall⟩ := htable row (List.mem_of_find?_eq_some hrow)
  refine ⟨fun hcontinues => ?_, hlead.2.trans hlast, hall⟩
  rw [IsContinuation, Within] at hcontinues
  rw [Within] at hlead
  omega

theorem followers_ascii {lead : Byte} (h : lead.val < 128) : followers lead = some [] := by
  have hwithin : Within lead (0x00, 0x7F) := ⟨Nat.zero_le _, Nat.le_of_lt_succ h⟩
  simp only [followers, utf8Table, List.find?_cons, decide_eq_true hwithin, Option.map_some]

theorem within_continuation {x : Byte} {range : Nat × Nat} (h : Within x range)
    (hrange : 0x80 ≤ range.1 ∧ range.2 ≤ 0xBF) : IsContinuation x := ⟨hrange.1.trans h.1, h.2.trans hrange.2⟩

theorem tail_continues {tail : Bytes} {ranges : List (Nat × Nat)} (h : List.Forall₂ Within tail ranges)
    (hranges : ∀ range ∈ ranges, 0x80 ≤ range.1 ∧ range.2 ≤ 0xBF) : ∀ x ∈ tail, IsContinuation x := by
  induction h with
  | nil => exact fun x hx => absurd hx List.not_mem_nil
  | cons hx _ ih =>
    rw [List.forall_mem_cons] at hranges ⊢
    exact ⟨within_continuation hx hranges.1, ih hranges.2⟩

def utf8Code : LeadCode Byte where
  IsWord := IsUtf8Char
  Continues := IsContinuation
  exists_lead := by
    rintro word ⟨lead, tail, ranges, rfl, hranges, htail⟩
    obtain ⟨hlead, -, hall⟩ := followers_spec hranges
    exact ⟨lead, tail, rfl, hlead, tail_continues htail hall⟩
  length_eq := by
    rintro lead tail tail' ⟨_, _, ranges, ⟨⟩, hranges, htail⟩ ⟨_, _, ranges', ⟨⟩, hranges', htail'⟩
    rw [hranges, Option.some.injEq] at hranges'
    subst hranges'
    rw [htail.length_eq, htail'.length_eq]

/-- Valid UTF-8. -/
abbrev Utf8 : Bytes → Prop := utf8Code.IsText

theorem Utf8.of_ascii {b : Bytes} (h : IsAscii b) : Utf8 b := by
  induction b with
  | nil => exact .nil
  | cons x b ih =>
    have hchar : IsUtf8Char [x] := ⟨x, [], [], rfl, followers_ascii (h x List.mem_cons_self), .nil⟩
    exact .cons hchar (ih fun y hy => h y (List.mem_cons_of_mem x hy))

/-- The octets above 0xF4 stand nowhere in a text. -/
theorem Utf8.le {b : Bytes} (h : Utf8 b) : ∀ x ∈ b, x.val ≤ 0xF4 := by
  induction h with
  | nil => exact fun x hx => absurd hx List.not_mem_nil
  | cons hword _ ih =>
    obtain ⟨lead, tail, ranges, rfl, hranges, htail⟩ := hword
    obtain ⟨-, hlead, hall⟩ := followers_spec hranges
    have hcontinues := tail_continues htail hall
    intro x hx
    rcases List.mem_append.mp hx with hx | hx
    · rcases List.mem_cons.mp hx with rfl | hx
      · exact hlead
      · exact (hcontinues x hx).2.trans (by decide)
    · exact ih x hx

/-- Followers in these ranges, and a text behind them. -/
def validUtf8From : List (Nat × Nat) → Bytes → Bool
  | [], [] => true
  | _ :: _, [] => false
  | range :: ranges, x :: rest => decide (Within x range) && validUtf8From ranges rest
  | [], lead :: rest =>
    match followers lead with
    | some ranges => validUtf8From ranges rest
    | none => false

theorem validUtf8From_iff (ranges : List (Nat × Nat)) (b : Bytes) :
    validUtf8From ranges b = true ↔ ∃ tail rest, b = tail ++ rest ∧ List.Forall₂ Within tail ranges ∧ Utf8 rest := by
  induction b generalizing ranges with
  | nil =>
    cases ranges with
    | nil => exact iff_of_true rfl ⟨[], [], rfl, .nil, .nil⟩
    | cons range ranges =>
      refine iff_of_false Bool.false_ne_true ?_
      rintro ⟨tail, rest, hb, htail, -⟩
      rw [(List.append_eq_nil_iff.mp hb.symm).1] at htail
      cases htail
  | cons x b ih =>
    cases ranges with
    | nil =>
      have hsplit : (∃ tail rest, x :: b = tail ++ rest ∧ List.Forall₂ Within tail [] ∧ Utf8 rest) ↔ Utf8 (x :: b) := by
        constructor
        · rintro ⟨tail, rest, hb, htail, hrest⟩
          cases htail
          rwa [hb]
        · exact fun h => ⟨[], x :: b, rfl, .nil, h⟩
      rw [hsplit, validUtf8From]
      constructor
      · intro h
        split at h
        · rename_i ranges hranges
          obtain ⟨tail, rest, rfl, htail, hrest⟩ := (ih ranges).mp h
          have hchar : IsUtf8Char (x :: tail) := ⟨x, tail, ranges, rfl, hranges, htail⟩
          exact .cons hchar hrest
        · cases h
      · intro h
        generalize htext : x :: b = text at h
        cases h with
        | nil => cases htext
        | cons hword hrest =>
          obtain ⟨lead, tail, ranges, rfl, hranges, htail⟩ := hword
          rw [List.cons_append, List.cons.injEq] at htext
          obtain ⟨rfl, rfl⟩ := htext
          rw [hranges]
          exact (ih ranges).mpr ⟨tail, _, rfl, htail, hrest⟩
    | cons range ranges =>
      rw [validUtf8From, Bool.and_eq_true, decide_eq_true_eq, ih]
      constructor
      · rintro ⟨hx, tail, rest, rfl, htail, hrest⟩
        exact ⟨x :: tail, rest, rfl, .cons hx htail, hrest⟩
      · rintro ⟨tail, rest, hb, htail, hrest⟩
        cases htail with
        | cons hx htail =>
          rw [List.cons_append, List.cons.injEq] at hb
          obtain ⟨rfl, rfl⟩ := hb
          exact ⟨hx, _, rest, rfl, htail, hrest⟩

def validUtf8 (b : Bytes) : Bool := validUtf8From [] b

theorem validUtf8_iff (b : Bytes) : validUtf8 b = true ↔ Utf8 b := by
  rw [validUtf8, validUtf8From_iff]
  constructor
  · rintro ⟨tail, rest, rfl, htail, hrest⟩
    cases htail
    exact hrest
  · exact fun h => ⟨[], b, rfl, .nil, h⟩

/-- What `una::is_valid_utf8` decides. -/
def UniAlgo.ChecksUtf8 (una : UniAlgo) : Prop := ∀ b, una.isValidUtf8 b = true ↔ Utf8 b

/-- A library for texts that are in normal form already. -/
def normalUna : UniAlgo where
  isValidUtf8 := validUtf8
  toNfcUtf8 b := b
  ascii_valid b h := (validUtf8_iff b).mpr (.of_ascii h)
  ascii_nfc _ _ := rfl

theorem normalUna_checksUtf8 : normalUna.ChecksUtf8 := validUtf8_iff

theorem normalUna_laws : TextLaws normalUna where
  valid_append a b ha hb := by
    rw [normalUna_checksUtf8] at ha hb ⊢
    exact ha.append hb
  valid_nfc _ h := h
  nfc_nfc _ _ := rfl
  nfc_append _ _ _ _ _ _ := rfl

end Webshot.Text
