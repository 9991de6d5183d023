import Mathlib.Data.List.Basic

/-! Codes whose words show where they begin: texts of such words, put together and cut apart. -/
namespace Webshot.Foundation
variable {α : Type}

/-- The first letter of a word is none of those that go on with one, and says how many of them follow. -/
structure LeadCode (α : Type) where
  IsWord : List α → Prop
  Continues : α → Prop
  exists_lead : ∀ {word}, IsWord word → ∃ lead tail, word = lead :: tail ∧ ¬ Continues lead ∧ ∀ x ∈ tail, Continues x
  length_eq : ∀ {lead tail tail'}, IsWord (lead :: tail) → IsWord (lead :: tail') → tail.length = tail'.length

namespace LeadCode
variable (code : LeadCode α)

inductive IsText : List α → Prop where
  | nil : IsText []
  | cons {word rest : List α} : code.IsWord word → IsText rest → IsText (word ++ rest)

variable {code} {a b : List α}

theorem IsText.append (ha : code.IsText a) (hb : code.IsText b) : code.IsText (a ++ b) := by
  induction ha with
  | nil => exact hb
  | cons hword _ ih =>
    rw [List.append_assoc]
    exact .cons hword ih

/-- A text begins with a lead. -/
theorem IsText.head (h : code.IsText a) : ∀ x ∈ a.head?, ¬ code.Continues x := by
  cases h with
  | nil => exact fun x hx => (by cases hx)
  | cons hword _ =>
    obtain ⟨lead, tail, rfl, hlead, -⟩ := code.exists_lead hword
    intro x hx
    cases hx
    exact hlead

/-- In front of a lead a text can be cut. -/
theorem IsText.cut (h : code.IsText (a ++ b)) (hb : ∀ x ∈ b.head?, ¬ code.Continues x) :
    code.IsText a ∧ code.IsText b := by
  generalize htext : a ++ b = text at h
  induction h generalizing a with
  | nil =>
    obtain ⟨rfl, rfl⟩ := List.append_eq_nil_iff.mp htext
    exact ⟨.nil, .nil⟩
  | @cons word rest hword hrest ih =>
    rcases List.append_eq_append_iff.mp htext with ⟨c, hword', hb'⟩ | ⟨c, ha', hrest'⟩
    · -- The cut is in the word, and so in front of it or behind it.
      obtain ⟨lead, tail, rfl, -, htail⟩ := code.exists_lead hword
      cases a with
      | nil =>
        rw [List.nil_append] at htext
        rw [htext]
        exact ⟨.nil, .cons hword hrest⟩
      | cons x a =>
        rw [List.cons_append, List.cons.injEq] at hword'
        cases c with
        | nil =>
          rw [List.append_nil] at hword'
          rw [List.nil_append] at hb'
          obtain ⟨rfl, rfl⟩ := hword'
          have hfront : code.IsText (lead :: tail ++ []) := .cons hword .nil
          rw [List.append_nil] at hfront
          exact ⟨hfront, hb' ▸ hrest⟩
        | cons y c =>
          have hy : y ∈ tail := hword'.2 ▸ List.mem_append_right a List.mem_cons_self
          rw [hb'] at hb
          exact absurd (htail y hy) (hb y rfl)
    · subst ha'
      obtain ⟨hc, hb⟩ := ih hrest'.symm
      exact ⟨.cons hword hc, hb⟩

/-- What is behind a text within a text is one itself. -/
theorem IsText.of_append_left (ha : code.IsText a) (h : code.IsText (a ++ b)) : code.IsText b := by
  induction ha with
  | nil => exact h
  | @cons word rest hword _ ih =>
    refine ih ?_
    obtain ⟨lead, tail, rfl, -, -⟩ := code.exists_lead hword
    rw [List.append_assoc] at h
    generalize htext : lead :: tail ++ (rest ++ b) = text at h
    cases h with
    | nil => cases htext
    | @cons word' rest' hword' hrest' =>
      obtain ⟨lead', tail', rfl, -, -⟩ := code.exists_lead hword'
      rw [List.cons_append, List.cons_append, List.cons.injEq] at htext
      obtain ⟨rfl, htext⟩ := htext
      rw [(List.append_inj htext (code.length_eq hword hword')).2]
      exact hrest'

/-- A text around one that is known consists of two. -/
theorem isText_around_iff {middle : List α} (hmiddle : code.IsText middle) (hne : middle ≠ []) :
    code.IsText (a ++ middle ++ b) ↔ code.IsText a ∧ code.IsText b := by
  constructor
  · intro h
    rw [List.append_assoc] at h
    obtain ⟨x, rest, rfl⟩ := List.exists_cons_of_ne_nil hne
    obtain ⟨ha, hrest⟩ := h.cut (b := x :: rest ++ b) hmiddle.head
    exact ⟨ha, hmiddle.of_append_left hrest⟩
  · rintro ⟨ha, hb⟩
    exact (ha.append hmiddle).append hb

section Cuts
variable {text : List α} (h : code.IsText text) (n : Nat)
include h

theorem isText_drop_iff : code.IsText (text.drop n) ↔ ∀ x ∈ text[n]?, ¬ code.Continues x := by
  rw [← List.head?_drop]
  constructor
  · exact IsText.head
  · intro hlead
    have hparts : code.IsText (text.take n ++ text.drop n) := by rwa [List.take_append_drop]
    exact (hparts.cut hlead).2

theorem isText_take_iff : code.IsText (text.take n) ↔ ∀ x ∈ text[n]?, ¬ code.Continues x := by
  have hparts : code.IsText (text.take n ++ text.drop n) := by rwa [List.take_append_drop]
  constructor
  · intro htake
    exact (isText_drop_iff h n).mp (htake.of_append_left hparts)
  · intro hlead
    rw [← List.head?_drop] at hlead
    exact (hparts.cut hlead).1

end Cuts

end LeadCode
end Webshot.Foundation
