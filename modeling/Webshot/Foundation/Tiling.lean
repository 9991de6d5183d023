import Mathlib.Data.List.Basic
import Mathlib.Order.Nat

/-! Spans of a text that is written piece by piece: what they cut out, and how they cover it. -/
namespace Webshot.Foundation.Tiling
variable {α : Type*}

structure Span where
  offset : Nat
  length : Nat
  deriving DecidableEq

namespace Span

def stop (span : Span) : Nat := span.offset + span.length

def slice (text : List α) (span : Span) : List α := (text.drop span.offset).take span.length

/-- One ends before the other begins. -/
def Apart (a b : Span) : Prop := a.stop ≤ b.offset ∨ b.stop ≤ a.offset

theorem Apart.symm {a b : Span} (h : Apart a b) : Apart b a := Or.symm h

/-- What is written later does not change a slice. -/
theorem slice_append {text : List α} {span : Span} (h : span.stop ≤ text.length) (more : List α) :
    slice (text ++ more) span = slice text span := by
  have hoffset : span.offset ≤ text.length := (Nat.le_add_right _ _).trans h
  have hlength : span.length ≤ (text.drop span.offset).length := by
    rw [List.length_drop]
    exact Nat.le_sub_of_add_le' h
  rw [slice, List.drop_append_of_le_length hoffset, List.take_append_of_le_length hlength, slice]

/-- A piece is cut out where it was put between others. -/
theorem slice_between (text piece more : List α) :
    slice (text ++ (piece ++ more)) ⟨text.length, piece.length⟩ = piece := by
  rw [slice, List.drop_left, List.take_left]

end Span

/-- The spans follow each other without gaps from `lo` to `hi`. -/
def Tiles (lo : Nat) : List Span → Nat → Prop
  | [], hi => lo = hi
  | span :: spans, hi => span.offset = lo ∧ Tiles span.stop spans hi

theorem Tiles.append_singleton {lo hi : Nat} {spans : List Span} (h : Tiles lo spans hi) (length : Nat) :
    Tiles lo (spans ++ [⟨hi, length⟩]) (hi + length) := by
  induction spans generalizing lo with
  | nil =>
    cases h
    exact ⟨rfl, rfl⟩
  | cons span spans ih => exact ⟨h.1, ih h.2⟩

theorem Tiles.le {lo hi : Nat} {spans : List Span} (h : Tiles lo spans hi) : lo ≤ hi := by
  induction spans generalizing lo with
  | nil => exact le_of_eq h
  | cons span spans ih => exact h.1.symm.trans_le ((Nat.le_add_right span.offset span.length).trans (ih h.2))

theorem Tiles.inside {lo hi : Nat} {spans : List Span} (h : Tiles lo spans hi) {span : Span} (hspan : span ∈ spans) :
    lo ≤ span.offset ∧ span.stop ≤ hi := by
  induction spans generalizing lo with
  | nil => cases hspan
  | cons first spans ih =>
    obtain ⟨hfirst, hrest⟩ := h
    rcases List.mem_cons.mp hspan with rfl | hspan
    · exact ⟨hfirst.ge, hrest.le⟩
    · obtain ⟨hlo, hhi⟩ := ih hrest hspan
      refine ⟨?_, hhi⟩
      rw [← hfirst]
      exact (Nat.le_add_right first.offset first.length).trans hlo

/-- No two tiles overlap. -/
theorem Tiles.apart {lo hi : Nat} {spans : List Span} (h : Tiles lo spans hi) : spans.Pairwise Span.Apart := by
  induction spans generalizing lo with
  | nil => exact .nil
  | cons first spans ih =>
    obtain ⟨_, hrest⟩ := h
    refine List.pairwise_cons.mpr ⟨?_, ih hrest⟩
    intro span hspan
    exact .inl (hrest.inside hspan).1

end Webshot.Foundation.Tiling
