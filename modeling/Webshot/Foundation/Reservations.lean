import Mathlib.Algebra.BigOperators.Group.Finset.Piecewise
import Mathlib.Algebra.Order.BigOperators.Group.Finset
import Mathlib.Algebra.Order.Ring.Int

/-! What any number of parties hold of one counter: only finitely many hold anything, and the total follows every
change of one party's share. -/
namespace Webshot.Foundation.Reservations
variable {τ : Type*} {held : τ → Int} {total : Int}

/-- The parties hold `total` together. -/
def Holds (held : τ → Int) (total : Int) : Prop :=
  ∃ holders : Finset τ, (∀ t ∉ holders, held t = 0) ∧ ∑ t ∈ holders, held t = total

namespace Holds

theorem zero : Holds (fun _ : τ => 0) 0 := ⟨∅, fun _ _ => rfl, rfl⟩

/-- One party's share changes. -/
theorem update [DecidableEq τ] (h : Holds held total) (t : τ) (share : Int) :
    Holds (Function.update held t share) (total - held t + share) := by
  obtain ⟨holders, hrest, hsum⟩ := h
  refine ⟨insert t holders, ?_, ?_⟩
  · intro u hu
    rw [Finset.mem_insert, not_or] at hu
    rw [Function.update_of_ne hu.1]
    exact hrest u hu.2
  · have hsame : ∑ u ∈ insert t holders, held u = total := by
      by_cases ht : t ∈ holders
      · rw [Finset.insert_eq_of_mem ht, hsum]
      · rw [Finset.sum_insert ht, hrest t ht, hsum, zero_add]
    have hold := Finset.add_sum_erase _ held (Finset.mem_insert_self t holders)
    rw [Finset.sum_update_of_mem (Finset.mem_insert_self t holders), ← hsame, ← hold, Finset.sdiff_singleton_eq_erase]
    omega

theorem nonneg (h : Holds held total) (hheld : ∀ t, 0 ≤ held t) : 0 ≤ total := by
  obtain ⟨holders, _, rfl⟩ := h
  exact Finset.sum_nonneg fun t _ => hheld t

/-- No party holds more than all of them do. -/
theorem le (h : Holds held total) (hheld : ∀ t, 0 ≤ held t) (t : τ) : held t ≤ total := by
  obtain ⟨holders, hrest, rfl⟩ := h
  by_cases ht : t ∈ holders
  · exact Finset.single_le_sum (fun u _ => hheld u) ht
  · rw [hrest t ht]
    exact Finset.sum_nonneg fun u _ => hheld u

/-- Some of the parties hold no more than all of them do. -/
theorem sum_le (h : Holds held total) (hheld : ∀ t, 0 ≤ held t) (some : Finset τ) : ∑ t ∈ some, held t ≤ total := by
  classical
  obtain ⟨holders, hrest, rfl⟩ := h
  calc
    ∑ t ∈ some, held t ≤ ∑ t ∈ holders ∪ some, held t :=
      Finset.sum_le_sum_of_subset_of_nonneg Finset.subset_union_right fun t _ _ => hheld t
    _ = ∑ t ∈ holders, held t := by
      symm
      apply Finset.sum_subset Finset.subset_union_left
      exact fun t _ ht => hrest t ht

theorem eq_zero (h : Holds held total) (hheld : ∀ t, held t = 0) : total = 0 := by
  obtain ⟨holders, _, rfl⟩ := h
  exact Finset.sum_eq_zero fun t _ => hheld t

end Holds
end Webshot.Foundation.Reservations
