import Mathlib.Data.List.Perm.Basic
import Mathlib.Data.List.Sort
import Mathlib.Data.Set.Function

/-! What is known of lists from the images of their entries, and from the sorted row of images of one width. -/
namespace Webshot.Foundation.DigestLists
variable {α β : Type*}

section Images
variable [Nonempty α] {f : α → β} {l l' : List α}

/-- A function that tells the entries of two lists apart can be undone on both. -/
theorem exists_undone (h : Set.InjOn f {x | x ∈ l ∨ x ∈ l'}) :
    ∃ g : β → α, (l.map f).map g = l ∧ (l'.map f).map g = l' := by
  have hback := h.leftInvOn_invFunOn
  refine ⟨Function.invFunOn f {x | x ∈ l ∨ x ∈ l'}, ?_, ?_⟩
  · rw [List.map_map]
    exact (List.map_congr_left fun x hx => hback (Or.inl hx)).trans (List.map_id l)
  · rw [List.map_map]
    exact (List.map_congr_left fun x hx => hback (Or.inr hx)).trans (List.map_id l')

theorem eq_of_map_eq (h : Set.InjOn f {x | x ∈ l ∨ x ∈ l'}) (hmap : l.map f = l'.map f) : l = l' := by
  obtain ⟨g, hl, hl'⟩ := exists_undone h
  rw [← hl, hmap, hl']

theorem perm_of_map_perm (h : Set.InjOn f {x | x ∈ l ∨ x ∈ l'}) (hmap : (l.map f).Perm (l'.map f)) : l.Perm l' := by
  obtain ⟨g, hl, hl'⟩ := exists_undone h
  have hperm := hmap.map g
  rw [hl, hl'] at hperm
  exact hperm

end Images

section Widths
variable {w : Nat} {a b : List (List α)}

/-- Pieces of one width can be read off their concatenation. -/
theorem eq_of_flatten_eq (hw : 0 < w) (ha : ∀ piece ∈ a, piece.length = w) (hb : ∀ piece ∈ b, piece.length = w)
    (h : a.flatten = b.flatten) : a = b := by
  have hwidths : ∀ {pieces : List (List α)}, (∀ piece ∈ pieces, piece.length = w) →
      pieces.map List.length = List.replicate pieces.length w := by
    intro pieces hp
    rw [List.eq_replicate_iff, List.length_map]
    refine ⟨rfl, fun n hn => ?_⟩
    obtain ⟨piece, hpiece, rfl⟩ := List.mem_map.mp hn
    exact hp piece hpiece
  have hsum := congrArg List.length h
  rw [List.length_flatten, List.length_flatten, hwidths ha, hwidths hb, List.sum_replicate_nat,
    List.sum_replicate_nat] at hsum
  have hcount : a.length = b.length := Nat.eq_of_mul_eq_mul_right hw hsum
  rw [List.eq_iff_flatten_eq, hwidths ha, hwidths hb, hcount]
  exact ⟨h, rfl⟩

end Widths

section Sorting
variable (r : α → α → Prop) [DecidableRel r] [Std.Total r] [IsTrans α r] [Std.Antisymm r] {l l' : List α}

/-- Sorting forgets the order of a list and nothing else. -/
theorem mergeSort_eq_iff : l.mergeSort (r · ·) = l'.mergeSort (r · ·) ↔ l.Perm l' := by
  constructor
  · intro h
    have hperm := (l.mergeSort_perm (r · ·)).symm
    rw [h] at hperm
    exact hperm.trans (l'.mergeSort_perm (r · ·))
  · intro h
    apply List.Perm.eq_of_pairwise' (List.pairwise_mergeSort' r l) (List.pairwise_mergeSort' r l')
    exact (l.mergeSort_perm (r · ·)).trans (h.trans (l'.mergeSort_perm (r · ·)).symm)

end Sorting

section Rows
variable {w : Nat} {r : List α → List α → Prop} [DecidableRel r] [Std.Total r] [IsTrans (List α) r] [Std.Antisymm r]
  {a b : List (List α)}

/-- Pieces of one width, sorted and put behind each other, are known up to their order. -/
theorem sorted_row_eq_iff (hw : 0 < w) (ha : ∀ piece ∈ a, piece.length = w) (hb : ∀ piece ∈ b, piece.length = w) :
    (a.mergeSort (r · ·)).flatten = (b.mergeSort (r · ·)).flatten ↔ a.Perm b := by
  rw [← mergeSort_eq_iff r]
  constructor
  · apply eq_of_flatten_eq hw
    · exact fun piece hpiece => ha piece ((a.mergeSort_perm (r · ·)).mem_iff.mp hpiece)
    · exact fun piece hpiece => hb piece ((b.mergeSort_perm (r · ·)).mem_iff.mp hpiece)
  · exact congrArg List.flatten

end Rows

end Webshot.Foundation.DigestLists
