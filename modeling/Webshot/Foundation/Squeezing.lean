import Mathlib.Data.List.Basic
import Mathlib.Data.List.DropRight

/-! Marks taken off the ends of a list, and runs of them inside it shortened to one. -/
namespace Webshot.Foundation.Squeezing
variable {α : Type*} (mark : α → Bool)

/-- Of adjacent marks only the last is kept. -/
def squeeze : List α → List α
  | [] => []
  | [c] => [c]
  | c :: d :: rest => if mark c && mark d then squeeze (d :: rest) else c :: squeeze (d :: rest)

def trimMarks (text : List α) : List α := squeeze mark ((text.dropWhile mark).rdropWhile mark)

variable {mark} {other : α → Bool} {text : List α}

theorem squeeze_subset (text : List α) : squeeze mark text ⊆ text := by
  induction text with
  | nil => exact List.Subset.refl _
  | cons c rest ih =>
    cases rest with
    | nil => exact List.Subset.refl _
    | cons d rest =>
      rw [squeeze]
      split
      · exact List.subset_cons_of_subset c ih
      · exact List.cons_subset_cons c ih

theorem trimmed_subset (text : List α) : (text.dropWhile mark).rdropWhile mark ⊆ text := by
  apply List.Subset.trans (List.rdropWhile_prefix mark _).subset
  exact (List.dropWhile_suffix mark).subset

theorem trimMarks_subset (text : List α) : trimMarks mark text ⊆ text :=
  List.Subset.trans (squeeze_subset _) (trimmed_subset text)

theorem squeeze_congr (h : ∀ c ∈ text, mark c = other c) : squeeze mark text = squeeze other text := by
  induction text with
  | nil => rfl
  | cons c rest ih =>
    cases rest with
    | nil => rfl
    | cons d rest =>
      obtain ⟨hc, hrest⟩ := List.forall_mem_cons.mp h
      rw [squeeze, squeeze, ih hrest, hc, (List.forall_mem_cons.mp hrest).1]

theorem dropWhile_congr (h : ∀ c ∈ text, mark c = other c) : text.dropWhile mark = text.dropWhile other := by
  induction text with
  | nil => rfl
  | cons c rest ih =>
    obtain ⟨hc, hrest⟩ := List.forall_mem_cons.mp h
    rw [List.dropWhile_cons, List.dropWhile_cons, hc, ih hrest]

/-- Trimming depends on which of the letters in the list are marks. -/
theorem trimMarks_congr (h : ∀ c ∈ text, mark c = other c) : trimMarks mark text = trimMarks other text := by
  have hright : ((text.dropWhile other).rdropWhile mark) = (text.dropWhile other).rdropWhile other := by
    rw [List.rdropWhile, List.rdropWhile]
    congr 1
    apply dropWhile_congr
    intro c hc
    exact h c ((List.dropWhile_suffix other).subset (List.mem_reverse.mp hc))
  rw [trimMarks, trimMarks, dropWhile_congr h, hright]
  apply squeeze_congr
  intro c hc
  exact h c (trimmed_subset text hc)

end Webshot.Foundation.Squeezing
