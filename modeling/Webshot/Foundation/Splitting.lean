import Mathlib.Data.List.Basic

/-! Splitting a list at a separator and joining it again. -/
namespace Webshot.Foundation.Splitting
variable {α : Type*}

theorem intercalate_cons (x : α) (first : List α) (rest : List (List α)) :
    [x].intercalate (first :: rest) = first ++ rest.flatMap (x :: ·) := by
  induction rest generalizing first with
  | nil => simp [List.intercalate]
  | cons s rest ih =>
    rw [List.flatMap_cons, List.cons_append, ← ih s]
    simp [List.intercalate]

theorem mem_intercalate {x y : α} {ls : List (List α)} (h : y ∈ [x].intercalate ls) :
    y = x ∨ ∃ l ∈ ls, y ∈ l := by
  cases ls with
  | nil => exact absurd h List.not_mem_nil
  | cons first rest =>
    rw [intercalate_cons] at h
    rcases List.mem_append.mp h with h | h
    · exact Or.inr ⟨first, List.mem_cons_self, h⟩
    · obtain ⟨l, hl, hy⟩ := List.mem_flatMap.mp h
      rcases List.mem_cons.mp hy with hy | hy
      · exact Or.inl hy
      · exact Or.inr ⟨l, List.mem_cons_of_mem first hl, hy⟩

/-- Where a mark first occurs, or the list ends, it is cut in one way only. -/
theorem append_inj_of_notMem {x : α} {a b s t : List α} (ha : x ∉ a) (hb : x ∉ b) (hs : s = [] ∨ s.head? = some x)
    (ht : t = [] ∨ t.head? = some x) (h : a ++ s = b ++ t) : a = b ∧ s = t := by
  induction a generalizing b with
  | nil =>
    cases b with
    | nil => exact ⟨rfl, h⟩
    | cons y b =>
      rw [List.nil_append, List.cons_append] at h
      subst h
      rcases hs with hs | hs
      · cases hs
      · cases hs
        exact absurd List.mem_cons_self hb
  | cons y a ih =>
    cases b with
    | nil =>
      rw [List.nil_append, List.cons_append] at h
      subst h
      rcases ht with ht | ht
      · cases ht
      · cases ht
        exact absurd List.mem_cons_self ha
    | cons z b =>
      rw [List.cons_append, List.cons_append, List.cons.injEq] at h
      obtain ⟨rfl, h⟩ := h
      obtain ⟨rfl, hst⟩ := ih (fun hx => ha (List.mem_cons_of_mem y hx)) (fun hx => hb (List.mem_cons_of_mem y hx)) h
      exact ⟨rfl, hst⟩

variable [BEq α] [LawfulBEq α]

/-- A segment holds no separator and nothing foreign to the list. -/
theorem mem_splitOn {x : α} {xs l : List α} (h : l ∈ xs.splitOn x) : x ∉ l ∧ l ⊆ xs := by
  induction xs generalizing l with
  | nil =>
    rw [List.splitOn_nil] at h
    rw [List.mem_singleton.mp h]
    exact ⟨List.not_mem_nil, List.Subset.refl _⟩
  | cons y ys ih =>
    rw [List.splitOn_cons_eq_if_modifyHead] at h
    split at h
    · rcases List.mem_cons.mp h with rfl | h
      · exact ⟨List.not_mem_nil, List.nil_subset _⟩
      · exact ⟨(ih h).1, List.subset_cons_of_subset y (ih h).2⟩
    · rename_i hy
      cases hs : ys.splitOn x with
      | nil => exact absurd hs (List.splitOn_ne_nil x ys)
      | cons s rest =>
        rw [hs, List.modifyHead_cons] at h
        rcases List.mem_cons.mp h with rfl | h
        · obtain ⟨hn, hsub⟩ := ih (hs ▸ List.mem_cons_self)
          refine ⟨fun hm => ?_, List.cons_subset_cons y hsub⟩
          rcases List.mem_cons.mp hm with rfl | hm
          · exact hy (beq_self_eq_true x)
          · exact hn hm
        · obtain ⟨hn, hsub⟩ := ih (hs ▸ List.mem_cons_of_mem s h)
          exact ⟨hn, List.subset_cons_of_subset y hsub⟩

/-- Joining separator-free segments in any order splits back into them. -/
theorem splitOn_intercalate_reverse (x : α) (xs : List α) :
    ([x].intercalate (xs.splitOn x).reverse).splitOn x = (xs.splitOn x).reverse := by
  refine List.splitOn_intercalate x (fun l hl => ?_) ?_
  · exact (mem_splitOn (List.mem_reverse.mp hl)).1
  · exact List.reverse_ne_nil_iff.mpr (List.splitOn_ne_nil x xs)

end Webshot.Foundation.Splitting
