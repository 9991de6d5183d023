import Mathlib.Data.List.Basic

/-! A list cut at the first place of a letter. -/
namespace Webshot.Foundation.FirstCuts
variable {α : Type*} {x : α} {s a b : List α} {i : Nat}

theorem drop_length_succ (a : List α) (x : α) (b : List α) : (a ++ x :: b).drop (a.length + 1) = b := by
  rw [← List.drop_drop, List.drop_left, List.drop_one, List.tail_cons]

variable [BEq α] [LawfulBEq α]

theorem idxOf?_append_cons (h : x ∉ a) (b : List α) : (a ++ x :: b).idxOf? x = some a.length := by
  induction a with
  | nil => rw [List.nil_append, List.idxOf?_cons, if_pos (beq_self_eq_true x), List.length_nil]
  | cons y a ih =>
    rw [List.mem_cons, not_or] at h
    have hne : ¬ (y == x) = true := fun heq => h.1 (eq_of_beq heq).symm
    rw [List.cons_append, List.idxOf?_cons, if_neg hne, ih h.2, Option.map_some, List.length_cons]

/-- In front of the place the letter does not occur. -/
theorem eq_append_of_idxOf? (h : s.idxOf? x = some i) : x ∉ s.take i ∧ s = s.take i ++ x :: s.drop (i + 1) := by
  obtain ⟨hlt, heq, hfirst⟩ := List.idxOf?_eq_some_iff.mp h
  constructor
  · intro hmem
    obtain ⟨j, hj, hjx⟩ := List.mem_iff_getElem.mp hmem
    rw [List.length_take] at hj
    rw [List.getElem_take] at hjx
    exact hfirst j (by omega) hjx
  · calc
      s = s.take i ++ s.drop i := (List.take_append_drop i s).symm
      _ = s.take i ++ x :: s.drop (i + 1) := by rw [List.drop_eq_getElem_cons hlt, heq]

end Webshot.Foundation.FirstCuts
