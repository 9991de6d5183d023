import Mathlib.Data.List.Destutter

/-! Lists without immediate repetitions, built up from the front. -/
namespace Webshot.Foundation.Repetitions
variable {α : Type*} [DecidableEq α]

theorem destutter'_concat (a : α) (l : List α) (b : α) : (l ++ [b]).destutter' (· ≠ ·) a =
    if (l.destutter' (· ≠ ·) a).getLast? = some b then l.destutter' (· ≠ ·) a else l.destutter' (· ≠ ·) a ++ [b] := by
  induction l generalizing a with
  | nil =>
    rw [List.nil_append, List.destutter'_singleton, List.destutter'_nil, List.getLast?_singleton]
    by_cases h : a = b
    · rw [if_neg (not_not.mpr h), if_pos (congrArg some h)]
    · rw [if_pos h, if_neg fun he => h (Option.some.inj he)]
      rfl
  | cons c l ih =>
    rw [List.cons_append]
    by_cases h : a ≠ c
    · have hlast : (a :: l.destutter' (· ≠ ·) c).getLast? = (l.destutter' (· ≠ ·) c).getLast? :=
        List.getLast?_cons_of_ne_nil (List.destutter'_ne_nil _ _)
      rw [List.destutter'_cons_pos _ h, List.destutter'_cons_pos _ h, ih, hlast]
      split
      · rfl
      · rfl
    · rw [List.destutter'_cons_neg _ h, List.destutter'_cons_neg _ h, ih]

/-- One more element is kept unless it repeats the last one kept. -/
theorem destutter_concat (l : List α) (b : α) : (l ++ [b]).destutter (· ≠ ·) =
    if (l.destutter (· ≠ ·)).getLast? = some b then l.destutter (· ≠ ·) else l.destutter (· ≠ ·) ++ [b] := by
  cases l with
  | nil => rfl
  | cons a l => exact destutter'_concat a l b

end Webshot.Foundation.Repetitions
