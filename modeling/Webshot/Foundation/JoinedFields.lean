import Mathlib.Data.List.Basic

/-! The lexicographic order of fields that are joined with a separator below all of their letters. -/
namespace Webshot.Foundation.JoinedFields
variable {α : Type} [LT α] {a b : List α}

/-- Two fields are in the order of the fields, whatever is behind them. -/
theorem append_cons_lt_of_lt {sep : α} (h : a < b) (hsep : ∀ x ∈ b, sep < x) (s t : List α) :
    a ++ sep :: s < b ++ t := by
  induction a generalizing b with
  | nil =>
    cases b with
    | nil => exact absurd h (List.not_lt_nil _)
    | cons y b => exact List.cons_lt_cons_iff.mpr (.inl (hsep y List.mem_cons_self))
  | cons x a ih =>
    cases b with
    | nil => exact absurd h (List.not_lt_nil _)
    | cons y b =>
      rcases List.cons_lt_cons_iff.mp h with hxy | ⟨rfl, hab⟩
      · exact List.cons_lt_cons_iff.mpr (.inl hxy)
      · refine List.cons_lt_cons_iff.mpr (.inr ⟨rfl, ih hab fun z hz => hsep z (List.mem_cons_of_mem _ hz)⟩)

/-- So are fields of one length without a separator. -/
theorem append_lt_of_length_eq (h : a < b) (hlength : a.length = b.length) (s t : List α) : a ++ s < b ++ t := by
  induction a generalizing b with
  | nil =>
    rw [List.eq_nil_of_length_eq_zero hlength.symm] at h
    exact absurd h (List.not_lt_nil _)
  | cons x a ih =>
    cases b with
    | nil => exact absurd h (List.not_lt_nil _)
    | cons y b =>
      rcases List.cons_lt_cons_iff.mp h with hxy | ⟨rfl, hab⟩
      · exact List.cons_lt_cons_iff.mpr (.inl hxy)
      · exact List.cons_lt_cons_iff.mpr (.inr ⟨rfl, ih hab (Nat.succ.inj hlength)⟩)

end Webshot.Foundation.JoinedFields
