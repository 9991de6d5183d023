import Mathlib.Data.List.Basic
import Mathlib.Data.List.Infix

/-! The first place where one list occurs inside another, and streams that are read piece by piece until it does. -/
namespace Webshot.Foundation.Occurrences
variable {α : Type*} [DecidableEq α] {mark s t : List α} {i : Nat}

/-- `std::string_view::find`. -/
def firstIndex (mark : List α) : List α → Option Nat
  | [] => if mark = [] then some 0 else none
  | x :: s => if mark.isPrefixOf (x :: s) then some 0 else (firstIndex mark s).map (· + 1)

def occursIn (mark s : List α) : Bool := (firstIndex mark s).isSome

theorem firstIndex_cons_pos {x : α} (h : mark <+: x :: s) : firstIndex mark (x :: s) = some 0 :=
  if_pos (List.isPrefixOf_iff_prefix.mpr h)

theorem firstIndex_cons_neg {x : α} (h : ¬ mark <+: x :: s) : firstIndex mark (x :: s) = (firstIndex mark s).map (· + 1) :=
  if_neg fun hp => h (List.isPrefixOf_iff_prefix.mp hp)

/-- The mark stands where it was found. -/
theorem firstIndex_spec (h : firstIndex mark s = some i) : mark <+: s.drop i ∧ i + mark.length ≤ s.length := by
  induction s generalizing i with
  | nil =>
    rw [firstIndex] at h
    split at h
    · rename_i hmark
      cases h
      rw [hmark]
      exact ⟨List.nil_prefix, le_rfl⟩
    · cases h
  | cons x s ih =>
    by_cases hp : mark <+: x :: s
    · rw [firstIndex_cons_pos hp] at h
      cases h
      exact ⟨hp, (Nat.zero_add _).trans_le hp.length_le⟩
    · rw [firstIndex_cons_neg hp] at h
      obtain ⟨j, hj, rfl⟩ := Option.map_eq_some_iff.mp h
      obtain ⟨hstarts, hlength⟩ := ih hj
      refine ⟨hstarts, ?_⟩
      rw [List.length_cons]
      omega

/-- Behind a text without any letter of the mark, the mark is found where it begins. -/
theorem firstIndex_append_mark {line : List α} (hline : ∀ x ∈ mark, x ∉ line) (hmark : mark ≠ []) (rest : List α) :
    firstIndex mark (line ++ (mark ++ rest)) = some line.length := by
  induction line with
  | nil =>
    rw [List.nil_append, List.length_nil]
    cases hfull : mark ++ rest with
    | nil => exact absurd (List.append_eq_nil_iff.mp hfull).1 hmark
    | cons y s =>
      apply firstIndex_cons_pos
      rw [← hfull]
      exact List.prefix_append mark rest
  | cons y line ih =>
    have hnot : ¬ mark <+: y :: (line ++ (mark ++ rest)) := by
      intro hstarts
      cases hfull : mark with
      | nil => exact hmark hfull
      | cons x others =>
        rw [hfull] at hstarts
        have hx : x = y := (List.cons_prefix_cons.mp hstarts).1
        exact hline x (hfull ▸ List.mem_cons_self) (hx ▸ List.mem_cons_self)
    have hrest := ih fun x hx hmem => hline x hx (List.mem_cons_of_mem y hmem)
    rw [List.cons_append, firstIndex_cons_neg hnot, hrest, Option.map_some, List.length_cons]

/-- What follows does not move the first occurrence. -/
theorem firstIndex_append (t : List α) (h : firstIndex mark s = some i) : firstIndex mark (s ++ t) = some i := by
  induction s generalizing i with
  | nil =>
    rw [firstIndex] at h
    split at h
    · rename_i hmark
      cases h
      rw [hmark]
      cases t with
      | nil => rfl
      | cons y t => exact firstIndex_cons_pos List.nil_prefix
    · cases h
  | cons x s ih =>
    by_cases hp : mark <+: x :: s
    · rw [firstIndex_cons_pos hp] at h
      have hlong : mark <+: x :: (s ++ t) := hp.trans (List.prefix_append (x :: s) t)
      rw [List.cons_append, firstIndex_cons_pos hlong, h]
    · rw [firstIndex_cons_neg hp] at h
      obtain ⟨j, hj, rfl⟩ := Option.map_eq_some_iff.mp h
      have hlength := (firstIndex_spec hj).2
      have hlong : ¬ mark <+: x :: (s ++ t) := by
        intro hp'
        have hle : mark.length ≤ (x :: s).length := by
          rw [List.length_cons]
          omega
        exact hp (List.prefix_of_prefix_length_le hp' (List.prefix_append (x :: s) t) hle)
      rw [List.cons_append, firstIndex_cons_neg hlong, ih hj, Option.map_some]

theorem occursIn_append (t : List α) (h : occursIn mark s = true) : occursIn mark (s ++ t) = true := by
  obtain ⟨i, hi⟩ := Option.isSome_iff_exists.mp h
  exact Option.isSome_iff_exists.mpr ⟨i, firstIndex_append t hi⟩

theorem occursIn_of_prefix (hs : s <+: t) (h : occursIn mark s = true) : occursIn mark t = true := by
  obtain ⟨rest, rfl⟩ := hs
  exact occursIn_append rest h

/-- A list that reaches past the first occurrence has it. -/
theorem occursIn_take (h : firstIndex mark s = some i) : occursIn mark (s.take (i + mark.length)) = true := by
  induction s generalizing i with
  | nil =>
    rw [List.take_nil]
    exact Option.isSome_iff_exists.mpr ⟨i, h⟩
  | cons x s ih =>
    by_cases hp : mark <+: x :: s
    · rw [firstIndex_cons_pos hp] at h
      cases h
      have hmark : mark <+: (x :: s).take (0 + mark.length) := by
        rw [Nat.zero_add]
        exact List.prefix_take_iff.mpr ⟨hp, le_rfl⟩
      cases htake : (x :: s).take (0 + mark.length) with
      | nil =>
        rw [htake] at hmark
        rw [List.prefix_nil.mp hmark]
        rfl
      | cons y rest =>
        rw [htake] at hmark
        exact Option.isSome_iff_exists.mpr ⟨0, firstIndex_cons_pos hmark⟩
    · rw [firstIndex_cons_neg hp] at h
      obtain ⟨j, hj, rfl⟩ := Option.map_eq_some_iff.mp h
      rw [show j + 1 + mark.length = j + mark.length + 1 by omega, List.take_succ_cons]
      obtain ⟨k, hk⟩ := Option.isSome_iff_exists.mp (ih hj)
      have hnot : ¬ mark <+: x :: s.take (j + mark.length) := by
        intro hp'
        exact hp (hp'.trans (List.cons_prefix_cons.mpr ⟨rfl, List.take_prefix _ _⟩))
      refine Option.isSome_iff_exists.mpr ⟨k + 1, ?_⟩
      rw [firstIndex_cons_neg hnot, hk, Option.map_some]

theorem firstIndex_eq_none_iff : firstIndex mark s = none ↔ ¬ mark <:+: s := by
  induction s with
  | nil =>
    rw [firstIndex, List.infix_nil]
    split
    · rename_i hmark
      exact ⟨fun h => (by cases h), fun h => absurd hmark h⟩
    · rename_i hmark
      exact ⟨fun _ => hmark, fun _ => rfl⟩
  | cons x s ih =>
    rw [List.infix_cons_iff, not_or]
    by_cases hp : mark <+: x :: s
    · rw [firstIndex_cons_pos hp]
      exact ⟨fun h => (by cases h), fun h => absurd hp h.1⟩
    · rw [firstIndex_cons_neg hp, Option.map_eq_none_iff, ih]
      exact ⟨fun h => ⟨hp, h⟩, fun h => h.2⟩

/-- In front of the first occurrence there is none. -/
theorem not_infix_take (hmark : mark ≠ []) (h : firstIndex mark s = some i) : ¬ mark <:+: s.take i := by
  intro hinfix
  cases hfound : firstIndex mark (s.take i) with
  | none => exact firstIndex_eq_none_iff.mp hfound hinfix
  | some j =>
    have hwhole := firstIndex_append (s.drop i) hfound
    rw [List.take_append_drop, h] at hwhole
    cases hwhole
    have hlength := (firstIndex_spec hfound).2
    rw [List.length_take] at hlength
    have hpositive := List.length_pos_iff.mpr hmark
    omega

end Webshot.Foundation.Occurrences
