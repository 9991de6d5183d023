import Mathlib.Data.List.Basic
import Mathlib.Data.List.Nodup

/-! Lists of named values: assignment by a key that is read off the name, and the values of a list of names. -/
namespace Webshot.Foundation.NamedValues
variable {κ ν μ : Type}

section Assigning
variable (key : κ → μ)

def keys (pairs : List (κ × ν)) : List μ := pairs.map fun pair => key pair.1

variable {key} {pairs assigned : List (κ × ν)} {pair other : κ × ν}

theorem mem_keys {k : μ} : k ∈ keys key pairs ↔ ∃ pair ∈ pairs, key pair.1 = k := List.mem_map

theorem mem_keys_cons {k : μ} : k ∈ keys key (pair :: pairs) ↔ k = key pair.1 ∨ k ∈ keys key pairs := List.mem_cons

variable [DecidableEq μ]

/-- What had the key before is gone. -/
def assign (key : κ → μ) (pairs : List (κ × ν)) (pair : κ × ν) : List (κ × ν) :=
  pairs.filter (fun other => key other.1 ≠ key pair.1) ++ [pair]

theorem mem_assign : other ∈ assign key pairs pair ↔ (other ∈ pairs ∧ key other.1 ≠ key pair.1) ∨ other = pair := by
  rw [assign, List.mem_append, List.mem_filter, decide_eq_true_eq, List.mem_singleton]

theorem keys_assign_nodup (h : (keys key pairs).Nodup) : (keys key (assign key pairs pair)).Nodup := by
  rw [keys, assign, List.map_append, List.nodup_append']
  refine ⟨List.Nodup.sublist ((List.filter_sublist).map _) h, List.nodup_singleton _, ?_⟩
  intro k hk hpair
  obtain ⟨other, hother, rfl⟩ := List.mem_map.mp hk
  have hne := of_decide_eq_true (List.mem_filter.mp hother).2
  exact hne (List.mem_singleton.mp hpair)

theorem keys_foldl_nodup (h : (keys key pairs).Nodup) : (keys key (assigned.foldl (assign key) pairs)).Nodup := by
  induction assigned generalizing pairs with
  | nil => exact h
  | cons pair assigned ih =>
    rw [List.foldl_cons]
    apply ih
    exact keys_assign_nodup h

/-- Assignments to different keys all last, and what they do not touch stays. -/
theorem mem_foldl_assign (h : (keys key assigned).Nodup) :
    other ∈ assigned.foldl (assign key) pairs ↔ other ∈ assigned ∨ (other ∈ pairs ∧ key other.1 ∉ keys key assigned) := by
  induction assigned generalizing pairs with
  | nil =>
    rw [List.foldl_nil, keys, List.map_nil]
    simp
  | cons pair assigned ih =>
    obtain ⟨hpair, hrest⟩ := List.nodup_cons.mp h
    rw [List.foldl_cons, ih hrest, mem_assign, List.mem_cons, mem_keys_cons]
    constructor
    · rintro (hother | ⟨⟨hother, hne⟩ | rfl, hkeys⟩)
      · exact Or.inl (Or.inr hother)
      · exact Or.inr ⟨hother, not_or.mpr ⟨hne, hkeys⟩⟩
      · exact Or.inl (Or.inl rfl)
    · rintro ((rfl | hother) | ⟨hother, hkeys⟩)
      · exact Or.inr ⟨Or.inr rfl, hpair⟩
      · exact Or.inl hother
      · rw [not_or] at hkeys
        exact Or.inr ⟨Or.inl ⟨hother, hkeys.1⟩, hkeys.2⟩

theorem foldl_assign_subset (hother : other ∈ assigned.foldl (assign key) pairs) : other ∈ assigned ∨ other ∈ pairs := by
  induction assigned generalizing pairs with
  | nil => exact Or.inr hother
  | cons pair assigned ih =>
    rcases ih hother with h | h
    · exact Or.inl (List.mem_cons_of_mem pair h)
    · rcases mem_assign.mp h with ⟨h, _⟩ | rfl
      · exact Or.inr h
      · exact Or.inl List.mem_cons_self

end Assigning

section Selecting
variable {lookup : κ → Option ν} {names : List κ} {pairs : List (κ × ν)}

/-- Every name with its value. -/
def select (lookup : κ → Option ν) : List κ → Option (List (κ × ν))
  | [] => some []
  | name :: names => do
    let value ← lookup name
    let rest ← select lookup names
    return (name, value) :: rest

theorem select_eq_some : select lookup names = some pairs ↔
    pairs.map Prod.fst = names ∧ ∀ pair ∈ pairs, lookup pair.1 = some pair.2 := by
  induction names generalizing pairs with
  | nil =>
    rw [select, List.map_eq_nil_iff, Option.some_inj]
    constructor
    · rintro rfl
      exact ⟨rfl, fun _ h => absurd h List.not_mem_nil⟩
    · exact fun h => h.1.symm
  | cons name names ih =>
    rw [select]
    constructor
    · intro h
      obtain ⟨value, hvalue, h⟩ := Option.bind_eq_some_iff.mp h
      obtain ⟨rest, hrest, h⟩ := Option.bind_eq_some_iff.mp h
      cases h
      obtain ⟨rfl, hall⟩ := ih.mp hrest
      exact ⟨rfl, List.forall_mem_cons.mpr ⟨hvalue, hall⟩⟩
    · rintro ⟨hnames, hall⟩
      cases pairs with
      | nil => cases hnames
      | cons pair rest =>
        obtain ⟨rfl, hrest⟩ := List.cons.inj hnames
        obtain ⟨hvalue, hall⟩ := List.forall_mem_cons.mp hall
        rw [hvalue, ih.mpr ⟨hrest, hall⟩]
        rfl

end Selecting

end Webshot.Foundation.NamedValues
