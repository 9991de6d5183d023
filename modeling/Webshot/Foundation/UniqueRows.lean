import Mathlib.Data.List.Basic

/-! Tables with two unique columns, of which an insertion tolerates a conflict in the first only. -/
namespace Webshot.Foundation.UniqueRows
variable {ρ κ τ : Type*} [DecidableEq κ] [DecidableEq τ] (key : ρ → κ) (tag : ρ → τ)

/-- `insert … on conflict (key) do nothing`; `none` is a violation of the second column's uniqueness. -/
def insertRow (rows : List ρ) (row : ρ) : Option (List ρ) :=
  if rows.any fun other => key other = key row then some rows
  else if rows.any fun other => tag other = tag row then none
  else some (rows ++ [row])

/-- `delete … where key = k`. -/
def deleteKey (rows : List ρ) (k : κ) : List ρ := rows.filter fun row => key row ≠ k

def HasKey (rows : List ρ) (k : κ) : Prop := ∃ row ∈ rows, key row = k

/-- No two keys share a tag. -/
def TagsUnique (rows : List ρ) : Prop := ∀ a ∈ rows, ∀ b ∈ rows, tag a = tag b → key a = key b

variable {key tag} {rows rows' : List ρ} {row : ρ} {k : κ}

/-- The insertion fails exactly if the key is new and another row has the tag. -/
theorem insertRow_eq_none_iff :
    insertRow key tag rows row = none ↔ ¬ HasKey key rows (key row) ∧ ∃ other ∈ rows, tag other = tag row := by
  have hkey : (rows.any fun other => key other = key row) = true ↔ HasKey key rows (key row) := by
    simp only [List.any_eq_true, decide_eq_true_eq, HasKey]
  have htag : (rows.any fun other => tag other = tag row) = true ↔ ∃ other ∈ rows, tag other = tag row := by
    simp only [List.any_eq_true, decide_eq_true_eq]
  unfold insertRow
  split
  · rename_i hfound
    simp only [hkey.mp hfound, not_true_eq_false, false_and, reduceCtorEq]
  · rename_i hmissing
    rw [hkey] at hmissing
    split
    · rename_i htaken
      exact iff_of_true rfl ⟨hmissing, htag.mp htaken⟩
    · rename_i hfree
      rw [htag] at hfree
      simp only [hfree, and_false, reduceCtorEq]

theorem mem_of_insertRow (h : insertRow key tag rows row = some rows') {r : ρ} (hr : r ∈ rows') :
    r ∈ rows ∨ r = row := by
  unfold insertRow at h
  split at h
  · cases h
    exact .inl hr
  · split at h
    · cases h
    · cases h
      rw [List.mem_append, List.mem_singleton] at hr
      exact hr

theorem hasKey_insertRow (h : insertRow key tag rows row = some rows') :
    HasKey key rows' k ↔ HasKey key rows k ∨ key row = k := by
  unfold insertRow at h
  split at h
  · rename_i hfound
    cases h
    obtain ⟨other, hother, hkey⟩ := List.any_eq_true.mp hfound
    constructor
    · exact .inl
    · rintro (hhas | rfl)
      · exact hhas
      · exact ⟨other, hother, of_decide_eq_true hkey⟩
  · split at h
    · cases h
    · cases h
      simp only [HasKey, List.mem_append, List.mem_singleton, or_and_right, exists_or, exists_eq_left]

theorem hasKey_deleteKey {gone : κ} : HasKey key (deleteKey key rows gone) k ↔ HasKey key rows k ∧ k ≠ gone := by
  simp only [HasKey, deleteKey, List.mem_filter, decide_eq_true_eq]
  constructor
  · rintro ⟨row, ⟨hrow, hne⟩, rfl⟩
    exact ⟨⟨row, hrow, rfl⟩, hne⟩
  · rintro ⟨⟨row, hrow, rfl⟩, hne⟩
    exact ⟨row, ⟨hrow, hne⟩, rfl⟩

theorem TagsUnique.insertRow (hunique : TagsUnique key tag rows) (h : insertRow key tag rows row = some rows') :
    TagsUnique key tag rows' := by
  unfold UniqueRows.insertRow at h
  split at h
  · cases h
    exact hunique
  · split at h
    · cases h
    · rename_i hfree
      cases h
      have hnew : ∀ other ∈ rows, tag other ≠ tag row := by
        intro other hother htag
        exact hfree (List.any_eq_true.mpr ⟨other, hother, decide_eq_true htag⟩)
      intro a ha b hb htag
      rcases List.mem_append.mp ha with ha | ha
      · rcases List.mem_append.mp hb with hb | hb
        · exact hunique a ha b hb htag
        · rw [List.mem_singleton.mp hb] at htag
          exact absurd htag (hnew a ha)
      · rcases List.mem_append.mp hb with hb | hb
        · rw [List.mem_singleton.mp ha] at htag
          exact absurd htag.symm (hnew b hb)
        · rw [List.mem_singleton.mp ha, List.mem_singleton.mp hb]

omit [DecidableEq τ] in
theorem TagsUnique.deleteKey (hunique : TagsUnique key tag rows) (k : κ) :
    TagsUnique key tag (deleteKey key rows k) :=
  fun a ha b hb htag => hunique a (List.mem_of_mem_filter ha) b (List.mem_of_mem_filter hb) htag

/-- Where tags are computed from the keys, the insertion succeeds exactly if no other key of the table has the tag. -/
theorem insertRow_isSome_iff {f : κ → τ} (hunique : TagsUnique key tag rows) (htags : ∀ r ∈ rows, tag r = f (key r))
    (hrow : tag row = f (key row)) :
    (insertRow key tag rows row).isSome ↔ ∀ k, HasKey key rows k → f k = f (key row) → k = key row := by
  rw [← Option.ne_none_iff_isSome, Ne, insertRow_eq_none_iff]
  constructor
  · rintro hdone k ⟨other, hother, rfl⟩ htag
    have hshared : tag other = tag row := (htags other hother).trans (htag.trans hrow.symm)
    by_cases hhas : HasKey key rows (key row)
    · obtain ⟨same, hsame, hkey⟩ := hhas
      have hsameTag : tag other = tag same := by rw [hshared, hrow, htags same hsame, hkey]
      exact (hunique other hother same hsame hsameTag).trans hkey
    · exact absurd ⟨hhas, other, hother, hshared⟩ hdone
  · rintro hfree ⟨hnew, other, hother, htag⟩
    have htag' : f (key other) = f (key row) := by rw [← htags other hother, htag, hrow]
    exact hnew ⟨other, hother, hfree (key other) ⟨other, hother, rfl⟩ htag'⟩

end Webshot.Foundation.UniqueRows
