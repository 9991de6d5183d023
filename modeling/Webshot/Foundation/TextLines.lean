import Mathlib.Data.List.DropRight
import Webshot.Foundation.Splitting

/-! The lines of a text, trimmed of white space, with the blank ones passed over. -/
namespace Webshot.Foundation.TextLines
open Foundation.Splitting
variable {α : Type*} [DecidableEq α] {sep : α} {space : α → Bool} {text a b l : List α}

def trim (space : α → Bool) (l : List α) : List α := (l.dropWhile space).rdropWhile space

/-- The lines that are not blank, trimmed. -/
def trimmedLines (sep : α) (space : α → Bool) (text : List α) : List (List α) :=
  ((text.splitOn sep).map (trim space)).filter (· ≠ [])

/-- A text that is nothing but whole lines. -/
def Ended (sep : α) (text : List α) : Prop := text = [] ∨ text.getLast? = some sep

omit [DecidableEq α] in
theorem trim_sublist : (trim space l).Sublist l :=
  (List.rdropWhile_prefix space _).sublist.trans (List.dropWhile_sublist space)

omit [DecidableEq α] in
/-- What neither begins nor ends with white space is not trimmed. -/
theorem trim_of_ends (hfirst : ∀ x ∈ l.head?, space x = false) (hlast : ∀ x ∈ l.getLast?, space x = false) :
    trim space l = l := by
  have hleft : l.dropWhile space = l := by
    cases l with
    | nil => rfl
    | cons x l =>
      apply List.dropWhile_cons_of_neg
      rw [hfirst x rfl]
      exact Bool.false_ne_true
  rw [trim, hleft, List.rdropWhile_eq_self_iff]
  intro hne
  rw [hlast _ (List.getLast?_eq_some_getLast hne)]
  exact Bool.false_ne_true

omit [DecidableEq α] in
theorem trim_trim : trim space (trim space l) = trim space l := by
  cases hl : trim space l with
  | nil => rfl
  | cons y rest =>
    rw [← hl]
    have hne : trim space l ≠ [] := by
      rw [hl]
      exact List.cons_ne_nil y rest
    apply trim_of_ends
    · intro x hx
      obtain ⟨rest, hrest⟩ : trim space l <+: l.dropWhile space := List.rdropWhile_prefix _ _
      have hhead := List.head?_dropWhile_not space l
      rw [← hrest, List.head?_append_of_ne_nil _ hne, hx] at hhead
      exact hhead
    · intro x hx
      rw [List.getLast?_eq_some_getLast hne] at hx
      cases hx
      exact Bool.eq_false_iff.mpr (List.rdropWhile_last_not _ _ hne)

theorem trimmedLines_nil : trimmedLines sep space [] = [] := by
  rw [trimmedLines, List.splitOn_nil]
  rfl

theorem trimmedLines_append_cons :
    trimmedLines sep space (a ++ sep :: b) = trimmedLines sep space a ++ trimmedLines sep space b := by
  rw [trimmedLines, List.splitOn_append_cons_self, List.map_append, List.filter_append]
  rfl

theorem trimmedLines_append (ha : Ended sep a) :
    trimmedLines sep space (a ++ b) = trimmedLines sep space a ++ trimmedLines sep space b := by
  rcases ha with rfl | hlast
  · rw [List.nil_append, trimmedLines_nil, List.nil_append]
  · obtain ⟨init, rfl⟩ := List.getLast?_eq_some_iff.mp hlast
    rw [List.append_assoc, List.singleton_append, trimmedLines_append_cons, trimmedLines_append_cons, trimmedLines_nil,
      List.append_nil]

theorem trimmedLines_line (hl : sep ∉ l) (hne : l ≠ []) (htrim : trim space l = l) :
    trimmedLines sep space (l ++ [sep]) = [l] := by
  rw [trimmedLines_append_cons, trimmedLines_nil, List.append_nil, trimmedLines, List.splitOn_eq_singleton hl,
    List.map_singleton, htrim, List.filter_singleton, decide_eq_true hne, cond_true]

theorem mem_trimmedLines (h : l ∈ trimmedLines sep space text) : sep ∉ l ∧ l ≠ [] ∧ trim space l = l := by
  obtain ⟨hl, hne⟩ := List.mem_filter.mp h
  obtain ⟨line, hline, rfl⟩ := List.mem_map.mp hl
  exact ⟨fun hsep => (mem_splitOn hline).1 (trim_sublist.subset hsep), of_decide_eq_true hne, trim_trim⟩

omit [DecidableEq α] in
theorem ended_flatMap (lines : List (List α)) : Ended sep (lines.flatMap (· ++ [sep])) := by
  cases lines using List.reverseRecOn with
  | nil => exact Or.inl rfl
  | append_singleton lines line =>
    refine Or.inr ?_
    rw [List.flatMap_append, List.flatMap_singleton, ← List.append_assoc, List.getLast?_concat]

/-- Lines that were trimmed, written one below the other, are the lines of the text they make up. -/
theorem trimmedLines_flatMap {lines : List (List α)}
    (h : ∀ l ∈ lines, sep ∉ l ∧ l ≠ [] ∧ trim space l = l) :
    trimmedLines sep space (lines.flatMap (· ++ [sep])) = lines := by
  induction lines with
  | nil => exact trimmedLines_nil
  | cons line lines ih =>
    obtain ⟨hsep, hne, htrim⟩ := h line List.mem_cons_self
    rw [List.flatMap_cons, trimmedLines_append (Or.inr List.getLast?_concat), trimmedLines_line hsep hne htrim,
      ih fun l hl => h l (List.mem_cons_of_mem _ hl), List.singleton_append]

/-- A text loses nothing of its lines when they are trimmed and written anew. -/
theorem trimmedLines_rewritten (sep : α) (space : α → Bool) (text : List α) :
    trimmedLines sep space ((trimmedLines sep space text).flatMap (· ++ [sep])) = trimmedLines sep space text :=
  trimmedLines_flatMap fun _ hl => mem_trimmedLines hl

/-! How the lines of a text relate to the text trimmed as a whole. -/

omit [DecidableEq α] in
theorem trim_eq_nil_iff : trim space l = [] ↔ ∀ x ∈ l, space x = true := by
  rw [trim, List.rdropWhile_eq_nil_iff]
  constructor
  · intro h
    refine List.dropWhile_eq_nil_iff.mp (List.eq_nil_iff_forall_not_mem.mpr fun x hx => ?_)
    have hne : l.dropWhile space ≠ [] := List.ne_nil_of_mem hx
    have hhead := List.head_dropWhile_not space hne
    rw [h _ (List.head_mem hne)] at hhead
    cases hhead
  · intro h x hx
    exact h x ((List.dropWhile_sublist space).subset hx)

omit [DecidableEq α] in
theorem trim_append_of_blank_left (ha : ∀ x ∈ a, space x = true) : trim space (a ++ b) = trim space b := by
  rw [trim, List.dropWhile_append_of_pos ha]
  rfl

omit [DecidableEq α] in
private theorem rdropWhile_append_of_blank (hb : ∀ x ∈ b, space x = true) :
    (a ++ b).rdropWhile space = a.rdropWhile space := by
  rw [List.rdropWhile, List.reverse_append,
    List.dropWhile_append_of_pos fun x hx => hb x (List.mem_reverse.mp hx)]
  rfl

omit [DecidableEq α] in
private theorem rdropWhile_append_of_ne (hb : b.rdropWhile space ≠ []) :
    (a ++ b).rdropWhile space = a ++ b.rdropWhile space := by
  have hb' : (b.reverse.dropWhile space).isEmpty = false := by
    rw [List.isEmpty_eq_false_iff]
    exact fun h => hb (by rw [List.rdropWhile, h, List.reverse_nil])
  rw [List.rdropWhile, List.reverse_append, List.dropWhile_append, if_neg (by rw [hb']; exact Bool.false_ne_true),
    List.reverse_append, List.reverse_reverse]
  rfl

omit [DecidableEq α] in
private theorem dropWhile_append_of_ne (ha : a.dropWhile space ≠ []) :
    (a ++ b).dropWhile space = a.dropWhile space ++ b := by
  rw [List.dropWhile_append, if_neg (by simpa using ha)]

omit [DecidableEq α] in
theorem trim_append_of_blank_right (hb : ∀ x ∈ b, space x = true) : trim space (a ++ b) = trim space a := by
  by_cases ha : a.dropWhile space = []
  · have hall : ∀ x ∈ a, space x = true := List.dropWhile_eq_nil_iff.mp ha
    rw [trim_append_of_blank_left hall, trim_eq_nil_iff.mpr hall, trim_eq_nil_iff.mpr hb]
  · rw [trim, dropWhile_append_of_ne ha, rdropWhile_append_of_blank hb]
    rfl

omit [DecidableEq α] in
/-- What stands between two parts that are not blank is not trimmed. -/
theorem mem_trim_append_cons {x : α} (ha : trim space a ≠ []) (hb : trim space b ≠ []) :
    x ∈ trim space (a ++ x :: b) := by
  have ha' : a.dropWhile space ≠ [] := fun h => ha (trim_eq_nil_iff.mpr (List.dropWhile_eq_nil_iff.mp h))
  have hb' : (x :: b).rdropWhile space ≠ [] := by
    intro h
    refine hb (trim_eq_nil_iff.mpr fun y hy => ?_)
    exact List.rdropWhile_eq_nil_iff.mp h y (List.mem_cons_of_mem x hy)
  rw [trim, dropWhile_append_of_ne ha', rdropWhile_append_of_ne hb']
  refine List.mem_append_right _ ?_
  obtain ⟨y, rest, hrest⟩ := List.exists_cons_of_ne_nil hb'
  have hprefix := List.rdropWhile_prefix space (x :: b)
  rw [hrest] at hprefix ⊢
  rw [(List.cons_prefix_cons.mp hprefix).1]
  exact List.mem_cons_self

theorem trimmedLines_of_notMem (h : sep ∉ text) :
    trimmedLines sep space text = if trim space text = [] then [] else [trim space text] := by
  rw [trimmedLines, List.splitOn_eq_singleton h, List.map_singleton, List.filter_singleton]
  by_cases hne : trim space text = []
  · rw [if_pos hne, hne]
    rfl
  · rw [if_neg hne, decide_eq_true hne, cond_true]

omit [DecidableEq α] in
private theorem trim_blank_cons (hspace : space sep = true) (ha : trim space a = []) :
    trim space (a ++ sep :: b) = trim space b := by
  have hall : ∀ x ∈ a ++ [sep], space x = true := by
    intro x hx
    rcases List.mem_append.mp hx with hx | hx
    · exact trim_eq_nil_iff.mp ha x hx
    · exact List.mem_singleton.mp hx ▸ hspace
  have htrim := trim_append_of_blank_left (b := b) hall
  rwa [List.append_assoc, List.singleton_append] at htrim

omit [DecidableEq α] in
private theorem trim_cons_blank (hspace : space sep = true) (hb : trim space b = []) :
    trim space (a ++ sep :: b) = trim space a := by
  apply trim_append_of_blank_right
  rw [List.forall_mem_cons]
  exact ⟨hspace, trim_eq_nil_iff.mp hb⟩

/-- Trimmed as a whole, a text still holds a separator, or it is the one line it has. -/
theorem mem_trim_or_eq (hspace : space sep = true) (text : List α) :
    sep ∈ trim space text ∧ 2 ≤ (trimmedLines sep space text).length ∨
      sep ∉ trim space text ∧
        trimmedLines sep space text = if trim space text = [] then [] else [trim space text] := by
  induction hlength : text.length using Nat.strong_induction_on generalizing text with
  | _ n ih =>
    subst hlength
    by_cases hmem : sep ∈ text
    · obtain ⟨a, b, rfl, ha⟩ := List.eq_append_cons_of_mem hmem
      have hrest := ih b.length (by rw [List.length_append, List.length_cons]; omega) b rfl
      rw [trimmedLines_append_cons, trimmedLines_of_notMem ha]
      by_cases hblank : trim space a = []
      · rw [if_pos hblank, List.nil_append, trim_blank_cons hspace hblank]
        exact hrest
      · rw [if_neg hblank]
        by_cases hb : trim space b = []
        · refine Or.inr ?_
          rw [hb, if_pos rfl] at hrest
          rw [trim_cons_blank hspace hb, if_neg hblank, (hrest.resolve_left fun h => List.not_mem_nil h.1).2,
            List.append_nil]
          exact ⟨fun h => ha (trim_sublist.subset h), rfl⟩
        · refine Or.inl ⟨mem_trim_append_cons hblank hb, ?_⟩
          rw [if_neg hb] at hrest
          rw [List.length_append, List.length_singleton]
          rcases hrest with ⟨_, h⟩ | ⟨_, h⟩
          · omega
          · rw [h, List.length_singleton]
    · exact Or.inr ⟨fun h => hmem (trim_sublist.subset h), trimmedLines_of_notMem hmem⟩

/-- Two texts with the same lines are the same when trimmed as a whole, or both have more than one line. -/
theorem trim_eq_or_mem (hspace : space sep = true) (h : trimmedLines sep space a = trimmedLines sep space b) :
    trim space a = trim space b ∨ sep ∈ trim space a ∧ sep ∈ trim space b := by
  have hone (l : List α) : (if l = [] then [] else [l]).length ≤ 1 := by
    split
    · exact Nat.zero_le 1
    · exact le_refl 1
  rcases mem_trim_or_eq hspace a with ⟨ha, hla⟩ | ⟨_, hla⟩
  · rcases mem_trim_or_eq hspace b with ⟨hb, _⟩ | ⟨_, hlb⟩
    · exact Or.inr ⟨ha, hb⟩
    · rw [h, hlb] at hla
      exact absurd (hla.trans (hone _)) (by decide)
  · rcases mem_trim_or_eq hspace b with ⟨_, hlb⟩ | ⟨_, hlb⟩
    · rw [← h, hla] at hlb
      exact absurd (hlb.trans (hone _)) (by decide)
    · rw [hla, hlb] at h
      have hflat (l : List α) : (if l = [] then [] else [l]).flatten = l := by
        split
        · exact (‹l = []›).symm
        · exact List.flatten_singleton
      exact Or.inl ((hflat _).symm.trans ((congrArg List.flatten h).trans (hflat _)))

end Webshot.Foundation.TextLines
