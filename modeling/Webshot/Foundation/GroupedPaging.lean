import Mathlib.Data.List.Infix
import Mathlib.Data.List.Nodup
import Mathlib.Data.List.Dedup
import Mathlib.Data.List.Perm.Subperm
import Mathlib.Tactic.Linarith

/-! Two-level paging of keyed groups of rows: a page shows up to `n` groups and up to `m` rows of
each, and only the last group of a page can be continued on the next one. -/
namespace Webshot.Foundation.GroupedPaging
variable {κ ρ : Type*} {n m : Nat}

abbrev Groups (κ ρ : Type*) := List (κ × List ρ)

/-- The rows of all groups in order, each under its key. -/
def flat (gs : Groups κ ρ) : List (κ × ρ) := gs.flatMap fun g => g.2.map fun r => (g.1, r)

/-- The head of a group: its first `m` rows. -/
def top (m : Nat) (g : κ × List ρ) : κ × List ρ := (g.1, g.2.take m)

def page (n m : Nat) (gs : Groups κ ρ) : Groups κ ρ := (gs.take n).map (top m)

/-- What is left after a page: the last visible group if it has more rows, then the groups that
did not fit. Further rows of the other visible groups are given up. -/
def rest (n m : Nat) (gs : Groups κ ρ) : Groups κ ρ :=
  match (gs.take n).getLast? with
  | some g => if m < g.2.length then (g.1, g.2.drop m) :: gs.drop n else gs.drop n
  | none => []

/-- The pages met by following `rest` to its end. -/
inductive Walk (n m : Nat) : Groups κ ρ → List (Groups κ ρ) → Prop where
  | last {gs : Groups κ ρ} : rest n m gs = [] → Walk n m gs [page n m gs]
  | more {gs : Groups κ ρ} {ps : List (Groups κ ρ)} : rest n m gs ≠ [] → Walk n m (rest n m gs) ps →
      Walk n m gs (page n m gs :: ps)

@[simp] theorem flat_nil : flat ([] : Groups κ ρ) = [] := rfl

@[simp] theorem flat_cons (g : κ × List ρ) (gs : Groups κ ρ) :
    flat (g :: gs) = g.2.map (fun r => (g.1, r)) ++ flat gs := rfl

@[simp] theorem flat_append (a b : Groups κ ρ) : flat (a ++ b) = flat a ++ flat b := List.flatMap_append

theorem mem_flat {gs : Groups κ ρ} {k : κ} {r : ρ} : (k, r) ∈ flat gs ↔ ∃ rows, (k, rows) ∈ gs ∧ r ∈ rows := by
  simp only [flat, List.mem_flatMap, List.mem_map, Prod.mk.injEq]
  constructor
  · rintro ⟨⟨k', rows⟩, hg, r', hr, rfl, rfl⟩
    exact ⟨rows, hg, hr⟩
  · rintro ⟨rows, hg, hr⟩
    exact ⟨(k, rows), hg, r, hr, rfl, rfl⟩

/-- A relation holds along the listing if it holds within each group and between any two groups. -/
theorem flat_pairwise {R : κ × ρ → κ × ρ → Prop} {gs : Groups κ ρ}
    (hin : ∀ g ∈ gs, g.2.Pairwise fun a b => R (g.1, a) (g.1, b))
    (hout : gs.Pairwise fun g g' => ∀ a b, R (g.1, a) (g'.1, b)) : (flat gs).Pairwise R := by
  induction hout with
  | nil => exact List.Pairwise.nil
  | @cons g gs hg _ ih =>
    rw [flat_cons, List.pairwise_append, List.pairwise_map]
    refine ⟨hin g List.mem_cons_self, ih fun g' hg' => hin g' (List.mem_cons_of_mem _ hg'), ?_⟩
    rintro x hx ⟨k, b⟩ hy
    obtain ⟨a, _, rfl⟩ := List.mem_map.mp hx
    obtain ⟨rows, hrows, _⟩ := mem_flat.mp hy
    exact hg (k, rows) hrows a b

theorem flat_top_sublist (gs : Groups κ ρ) : (flat (gs.map (top m))).Sublist (flat gs) := by
  induction gs with
  | nil => exact List.Sublist.refl _
  | cons g gs ih => exact ((List.take_sublist m g.2).map _).append ih

/-- The visible groups end in one group; everything else is left of it or did not fit. -/
theorem visible_split (hn : 0 < n) {gs : Groups κ ρ} (hgs : gs ≠ []) :
    ∃ init g, gs.take n = init ++ [g] ∧ gs = init ++ g :: gs.drop n := by
  have hne : gs.take n ≠ [] := by
    intro h
    rcases List.take_eq_nil_iff.mp h with h | h
    · omega
    · exact hgs h
  refine ⟨(gs.take n).dropLast, (gs.take n).getLast hne, (List.dropLast_append_getLast hne).symm, ?_⟩
  rw [← List.singleton_append, ← List.append_assoc, List.dropLast_append_getLast hne, List.take_append_drop]

theorem rest_of_split {gs a : Groups κ ρ} {g : κ × List ρ} (h : gs.take n = a ++ [g]) :
    rest n m gs = if m < g.2.length then (g.1, g.2.drop m) :: gs.drop n else gs.drop n := by
  simp only [rest, h, List.getLast?_append, List.getLast?_singleton, Option.some_or]

theorem page_of_split {gs a : Groups κ ρ} {g : κ × List ρ} (h : gs.take n = a ++ [g]) :
    page n m gs = a.map (top m) ++ [top m g] := by
  simp only [page, h, List.map_append, List.map_cons, List.map_nil]

theorem rest_nil : rest n m ([] : Groups κ ρ) = [] := by
  simp [rest]

/-- A page and what is left of it occur, in this order and without overlap, in the listing. -/
theorem page_rest_sublist (hn : 0 < n) (gs : Groups κ ρ) :
    (flat (page n m gs) ++ flat (rest n m gs)).Sublist (flat gs) := by
  by_cases hgs : gs = []
  · subst hgs
    simp [page, rest]
  · obtain ⟨init, g, ht, he⟩ := visible_split hn hgs
    rw [page_of_split ht, rest_of_split ht]
    conv_rhs => rw [he]
    simp only [flat_append, flat_cons, flat_nil, List.append_nil, List.append_assoc]
    apply (flat_top_sublist init).append
    split
    · rw [flat_cons, ← List.append_assoc, top, ← List.map_append, List.take_append_drop]
    · rename_i hm
      rw [top, List.take_of_length_le (by omega)]

/-- What `rest` keeps of the listing shows on every page. -/
theorem walk_pages {gs : Groups κ ρ} {ps : List (Groups κ ρ)} (h : Walk n m gs ps) {Q P : Groups κ ρ → Prop}
    (hrest : ∀ gs, Q gs → Q (rest n m gs)) (hpage : ∀ gs, Q gs → P (page n m gs)) (hgs : Q gs) : ∀ p ∈ ps, P p := by
  induction h with
  | last _ =>
    intro p hp
    rw [List.mem_singleton.mp hp]
    exact hpage _ hgs
  | more _ _ ih =>
    intro p hp
    rcases List.mem_cons.mp hp with rfl | hp
    · exact hpage _ hgs
    · exact ih (hrest _ hgs) p hp

theorem walk_sublist (hn : 0 < n) {gs : Groups κ ρ} {ps : List (Groups κ ρ)} (h : Walk n m gs ps) :
    (ps.flatMap flat).Sublist (flat gs) := by
  induction h with
  | @last gs hr =>
    have hs := page_rest_sublist (m := m) hn gs
    rw [hr, flat_nil, List.append_nil] at hs
    simpa using hs
  | @more gs ps _ _ ih =>
    rw [List.flatMap_cons]
    exact ((List.Sublist.refl _).append ih).trans (page_rest_sublist hn gs)

/-- No group is empty. -/
def Populated (gs : Groups κ ρ) : Prop := ∀ g ∈ gs, g.2 ≠ []

theorem mem_rest {gs : Groups κ ρ} {g : κ × List ρ} (hg : g ∈ rest n m gs) :
    g ∈ gs ∨ ∃ g' ∈ gs, m < g'.2.length ∧ g = (g'.1, g'.2.drop m) := by
  unfold rest at hg
  split at hg
  · rename_i last hlast
    have hmem : last ∈ gs := List.mem_of_mem_take (List.mem_of_getLast? hlast)
    split at hg
    · rename_i hm
      rcases List.mem_cons.mp hg with rfl | hg
      · exact Or.inr ⟨last, hmem, hm, rfl⟩
      · exact Or.inl (List.mem_of_mem_drop hg)
    · exact Or.inl (List.mem_of_mem_drop hg)
  · exact absurd hg List.not_mem_nil

theorem pairwise_rest {lt : ρ → ρ → Prop} {gs : Groups κ ρ} (hs : ∀ g ∈ gs, g.2.Pairwise lt) :
    ∀ g ∈ rest n m gs, g.2.Pairwise lt := by
  intro g hg
  rcases mem_rest hg with hg | ⟨g', hg', _, rfl⟩
  · exact hs g hg
  · exact (hs g' hg').sublist (List.drop_sublist m g'.2)

theorem Populated.rest {gs : Groups κ ρ} (h : Populated gs) : Populated (rest n m gs) := by
  intro g hg
  rcases mem_rest hg with hg | ⟨g', _, hm, rfl⟩
  · exact h g hg
  · exact List.length_pos_iff.mp (by rw [List.length_drop]; omega)

theorem Populated.page_ne_nil (hn : 0 < n) (hm : 0 < m) {gs : Groups κ ρ} (h : Populated gs) (hgs : gs ≠ []) :
    flat (page n m gs) ≠ [] := by
  obtain ⟨init, g, ht, he⟩ := visible_split hn hgs
  rw [page_of_split ht, flat_append, flat_cons]
  refine List.append_ne_nil_of_right_ne_nil _ (List.append_ne_nil_of_left_ne_nil (fun hmap => ?_) _)
  have hg : g ∈ gs := by rw [he]; exact List.mem_append_right _ List.mem_cons_self
  rcases List.take_eq_nil_iff.mp (List.map_eq_nil_iff.mp hmap) with h0 | h0
  · omega
  · exact h g hg h0

/-- Every walk ends: each page uses up at least one row. -/
theorem exists_walk (hn : 0 < n) (hm : 0 < m) (gs : Groups κ ρ) (h : Populated gs) : ∃ ps, Walk n m gs ps := by
  induction hlen : (flat gs).length using Nat.strong_induction_on generalizing gs with
  | _ len ih =>
    by_cases hr : rest n m gs = []
    · exact ⟨_, .last hr⟩
    · have hgs : gs ≠ [] := by
        rintro rfl
        exact hr rest_nil
      have hpos := List.length_pos_iff.mpr (h.page_ne_nil hn hm hgs)
      have hle := (page_rest_sublist (m := m) hn gs).length_le
      rw [List.length_append] at hle
      obtain ⟨ps, hps⟩ := ih _ (by omega) (rest n m gs) h.rest rfl
      exact ⟨_, .more hr hps⟩

/-- Every group is met by the walk, with at least its first `m` rows. -/
theorem walk_top_mem (hn : 0 < n) {gs : Groups κ ρ} {ps : List (Groups κ ρ)} (h : Walk n m gs ps)
    {g : κ × List ρ} (hg : g ∈ gs) {r : ρ} (hr : r ∈ g.2.take m) : (g.1, r) ∈ ps.flatMap flat := by
  have hshow {gs : Groups κ ρ} (hg : g ∈ gs.take n) : (g.1, r) ∈ flat (page n m gs) :=
    mem_flat.mpr ⟨_, List.mem_map_of_mem hg, hr⟩
  have hdrop {gs : Groups κ ρ} (hg : g ∈ gs) : g ∈ gs.take n ∨ g ∈ rest n m gs := by
    obtain ⟨init, last, ht, he⟩ := visible_split hn (List.ne_nil_of_mem hg)
    rw [← List.take_append_drop n gs] at hg
    rcases List.mem_append.mp hg with hg | hg
    · exact Or.inl hg
    · right
      rw [rest_of_split ht]
      split
      · exact List.mem_cons_of_mem _ hg
      · exact hg
  induction h with
  | last hr0 =>
    rcases hdrop hg with hg | hg
    · simpa using hshow hg
    · rw [hr0] at hg
      exact absurd hg List.not_mem_nil
  | more _ _ ih =>
    rcases hdrop hg with hg | hg
    · exact List.mem_append_left _ (hshow hg)
    · exact List.mem_append_right _ (ih hg)

/-- A row is shown unless it stands behind `m` shown rows of a group that is not the last of its page. -/
theorem walk_mem_or_cut (hn : 0 < n) {lt : ρ → ρ → Prop} {gs : Groups κ ρ} {ps : List (Groups κ ρ)}
    (h : Walk n m gs ps) (hs : ∀ g ∈ gs, g.2.Pairwise lt) {k : κ} {r : ρ} (hx : (k, r) ∈ flat gs) :
    (k, r) ∈ ps.flatMap flat ∨
      ∃ p ∈ ps, ∃ rows, (k, rows) ∈ p.dropLast ∧ rows.length = m ∧ ∀ x ∈ rows, lt x r := by
  have hcase {gs : Groups κ ρ} (hs : ∀ g ∈ gs, g.2.Pairwise lt) (hx : (k, r) ∈ flat gs) :
      (k, r) ∈ flat (page n m gs) ∨ (k, r) ∈ flat (rest n m gs) ∨
        ∃ rows, (k, rows) ∈ (page n m gs).dropLast ∧ rows.length = m ∧ ∀ x ∈ rows, lt x r := by
    have hgs : gs ≠ [] := by
      rintro rfl
      exact absurd hx List.not_mem_nil
    obtain ⟨init, g, ht, he⟩ := visible_split hn hgs
    rw [he, flat_append, flat_cons] at hx
    rw [page_of_split ht, rest_of_split ht, List.dropLast_concat]
    rcases List.mem_append.mp hx with hx | hx
    · obtain ⟨rows, hrows, hr⟩ := mem_flat.mp hx
      have hpair : (rows.take m ++ rows.drop m).Pairwise lt := by
        rw [List.take_append_drop]
        exact hs (k, rows) (by rw [he]; exact List.mem_append_left _ hrows)
      rw [← List.take_append_drop m rows] at hr
      have htop : (k, rows.take m) ∈ init.map (top m) := List.mem_map_of_mem (f := top m) hrows
      rcases List.mem_append.mp hr with hr | hr
      · exact Or.inl (by rw [flat_append]; exact List.mem_append_left _ (mem_flat.mpr ⟨_, htop, hr⟩))
      · right; right
        refine ⟨_, htop, ?_, fun x hx => (List.pairwise_append.mp hpair).2.2 x hx r hr⟩
        have hpos := List.length_pos_of_mem hr
        rw [List.length_drop] at hpos
        rw [List.length_take]
        omega
    · rcases List.mem_append.mp hx with hx | hx
      · obtain ⟨r', hr', heq⟩ := List.mem_map.mp hx
        cases heq
        rw [← List.take_append_drop m g.2] at hr'
        rcases List.mem_append.mp hr' with hr' | hr'
        · left
          rw [flat_append]
          exact List.mem_append_right _ (mem_flat.mpr ⟨_, List.mem_singleton_self _, hr'⟩)
        · right; left
          have hpos := List.length_pos_of_mem hr'
          rw [List.length_drop] at hpos
          rw [if_pos (by omega), flat_cons]
          exact List.mem_append_left _ (List.mem_map_of_mem hr')
      · right; left
        split
        · exact List.mem_append_right _ hx
        · exact hx
  induction h with
  | last hr0 =>
    rcases hcase hs hx with h | h | h
    · exact Or.inl (by simpa using h)
    · rw [hr0] at h
      exact absurd h List.not_mem_nil
    · exact Or.inr ⟨_, List.mem_singleton_self _, h⟩
  | @more gs ps _ _ ih =>
    rcases hcase hs hx with h | h | h
    · exact Or.inl (List.mem_append_left _ h)
    · rcases ih (pairwise_rest hs) h with h | ⟨p, hp, h⟩
      · exact Or.inl (List.mem_append_right _ h)
      · exact Or.inr ⟨p, List.mem_cons_of_mem _ hp, h⟩
    · exact Or.inr ⟨_, List.mem_cons_self, h⟩

def keys (gs : Groups κ ρ) : List κ := gs.map Prod.fst

theorem mem_keys_of_flat {gs : Groups κ ρ} {k : κ} {r : ρ} (h : (k, r) ∈ flat gs) : k ∈ keys gs := by
  obtain ⟨rows, hg, _⟩ := mem_flat.mp h
  exact List.mem_map.mpr ⟨_, hg, rfl⟩

theorem keys_top (gs : Groups κ ρ) : keys (gs.map (top m)) = keys gs := by
  rw [keys, keys, List.map_map]
  rfl

theorem keys_page (gs : Groups κ ρ) : keys (page n m gs) = keys (gs.take n) := keys_top _

/-- The keys left are those that did not fit, after the last visible one if it goes on. -/
theorem keys_rest_sublist {gs : Groups κ ρ} {init : Groups κ ρ} {g : κ × List ρ}
    (ht : gs.take n = init ++ [g]) : (keys (rest n m gs)).Sublist (g.1 :: keys (gs.drop n)) := by
  rw [rest_of_split ht]
  split
  · exact List.Sublist.refl _
  · exact List.sublist_cons_self _ _

theorem keys_rest_nodup (hn : 0 < n) {gs : Groups κ ρ} (h : (keys gs).Nodup) : (keys (rest n m gs)).Nodup := by
  by_cases hgs : gs = []
  · subst hgs
    simp [rest, keys]
  · obtain ⟨init, g, ht, he⟩ := visible_split hn hgs
    rw [he, keys, List.map_append] at h
    exact (List.Nodup.of_append_right h).sublist (keys_rest_sublist (m := m) ht)

theorem eq_of_key_mem {gs : Groups κ ρ} (h : (keys gs).Nodup) {k : κ} {a b : List ρ} (ha : (k, a) ∈ gs)
    (hb : (k, b) ∈ gs) : a = b := by
  have := List.inj_on_of_nodup_map h ha hb rfl
  exact (Prod.mk.inj this).2

/-- A group that is not the last of its page is not met again. -/
theorem key_not_mem_rest (hn : 0 < n) {gs : Groups κ ρ} (h : (keys gs).Nodup) {k : κ} {rows : List ρ}
    (hk : (k, rows) ∈ (page n m gs).dropLast) : k ∉ keys (rest n m gs) := by
  have hgs : gs ≠ [] := by
    rintro rfl
    simp [page] at hk
  obtain ⟨init, g, ht, he⟩ := visible_split hn hgs
  rw [page_of_split ht, List.dropLast_concat] at hk
  have hinit : k ∈ keys init := by
    rw [← keys_top (m := m)]
    exact List.mem_map.mpr ⟨_, hk, rfl⟩
  rw [he, keys, List.map_append, List.map_cons] at h
  intro hrest
  exact (List.nodup_append.mp h).2.2 k hinit k ((keys_rest_sublist (m := m) ht).subset hrest) rfl

/-- Of one key, the rows of a page come before the rows left. -/
theorem page_rest_pairwise (hn : 0 < n) {lt : ρ → ρ → Prop} {gs : Groups κ ρ} (hk : (keys gs).Nodup)
    (hs : ∀ g ∈ gs, g.2.Pairwise lt) {k : κ} {a b : ρ} (ha : (k, a) ∈ flat (page n m gs))
    (hb : (k, b) ∈ flat (rest n m gs)) : lt a b := by
  have hflat : (flat gs).Pairwise fun x y => x.1 = y.1 → lt x.2 y.2 := by
    apply flat_pairwise
    · intro g hg
      exact List.Pairwise.imp (fun {_ _} hab (_ : g.1 = g.1) => hab) (hs g hg)
    · exact (List.pairwise_map.mp hk).imp fun hne _ _ heq => absurd heq hne
  exact (List.pairwise_append.mp (hflat.sublist (page_rest_sublist hn gs))).2.2 _ ha _ hb rfl

/-- A row behind `m` shown rows of a group that is not the last of its page is never shown. -/
theorem walk_not_mem_of_cut (hn : 0 < n) (hm : 0 < m) {lt : ρ → ρ → Prop} (hlt : ∀ a b, lt a b → ¬ lt b a)
    {gs : Groups κ ρ} {ps : List (Groups κ ρ)} (h : Walk n m gs ps) (hk : (keys gs).Nodup)
    (hs : ∀ g ∈ gs, g.2.Pairwise lt) {k : κ} {r : ρ} {p : Groups κ ρ} (hp : p ∈ ps) {rows : List ρ}
    (hcut : (k, rows) ∈ p.dropLast) (hlen : rows.length = m) (hlts : ∀ x ∈ rows, lt x r) :
    (k, r) ∉ ps.flatMap flat := by
  have hshown {gs : Groups κ ρ} (hk : (keys gs).Nodup) (hcut : (k, rows) ∈ (page n m gs).dropLast) :
      (k, r) ∉ flat (page n m gs) := by
    intro hx
    obtain ⟨rows', hrows', hr⟩ := mem_flat.mp hx
    have hnd : (keys (page n m gs)).Nodup := by
      rw [keys_page]
      exact hk.sublist ((List.take_sublist n gs).map _)
    have heq := eq_of_key_mem hnd hrows' (List.dropLast_subset _ hcut)
    subst heq
    exact hlt r r (hlts r hr) (hlts r hr)
  induction h with
  | @last gs hr0 =>
    rw [List.mem_singleton.mp hp] at hcut
    simpa using hshown hk hcut
  | @more gs ps hr0 hw ih =>
    rw [List.flatMap_cons, List.mem_append, not_or]
    rcases List.mem_cons.mp hp with rfl | hp
    · refine ⟨hshown hk hcut, fun hx => ?_⟩
      exact key_not_mem_rest hn hk hcut (mem_keys_of_flat ((walk_sublist hn hw).subset hx))
    · refine ⟨fun hx => ?_, ih (keys_rest_nodup hn hk) (pairwise_rest hs) hp⟩
      have hpos : 0 < rows.length := by omega
      obtain ⟨x, hxr⟩ := List.exists_mem_of_length_pos hpos
      have hxlater : (k, x) ∈ flat (rest n m gs) := by
        apply (walk_sublist hn hw).subset
        exact List.mem_flatMap.mpr ⟨p, hp, mem_flat.mpr ⟨rows, List.dropLast_subset _ hcut, hxr⟩⟩
      have hsorted := page_rest_pairwise (m := m) hn hk hs hx hxlater
      exact hlt r x hsorted (hlts x hxr)

/-- On every page of a walk the keys are distinct and no group is empty. -/
theorem walk_page_groups (hn : 0 < n) (hm : 0 < m) {gs : Groups κ ρ} {ps : List (Groups κ ρ)} (h : Walk n m gs ps)
    (hk : (keys gs).Nodup) (hgs : Populated gs) : ∀ p ∈ ps, (keys p).Nodup ∧ Populated p := by
  refine walk_pages h (Q := fun gs => (keys gs).Nodup ∧ Populated gs)
    (fun gs hgs => ⟨keys_rest_nodup hn hgs.1, hgs.2.rest⟩) (fun gs hgs => ⟨?_, ?_⟩) ⟨hk, hgs⟩
  · rw [keys_page]
    exact hgs.1.sublist ((List.take_sublist n gs).map _)
  · intro g hg
    obtain ⟨g', hg', rfl⟩ := List.mem_map.mp hg
    intro h0
    rcases List.take_eq_nil_iff.mp h0 with h0 | h0
    · omega
    · exact hgs.2 g' (List.mem_of_mem_take hg') h0

section Bounds
variable [DecidableEq κ]

theorem flat_keys_le (gs : Groups κ ρ) : ((flat gs).map Prod.fst).dedup.length ≤ gs.length := by
  have hsub : ((flat gs).map Prod.fst).dedup ⊆ keys gs := by
    intro k hk
    obtain ⟨⟨k', r⟩, hx, rfl⟩ := List.mem_map.mp (List.mem_dedup.mp hk)
    exact mem_keys_of_flat hx
  calc ((flat gs).map Prod.fst).dedup.length
    _ ≤ (keys gs).length := (List.subperm_of_subset (List.nodup_dedup _) hsub).length_le
    _ = gs.length := List.length_map _

theorem flat_filter_of_notMem {gs : Groups κ ρ} {k : κ} (hk : k ∉ keys gs) : (flat gs).filter (·.1 = k) = [] := by
  rw [List.filter_eq_nil_iff]
  rintro ⟨k', r⟩ hx
  have hne : k' ≠ k := by
    rintro rfl
    exact hk (mem_keys_of_flat hx)
  simpa using hne

/-- The rows listed under a key are those of its group. -/
theorem flat_filter_key {gs : Groups κ ρ} (hk : (keys gs).Nodup) {k : κ} {rows : List ρ} (hg : (k, rows) ∈ gs) :
    (flat gs).filter (·.1 = k) = rows.map fun r => (k, r) := by
  induction gs with
  | nil => exact absurd hg List.not_mem_nil
  | cons g gs ih =>
    rw [keys, List.map_cons, List.nodup_cons] at hk
    rw [flat_cons, List.filter_append]
    rcases List.mem_cons.mp hg with rfl | hg
    · rw [flat_filter_of_notMem hk.1, List.append_nil, List.filter_eq_self]
      intro x hx
      obtain ⟨r, _, rfl⟩ := List.mem_map.mp hx
      exact decide_eq_true rfl
    · have hne : g.1 ≠ k := by
        rintro rfl
        exact hk.1 (List.mem_map.mpr ⟨_, hg, rfl⟩)
      have hnil : (g.2.map fun r => (g.1, r)).filter (·.1 = k) = [] := by
        rw [List.filter_eq_nil_iff]
        intro x hx
        obtain ⟨r, _, rfl⟩ := List.mem_map.mp hx
        simpa using hne
      rw [hnil, List.nil_append]
      exact ih hk.2 hg

theorem flat_filter_key_le {gs : Groups κ ρ} (hk : (keys gs).Nodup) (hlen : ∀ g ∈ gs, g.2.length ≤ m) (k : κ) :
    ((flat gs).filter (·.1 = k)).length ≤ m := by
  by_cases hmem : k ∈ keys gs
  · obtain ⟨⟨_, rows⟩, hg, rfl⟩ := List.mem_map.mp hmem
    rw [flat_filter_key hk hg, List.length_map]
    exact hlen _ hg
  · rw [flat_filter_of_notMem hmem]
    exact Nat.zero_le m

/-- A page shows at most `n` keys and at most `m` rows of each. -/
theorem page_bounds {gs : Groups κ ρ} (hk : (keys gs).Nodup) :
    ((flat (page n m gs)).map Prod.fst).dedup.length ≤ n ∧
      ∀ k, ((flat (page n m gs)).filter (·.1 = k)).length ≤ m := by
  constructor
  · refine (flat_keys_le _).trans ?_
    rw [page, List.length_map]
    exact List.length_take_le n gs
  · apply flat_filter_key_le
    · rw [keys_page]
      exact hk.sublist ((List.take_sublist n gs).map _)
    · intro g hg
      obtain ⟨g', _, rfl⟩ := List.mem_map.mp hg
      exact List.length_take_le m g'.2

/-- The bounds hold on every page of a walk. -/
theorem walk_bounds (hn : 0 < n) {gs : Groups κ ρ} {ps : List (Groups κ ρ)} (h : Walk n m gs ps)
    (hk : (keys gs).Nodup) : ∀ p ∈ ps,
      ((flat p).map Prod.fst).dedup.length ≤ n ∧ ∀ k, ((flat p).filter (·.1 = k)).length ≤ m :=
  walk_pages h (Q := fun gs => (keys gs).Nodup) (fun _ hgs => keys_rest_nodup hn hgs) (fun _ hgs => page_bounds hgs) hk

end Bounds
end Webshot.Foundation.GroupedPaging
