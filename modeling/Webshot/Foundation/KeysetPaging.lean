import Webshot.Foundation.OrderedSelect

/-! Paging through an ordered list by the value of the last entry shown, while the list changes. -/
namespace Webshot.Foundation.KeysetPaging
open OrderedSelect
variable {α : Type*} [LinearOrder α]

/-- The entries behind a cursor; without a cursor, all of them. -/
def behind : Option α → List α → List α
  | none, l => l
  | some c, l => l.filter (c < ·)

/-- Entry `x` lies behind the cursor. -/
def Behind (c : Option α) (x : α) : Prop := ∀ y ∈ c, y < x

theorem mem_behind {c : Option α} {l : List α} {x : α} : x ∈ behind c l ↔ x ∈ l ∧ Behind c x := by
  cases c with
  | none => simp [behind, Behind]
  | some c => simp [behind, Behind, List.mem_filter]

theorem behind_strict {l : List α} (h : l.Pairwise (· < ·)) (c : Option α) : (behind c l).Pairwise (· < ·) := by
  cases c with
  | none => exact h
  | some c => exact h.filter _

theorem behind_behind {c : Option α} {c' : α} (h : Behind c c') (l : List α) :
    behind (some c') (behind c l) = behind (some c') l := by
  cases c with
  | none => rfl
  | some c =>
    rw [behind, behind, behind, List.filter_filter]
    apply List.filter_congr
    intro x _
    rw [Bool.eq_iff_iff, Bool.and_eq_true, decide_eq_true_iff, decide_eq_true_iff, and_iff_left_iff_imp]
    exact (h c rfl).trans

/-- In an ordered list the entries behind a cursor are at its end. -/
theorem behind_suffix {l : List α} (h : l.Pairwise (· < ·)) (c : Option α) : behind c l <:+ l := by
  cases c with
  | none => exact List.suffix_refl l
  | some c =>
    rw [behind]
    induction l with
    | nil => exact List.suffix_refl []
    | cons a l ih =>
      obtain ⟨ha, hl⟩ := List.pairwise_cons.mp h
      by_cases hca : c < a
      · have hall : (a :: l).filter (c < ·) = a :: l := by
          rw [List.filter_eq_self]
          intro x hx
          rcases List.mem_cons.mp hx with rfl | hx
          · exact decide_eq_true hca
          · exact decide_eq_true (hca.trans (ha x hx))
        simp only [hall, List.suffix_refl]
      · rw [List.filter_cons_of_neg (by simpa using hca)]
        exact (ih hl).trans (List.suffix_cons a l)

/-- Requests one after another, each answered from its own list: a page of `n` entries, while more
are left, hands the last one to the next request. The flag says whether the last page was met. -/
inductive Walk (n : Nat) : Option α → List (List α) → List (List α) → Bool → Prop where
  | pause (c : Option α) : Walk n c [] [] false
  | last {c : Option α} {l : List α} (ls : List (List α)) : (behind c l).length ≤ n →
      Walk n c (l :: ls) [behind c l] true
  | more {c : Option α} {c' : α} {l : List α} {ls ps : List (List α)} {ended : Bool} : n < (behind c l).length →
      ((behind c l).take n).getLast? = some c' → Walk n (some c') ls ps ended →
      Walk n c (l :: ls) ((behind c l).take n :: ps) ended

variable {n : Nat} {c : Option α} {c' : α} {l : List α} {ls ps : List (List α)} {ended : Bool}

theorem exists_last (hn : 0 < n) (hlen : n < (behind c l).length) : ∃ c', ((behind c l).take n).getLast? = some c' := by
  have hne : (behind c l).take n ≠ [] := by
    rw [Ne, List.take_eq_nil_iff]
    rintro (h | h)
    · omega
    · rw [h, List.length_nil] at hlen
      omega
  exact ⟨_, List.getLast?_eq_some_getLast hne⟩

theorem last_behind (hlast : ((behind c l).take n).getLast? = some c') : Behind c c' :=
  (mem_behind.mp (List.mem_of_mem_take (List.mem_of_getLast? hlast))).2

/-- The entries up to the last one of a page are on the page, the later ones are what it leaves. -/
theorem split_at_last (hlast : ((behind c l).take n).getLast? = some c') :
    ∃ init, (behind c l).take n = init ++ [c'] ∧ behind c l = init ++ c' :: (behind c l).drop n := by
  obtain ⟨init, hinit⟩ := List.getLast?_eq_some_iff.mp hlast
  refine ⟨init, hinit, ?_⟩
  calc behind c l = (behind c l).take n ++ (behind c l).drop n := (List.take_append_drop n _).symm
    _ = init ++ c' :: (behind c l).drop n := by rw [hinit, List.append_assoc, List.singleton_append]

theorem le_last (hs : l.Pairwise (· < ·)) (hlast : ((behind c l).take n).getLast? = some c') {x : α}
    (hx : x ∈ (behind c l).take n) : x ≤ c' := by
  obtain ⟨init, hinit, _⟩ := split_at_last hlast
  have hstrict := (behind_strict hs c).sublist (List.take_sublist n _)
  rw [hinit] at hx hstrict
  rcases List.mem_append.mp hx with h | h
  · exact ((List.pairwise_append.mp hstrict).2.2 x h c' (List.mem_singleton_self c')).le
  · exact (List.mem_singleton.mp h).le

/-- What a full page leaves is what lies behind its last entry. -/
theorem drop_eq_behind (hs : l.Pairwise (· < ·)) (hlast : ((behind c l).take n).getLast? = some c') :
    (behind c l).drop n = behind (some c') l := by
  obtain ⟨init, _, hsplit⟩ := split_at_last hlast
  have hstrict := behind_strict hs c
  rw [hsplit] at hstrict
  rw [← behind_behind (last_behind hlast), behind, hsplit]
  rw [filter_gt_of_strict hstrict fun _ => decide_eq_true_iff, ← hsplit]

namespace Walk

theorem exists_walk (hn : 0 < n) (ls : List (List α)) (c : Option α) : ∃ ps ended, Walk n c ls ps ended := by
  induction ls generalizing c with
  | nil => exact ⟨_, _, .pause c⟩
  | cons l ls ih =>
    rcases Nat.lt_or_ge n (behind c l).length with hlen | hlen
    · obtain ⟨c', hlast⟩ := exists_last hn hlen
      obtain ⟨ps, ended, h⟩ := ih (some c')
      exact ⟨_, _, .more hlen hlast h⟩
    · exact ⟨_, _, .last ls hlen⟩

/-- Whatever the lists are, the pages go on strictly upwards from the cursor. -/
theorem strict (h : Walk n c ls ps ended) (hs : ∀ l ∈ ls, l.Pairwise (· < ·)) :
    ps.flatten.Pairwise (· < ·) ∧ ∀ x ∈ ps.flatten, Behind c x := by
  induction h with
  | pause c => exact ⟨List.Pairwise.nil, fun _ hx => nomatch hx⟩
  | @last c l ls hlen =>
    rw [List.flatten_singleton]
    exact ⟨behind_strict (hs l List.mem_cons_self) c, fun x hx => (mem_behind.mp hx).2⟩
  | @more c c' l ls ps ended hlen hlast _ ih =>
    have hl := hs l List.mem_cons_self
    obtain ⟨hrest, hbehind⟩ := ih fun l' hl' => hs l' (List.mem_cons_of_mem l hl')
    rw [List.flatten_cons, List.pairwise_append]
    refine ⟨⟨(behind_strict hl c).sublist (List.take_sublist n _), hrest, ?_⟩, ?_⟩
    · intro x hx y hy
      exact (le_last hl hlast hx).trans_lt (hbehind y hy c' rfl)
    · intro x hx
      rcases List.mem_append.mp hx with hx | hx
      · exact (mem_behind.mp (List.mem_of_mem_take hx)).2
      · exact fun y hy => (last_behind hlast y hy).trans (hbehind x hx c' rfl)

/-- Every page is taken from the list of its request. -/
theorem mem_list (h : Walk n c ls ps ended) {x : α} (hx : x ∈ ps.flatten) : ∃ l ∈ ls, x ∈ l := by
  induction h with
  | pause c => cases hx
  | @last c l ls hlen =>
    rw [List.flatten_singleton] at hx
    exact ⟨l, List.mem_cons_self, (mem_behind.mp hx).1⟩
  | @more c c' l ls ps ended hlen hlast _ ih =>
    rw [List.flatten_cons] at hx
    rcases List.mem_append.mp hx with hx | hx
    · exact ⟨l, List.mem_cons_self, (mem_behind.mp (List.mem_of_mem_take hx)).1⟩
    · obtain ⟨l', hl', hx'⟩ := ih hx
      exact ⟨l', List.mem_cons_of_mem l hl', hx'⟩

/-- A walk that met the last page has shown every entry that was in all the lists it met. -/
theorem complete (h : Walk n c ls ps true) (hs : ∀ l ∈ ls, l.Pairwise (· < ·)) {x : α} (hc : Behind c x)
    (hx : ∀ l ∈ ls.take ps.length, x ∈ l) : x ∈ ps.flatten := by
  generalize hended : true = ended at h
  induction h with
  | pause c => cases hended
  | @last c l ls hlen =>
    rw [List.flatten_singleton]
    exact mem_behind.mpr ⟨hx l List.mem_cons_self, hc⟩
  | @more c c' l ls ps ended hlen hlast _ ih =>
    rw [List.length_cons, List.take_succ_cons] at hx
    have hl := hs l List.mem_cons_self
    have hmem : x ∈ behind c l := mem_behind.mpr ⟨hx l List.mem_cons_self, hc⟩
    rw [List.flatten_cons]
    rcases le_or_gt x c' with hle | hlt
    · apply List.mem_append_left
      obtain ⟨init, hinit, hsplit⟩ := split_at_last hlast
      have hstrict := behind_strict hl c
      rw [hsplit] at hmem hstrict
      rw [hinit]
      rcases List.mem_append.mp hmem with hm | hm
      · exact List.mem_append_left _ hm
      · rcases List.mem_cons.mp hm with rfl | hm
        · exact List.mem_append_right _ (List.mem_singleton_self x)
        · have hgt := (List.pairwise_cons.mp (List.pairwise_append.mp hstrict).2.1).1 x hm
          exact absurd hle (not_le.mpr hgt)
    · apply List.mem_append_right
      apply ih (fun l' hl' => hs l' (List.mem_cons_of_mem l hl'))
      · rintro y ⟨⟩
        exact hlt
      · exact fun l' hl' => hx l' (List.mem_cons_of_mem l hl')
      · exact hended

section Unchanged

/-- While the list stays the same a long enough walk meets the last page and has shown exactly
what lies behind its cursor. -/
theorem exists_of_unchanged (hn : 0 < n) (hs : l.Pairwise (· < ·)) {k : Nat} (hk : (behind c l).length < k) :
    ∃ ps, Walk n c (List.replicate k l) ps true ∧ ps.flatten = behind c l := by
  induction k generalizing c with
  | zero => exact absurd hk (Nat.not_lt_zero _)
  | succ k ih =>
    rw [List.replicate_succ]
    rcases Nat.lt_or_ge n (behind c l).length with hlen | hlen
    · obtain ⟨c', hlast⟩ := exists_last hn hlen
      have hdrop := drop_eq_behind hs hlast
      have hk' : (behind (some c') l).length < k := by
        rw [← hdrop, List.length_drop]
        omega
      obtain ⟨ps, hwalk, hflat⟩ := ih hk'
      refine ⟨_, .more hlen hlast hwalk, ?_⟩
      rw [List.flatten_cons, hflat, ← hdrop, List.take_append_drop]
    · exact ⟨_, .last _ hlen, List.flatten_singleton⟩

/-- The first page of a walk starts with the first entry behind the cursor. -/
theorem head_first (hn : 0 < n) (h : Walk n c (l :: ls) ps ended) :
    ∃ q qs, ps = q :: qs ∧ q.head? = (behind c l).head? := by
  cases h with
  | last _ _ => exact ⟨_, _, rfl, rfl⟩
  | more _ _ _ =>
    refine ⟨_, _, rfl, ?_⟩
    rw [List.head?_take, if_neg (by omega)]

/-- While the list stays the same, a later page is preceded in it by the page before: the `n`
entries nearest to its first one. -/
theorem page_before (hn : 0 < n) (hs : l.Pairwise (· < ·)) {k i : Nat}
    (h : Walk n c (List.replicate k l) ps ended) {p q : List α} (hp : ps[i]? = some p) (hq : ps[i + 1]? = some q) :
    ∃ x a b, q.head? = some x ∧ l = a ++ p ++ x :: b ∧ p.length = n := by
  induction i generalizing c ps k with
  | zero =>
    cases k with
    | zero =>
      cases h
      cases hp
    | succ k =>
      rw [List.replicate_succ] at h
      cases h with
      | last _ _ => cases hq
      | @more _ c' _ _ ps _ hlen hlast hrest =>
        cases hp
        cases k with
        | zero =>
          cases hrest
          cases hq
        | succ k =>
          rw [List.replicate_succ] at hrest
          obtain ⟨q', qs, rfl, hhead⟩ := head_first hn hrest
          cases hq
          rw [← drop_eq_behind hs hlast] at hhead
          obtain ⟨a, ha⟩ := behind_suffix hs c
          have hlen' : (behind c l).drop n ≠ [] := by
            rw [Ne, List.drop_eq_nil_iff]
            omega
          obtain ⟨x, b, hxb⟩ := List.exists_cons_of_ne_nil hlen'
          refine ⟨x, a, b, ?_, ?_, ?_⟩
          · rw [hhead, hxb, List.head?_cons]
          · rw [List.append_assoc, ← hxb, List.take_append_drop, ha]
          · rw [List.length_take]
            omega
  | succ i ih =>
    cases k with
    | zero =>
      cases h
      cases hp
    | succ k =>
      rw [List.replicate_succ] at h
      cases h with
      | last _ _ => cases hp
      | more _ _ hrest => exact ih hrest hp hq

end Unchanged
end Walk
end Webshot.Foundation.KeysetPaging
