import Mathlib.Data.List.Infix
import Mathlib.Data.List.Range
import Mathlib.Algebra.Order.Group.Nat
import Mathlib.Tactic.Linarith

/-! Lists of segments whose long segments are cut after every `w` entries.
The cuts forget where a segment ended on a multiple of `w`; this is the only thing they forget. -/
namespace Webshot.Foundation.SegmentCuts
variable {α : Type*} {w : Nat}

/-- The consecutive pieces of length `w`; only the last one may be shorter. -/
def pieces (w : Nat) (l : List α) : List (List α) :=
  (List.range ((l.length + w - 1) / w)).map fun i => (l.drop (w * i)).take w

/-- An empty segment keeps one empty piece. -/
def cuts (w : Nat) (s : List α) : List (List α) :=
  if s.isEmpty then [[]] else pieces w s

def flatCuts (w : Nat) (a : List (List α)) : List (List α) := a.flatMap (cuts w)

theorem pieces_nil (hw : 0 < w) : pieces w ([] : List α) = [] := by
  have hz : (([] : List α).length + w - 1) / w = 0 := Nat.div_eq_of_lt (by rw [List.length_nil]; omega)
  rw [pieces, hz]
  rfl

theorem pieces_of_ne_nil (hw : 0 < w) {l : List α} (hl : l ≠ []) :
    pieces w l = l.take w :: pieces w (l.drop w) := by
  have hpos := List.length_pos_iff.mpr hl
  have hcount : (l.length + w - 1) / w = ((l.drop w).length + w - 1) / w + 1 := by
    rw [List.length_drop]
    by_cases h : w ≤ l.length
    · rw [show l.length + w - 1 = (l.length - w + w - 1) + w by omega, Nat.add_div_right _ hw]
    · rw [show l.length - w + w - 1 = w - 1 by omega, Nat.div_eq_of_lt (show w - 1 < w by omega)]
      exact Nat.div_eq_of_lt_le (by omega) (by omega)
  simp only [pieces, hcount, List.range_succ_eq_map, List.map_cons, List.map_map, Nat.mul_zero,
    List.drop_zero, List.cons.injEq, true_and]
  apply List.map_congr_left
  intro i _
  simp only [Function.comp_apply, List.drop_drop]
  rw [Nat.mul_succ, Nat.add_comm]

@[simp] theorem flatCuts_nil : flatCuts w ([] : List (List α)) = [] := rfl

@[simp] theorem flatCuts_cons (s : List α) (a : List (List α)) :
    flatCuts w (s :: a) = cuts w s ++ flatCuts w a := rfl

theorem cuts_short (hw : 0 < w) {s : List α} (hs : s.length ≤ w) : cuts w s = [s] := by
  cases s with
  | nil => rfl
  | cons x s =>
    rw [cuts, List.isEmpty_cons, if_neg Bool.false_ne_true, pieces_of_ne_nil hw (List.cons_ne_nil x s),
      List.take_of_length_le hs, List.drop_eq_nil_of_le hs, pieces_nil hw]

theorem cuts_long (hw : 0 < w) {s : List α} (hs : w < s.length) :
    cuts w s = s.take w :: cuts w (s.drop w) := by
  have hn : s ≠ [] := List.length_pos_iff.mp (by omega)
  have hd : s.drop w ≠ [] := by
    intro h
    have := congrArg List.length h
    simp only [List.length_drop, List.length_nil] at this
    omega
  simp only [cuts, List.isEmpty_iff, hn, hd, if_false]
  exact pieces_of_ne_nil hw hn

theorem cuts_ne_nil (hw : 0 < w) (s : List α) : cuts w s ≠ [] := by
  by_cases hs : s.length ≤ w
  · rw [cuts_short hw hs]; exact List.cons_ne_nil _ _
  · rw [cuts_long hw (by omega)]; exact List.cons_ne_nil _ _

/-- Cutting respects concatenation at a multiple of the width. -/
theorem cuts_append (hw : 0 < w) {s t : List α} (hs : s ≠ []) (hd : w ∣ s.length) (ht : t ≠ []) :
    cuts w (s ++ t) = cuts w s ++ cuts w t := by
  obtain ⟨n, hn⟩ := hd
  have htl := List.length_pos_iff.mpr ht
  induction n generalizing s with
  | zero => exact absurd (List.length_eq_zero_iff.mp (by simpa using hn)) hs
  | succ n ih =>
    have hlen : s.length = w * n + w := by rw [hn, Nat.mul_succ]
    have hst : w < (s ++ t).length := by rw [List.length_append]; omega
    have hle : w ≤ s.length := by omega
    rw [cuts_long hw hst, List.take_append_of_le_length hle, List.drop_append_of_le_length hle]
    by_cases h : s.length ≤ w
    · rw [cuts_short hw h, List.take_of_length_le h, List.drop_eq_nil_of_le h]
      rfl
    · have hdl : (s.drop w).length = w * n := by rw [List.length_drop]; omega
      have hdn : s.drop w ≠ [] := List.length_pos_iff.mp (by rw [List.length_drop]; omega)
      rw [cuts_long hw (show w < s.length by omega), ih hdn hdl]
      rfl

theorem flatCuts_short (hw : 0 < w) {a : List (List α)} (ha : ∀ s ∈ a, s.length ≤ w) :
    flatCuts w a = a := by
  induction a with
  | nil => rfl
  | cons s a ih =>
    rw [flatCuts_cons, cuts_short hw (ha s List.mem_cons_self),
      ih (fun t ht => ha t (List.mem_cons_of_mem s ht))]
    rfl

/-- `a` runs through the start of `b` once segment ends at multiples of `w` are forgotten. -/
inductive RunsOver (w : Nat) : List (List α) → List (List α) → Prop where
  | nil (b : List (List α)) : RunsOver w [] b
  | same (s : List α) {a b : List (List α)} : RunsOver w a b → RunsOver w (s :: a) (s :: b)
  | longer {s t : List α} {a b : List (List α)} : s ≠ [] → w ∣ s.length → t ≠ [] →
      RunsOver w a (t :: b) → RunsOver w (s :: a) ((s ++ t) :: b)
  | shorter {s t : List α} {a b : List (List α)} : t ≠ [] → w ∣ t.length → s ≠ [] →
      RunsOver w (s :: a) b → RunsOver w ((t ++ s) :: a) (t :: b)

/-- `a` runs over `b` although it is no prefix: at the first difference one segment has a positive
multiple of `w` entries and is a proper prefix of the other. -/
inductive Collides (w : Nat) : List (List α) → List (List α) → Prop where
  | skip (s : List α) {a b : List (List α)} : Collides w a b → Collides w (s :: a) (s :: b)
  | longer {s t : List α} {a b : List (List α)} : s ≠ [] → w ∣ s.length → t ≠ [] →
      RunsOver w a (t :: b) → Collides w (s :: a) ((s ++ t) :: b)
  | shorter {s t : List α} {a b : List (List α)} : t ≠ [] → w ∣ t.length → s ≠ [] →
      RunsOver w (s :: a) b → Collides w ((t ++ s) :: a) (t :: b)

private theorem RunsOver.prepend {p s t : List α} {a b : List (List α)} (hp : p ≠ [])
    (hd : w ∣ p.length) (h : RunsOver w (s :: a) (t :: b)) :
    RunsOver w ((p ++ s) :: a) ((p ++ t) :: b) := by
  have hdvd (u : List α) (hu : w ∣ u.length) : w ∣ (p ++ u).length := by
    rw [List.length_append]; exact Nat.dvd_add hd hu
  cases h with
  | same _ h => exact .same _ h
  | longer hs hl ht h =>
    rw [← List.append_assoc]
    exact .longer (List.append_ne_nil_of_left_ne_nil hp _) (hdvd _ hl) ht h
  | shorter ht hl hs h =>
    rw [← List.append_assoc]
    exact .shorter (List.append_ne_nil_of_left_ne_nil hp _) (hdvd _ hl) hs h

private theorem runsOver_of_flatCuts (hw : 0 < w) (a b : List (List α))
    (h : flatCuts w a <+: flatCuts w b) : RunsOver w a b := by
  induction hn : (flatCuts w a).length using Nat.strong_induction_on generalizing a b with
  | _ n ih =>
    subst hn
    cases a with
    | nil => exact .nil b
    | cons s a =>
      cases b with
      | nil =>
        have hnil := List.prefix_nil.mp h
        exact absurd (List.append_eq_nil_iff.mp hnil).1 (cuts_ne_nil hw s)
      | cons t b =>
        have step {c : List α} {a' b' : List (List α)} (ha : flatCuts w (s :: a) = c :: flatCuts w a')
            (h' : flatCuts w a' <+: flatCuts w b') : RunsOver w a' b' :=
          ih _ (by rw [ha, List.length_cons]; omega) a' b' h' rfl
        by_cases hs : s.length ≤ w <;> by_cases ht : t.length ≤ w
        · have ha : flatCuts w (s :: a) = s :: flatCuts w a := by rw [flatCuts_cons, cuts_short hw hs]; rfl
          have hb : flatCuts w (t :: b) = t :: flatCuts w b := by rw [flatCuts_cons, cuts_short hw ht]; rfl
          rw [ha, hb, List.cons_prefix_cons] at h
          obtain ⟨rfl, h⟩ := h
          exact .same s (step ha h)
        · have ha : flatCuts w (s :: a) = s :: flatCuts w a := by rw [flatCuts_cons, cuts_short hw hs]; rfl
          have hb : flatCuts w (t :: b) = t.take w :: flatCuts w (t.drop w :: b) := by
            rw [flatCuts_cons, cuts_long hw (by omega)]; rfl
          rw [ha, hb, List.cons_prefix_cons] at h
          obtain ⟨he, h⟩ := h
          have hlen : s.length = w := by rw [he, List.length_take]; omega
          have hrun := step ha h
          rw [← List.take_append_drop w t, ← he]
          exact .longer (List.length_pos_iff.mp (by omega)) (by rw [hlen])
            (List.length_pos_iff.mp (by rw [List.length_drop]; omega)) hrun
        · have ha : flatCuts w (s :: a) = s.take w :: flatCuts w (s.drop w :: a) := by
            rw [flatCuts_cons, cuts_long hw (by omega)]; rfl
          have hb : flatCuts w (t :: b) = t :: flatCuts w b := by rw [flatCuts_cons, cuts_short hw ht]; rfl
          rw [ha, hb, List.cons_prefix_cons] at h
          obtain ⟨he, h⟩ := h
          have hlen : t.length = w := by rw [← he, List.length_take]; omega
          have hrun := step ha h
          rw [← List.take_append_drop w s, he]
          exact .shorter (List.length_pos_iff.mp (by omega)) (by rw [hlen])
            (List.length_pos_iff.mp (by rw [List.length_drop]; omega)) hrun
        · have ha : flatCuts w (s :: a) = s.take w :: flatCuts w (s.drop w :: a) := by
            rw [flatCuts_cons, cuts_long hw (by omega)]; rfl
          have hb : flatCuts w (t :: b) = t.take w :: flatCuts w (t.drop w :: b) := by
            rw [flatCuts_cons, cuts_long hw (by omega)]; rfl
          rw [ha, hb, List.cons_prefix_cons] at h
          obtain ⟨he, h⟩ := h
          have hlen : (s.take w).length = w := by rw [List.length_take]; omega
          have hrun := (step ha h).prepend (p := s.take w) (List.length_pos_iff.mp (by omega)) (by rw [hlen])
          rwa [List.take_append_drop, he, List.take_append_drop] at hrun

private theorem RunsOver.flatCuts_prefix (hw : 0 < w) {a b : List (List α)} (h : RunsOver w a b) :
    flatCuts w a <+: flatCuts w b := by
  induction h with
  | nil b => exact List.nil_prefix
  | same s _ ih => exact (List.prefix_append_right_inj _).mpr ih
  | longer hs hd ht _ ih =>
    rw [flatCuts_cons, flatCuts_cons, cuts_append hw hs hd ht, List.append_assoc]
    exact (List.prefix_append_right_inj _).mpr ih
  | shorter ht hd hs _ ih =>
    rw [flatCuts_cons, flatCuts_cons, cuts_append hw ht hd hs, List.append_assoc]
    exact (List.prefix_append_right_inj _).mpr ih

/-- What the cuts of two segment lists still tell about them. -/
theorem flatCuts_prefix_iff (hw : 0 < w) (a b : List (List α)) :
    flatCuts w a <+: flatCuts w b ↔ RunsOver w a b :=
  ⟨runsOver_of_flatCuts hw a b, fun h => h.flatCuts_prefix hw⟩

theorem RunsOver.of_prefix {a b : List (List α)} (h : a <+: b) : RunsOver w a b := by
  induction a generalizing b with
  | nil => exact .nil b
  | cons s a ih =>
    cases b with
    | nil => exact absurd (List.prefix_nil.mp h) (List.cons_ne_nil s a)
    | cons t b =>
      obtain ⟨rfl, ht⟩ := List.cons_prefix_cons.mp h
      exact .same s (ih ht)

theorem Collides.runsOver {a b : List (List α)} (h : Collides w a b) : RunsOver w a b := by
  induction h with
  | skip s _ ih => exact .same s ih
  | longer hs hd ht h => exact .longer hs hd ht h
  | shorter ht hd hs h => exact .shorter ht hd hs h

theorem Collides.not_prefix {a b : List (List α)} (h : Collides w a b) : ¬ a <+: b := by
  induction h with
  | skip s _ ih => exact fun h => ih (List.cons_prefix_cons.mp h).2
  | longer _ _ ht _ => exact fun h => ht (List.self_eq_append_right.mp (List.cons_prefix_cons.mp h).1)
  | shorter _ _ hs _ => exact fun h => hs (List.append_right_eq_self.mp (List.cons_prefix_cons.mp h).1)

theorem RunsOver.prefix_or_collides {a b : List (List α)} (h : RunsOver w a b) :
    a <+: b ∨ Collides w a b := by
  induction h with
  | nil b => exact Or.inl List.nil_prefix
  | same s _ ih =>
    exact ih.elim (fun h => Or.inl (List.cons_prefix_cons.mpr ⟨rfl, h⟩)) (fun h => Or.inr (.skip s h))
  | longer hs hd ht h _ => exact Or.inr (.longer hs hd ht h)
  | shorter ht hd hs h _ => exact Or.inr (.shorter ht hd hs h)

/-- The cuts decide the prefix relation exactly where the segment lists do not collide. -/
theorem flatCuts_faithful_iff (hw : 0 < w) (a b : List (List α)) :
    (flatCuts w a <+: flatCuts w b ↔ a <+: b) ↔ ¬ Collides w a b := by
  rw [flatCuts_prefix_iff hw]
  constructor
  · intro h hc
    exact hc.not_prefix (h.mp hc.runsOver)
  · intro hc
    exact ⟨fun h => h.prefix_or_collides.resolve_right hc, RunsOver.of_prefix⟩

/-- A prefix with the same cuts is the whole list: every segment leaves at least one piece. -/
theorem eq_of_prefix_of_flatCuts_eq (hw : 0 < w) {a b : List (List α)} (h : a <+: b)
    (he : flatCuts w a = flatCuts w b) : a = b := by
  obtain ⟨c, rfl⟩ := h
  cases c with
  | nil => exact (List.append_nil a).symm
  | cons s c =>
    rw [flatCuts, flatCuts, List.flatMap_append, List.flatMap_cons] at he
    have hnil := List.self_eq_append_right.mp he
    exact absurd (List.append_eq_nil_iff.mp hnil).1 (cuts_ne_nil hw s)

section Marker
variable {m : α} {a a' b b' : List α}

/-- A list without the marker can only run into what stands before the marker. -/
theorem prefix_marked_iff (ha : m ∉ a) : a <+: a' ++ m :: b' ↔ a <+: a' := by
  refine ⟨fun h => ?_, fun h => h.trans (List.prefix_append a' _)⟩
  induction a generalizing a' with
  | nil => exact List.nil_prefix
  | cons x a ih =>
    cases a' with
    | nil => exact absurd (List.cons_prefix_cons.mp h).1 fun hx => ha (hx ▸ List.mem_cons_self)
    | cons y a' =>
      obtain ⟨rfl, ht⟩ := List.cons_prefix_cons.mp h
      exact List.cons_prefix_cons.mpr ⟨rfl, ih (fun hm => ha (List.mem_cons_of_mem x hm)) ht⟩

/-- The first marker splits both lists at the same place. -/
theorem marked_prefix_marked_iff (ha : m ∉ a) (ha' : m ∉ a') :
    a ++ m :: b <+: a' ++ m :: b' ↔ a = a' ∧ b <+: b' := by
  constructor
  · intro h
    induction a generalizing a' with
    | nil =>
      cases a' with
      | nil => exact ⟨rfl, (List.cons_prefix_cons.mp h).2⟩
      | cons y a' => exact absurd (List.cons_prefix_cons.mp h).1 fun hy => ha' (hy ▸ List.mem_cons_self)
    | cons x a ih =>
      cases a' with
      | nil => exact absurd (List.cons_prefix_cons.mp h).1 fun hx => ha (hx ▸ List.mem_cons_self)
      | cons y a' =>
        obtain ⟨rfl, ht⟩ := List.cons_prefix_cons.mp h
        obtain ⟨rfl, hb⟩ := ih (fun hm => ha (List.mem_cons_of_mem x hm))
          (fun hm => ha' (List.mem_cons_of_mem x hm)) ht
        exact ⟨rfl, hb⟩
  · rintro ⟨rfl, h⟩
    exact (List.prefix_append_right_inj a).mpr (List.cons_prefix_cons.mpr ⟨rfl, h⟩)

end Marker

end Webshot.Foundation.SegmentCuts
