import Mathlib.Data.List.DropRight
import Mathlib.Tactic.Tauto
import Webshot.Foundation.GroupedPaging

/-! Positions inside a paged listing, the pages behind them, and when paging back undoes paging on. -/
namespace Webshot.Foundation.GroupedPaging
variable {κ ρ : Type*} {n m : Nat}

/-- Groups done with, rows of the next group already shown, and what is still to come. -/
structure Position (κ ρ : Type*) where
  before : Groups κ ρ
  shown : List ρ
  remaining : Groups κ ρ

/-- Puts rows back in front of the first group. -/
def prepend (shown : List ρ) : Groups κ ρ → Groups κ ρ
  | [] => []
  | g :: gs => (g.1, shown ++ g.2) :: gs

namespace Position

def start (gs : Groups κ ρ) : Position κ ρ := ⟨[], [], gs⟩

/-- The listing the position is in. -/
def whole (p : Position κ ρ) : Groups κ ρ := p.before ++ prepend p.shown p.remaining

end Position

/-- Moving on by one page. The last visible group is the current one or a later one, and it is
either continued or done with. -/
inductive Advances (n m : Nat) : Position κ ρ → Position κ ρ → Prop where
  | within {before after : Groups κ ρ} {shown left : List ρ} {k : κ} :
      after.take (n - 1) = [] → m < left.length →
      Advances n m ⟨before, shown, (k, left) :: after⟩
        ⟨before, shown ++ left.take m, (k, left.drop m) :: after⟩
  | past {before after : Groups κ ρ} {shown left : List ρ} {k : κ} :
      after.take (n - 1) = [] → left.length ≤ m → after ≠ [] →
      Advances n m ⟨before, shown, (k, left) :: after⟩ ⟨before ++ [(k, shown ++ left)], [], after⟩
  | onto {before after init : Groups κ ρ} {shown left : List ρ} {k : κ} {g : κ × List ρ} :
      after.take (n - 1) = init ++ [g] → m < g.2.length →
      Advances n m ⟨before, shown, (k, left) :: after⟩
        ⟨before ++ (k, shown ++ left) :: init, g.2.take m, (g.1, g.2.drop m) :: after.drop (n - 1)⟩
  | beyond {before after init : Groups κ ρ} {shown left : List ρ} {k : κ} {g : κ × List ρ} :
      after.take (n - 1) = init ++ [g] → g.2.length ≤ m → after.drop (n - 1) ≠ [] →
      Advances n m ⟨before, shown, (k, left) :: after⟩
        ⟨before ++ (k, shown ++ left) :: (init ++ [g]), [], after.drop (n - 1)⟩

/-- The page behind a position, as the rows before it suggest: a started group is shown last. -/
def back (n m : Nat) (p : Position κ ρ) : Groups κ ρ :=
  match p.remaining with
  | [] => []
  | g :: _ =>
    if p.shown = [] then (p.before.rtake n).map (top m)
    else (p.before.rtake (n - 1)).map (top m) ++ [(g.1, p.shown.rtake m)]

/-- The visible groups of a position, by whether the current one is alone. -/
theorem take_remaining (hn : 0 < n) (g : κ × List ρ) (after : Groups κ ρ) :
    (g :: after).take n = g :: after.take (n - 1) ∧ (g :: after).drop n = after.drop (n - 1) := by
  cases n with
  | zero => exact absurd hn (Nat.lt_irrefl 0)
  | succ k => exact ⟨rfl, rfl⟩

private theorem drop_of_take_nil {after : Groups κ ρ} {j : Nat} (h : after.take j = []) : after.drop j = after := by
  have happ := List.take_append_drop j after
  rwa [h, List.nil_append] at happ

namespace Advances
variable {p p' : Position κ ρ}

theorem remaining_eq (hn : 0 < n) (h : Advances n m p p') : p'.remaining = rest n m p.remaining := by
  cases h with
  | @within before after shown left k ht hm =>
    obtain ⟨htake, hdrop⟩ := take_remaining hn (k, left) after
    rw [ht] at htake
    rw [rest_of_split (a := []) htake, if_pos hm, hdrop, drop_of_take_nil ht]
  | @past before after shown left k ht hm _ =>
    obtain ⟨htake, hdrop⟩ := take_remaining hn (k, left) after
    rw [ht] at htake
    rw [rest_of_split (a := []) htake, if_neg (Nat.not_lt.mpr hm), hdrop, drop_of_take_nil ht]
  | @onto before after init shown left k g ht hm =>
    obtain ⟨htake, hdrop⟩ := take_remaining hn (k, left) after
    rw [ht] at htake
    rw [rest_of_split (a := (k, left) :: init) htake, if_pos hm, hdrop]
  | @beyond before after init shown left k g ht hm _ =>
    obtain ⟨htake, hdrop⟩ := take_remaining hn (k, left) after
    rw [ht] at htake
    rw [rest_of_split (a := (k, left) :: init) htake, if_neg (Nat.not_lt.mpr hm), hdrop]

theorem rest_ne_nil (hn : 0 < n) (h : Advances n m p p') : rest n m p.remaining ≠ [] := by
  rw [← h.remaining_eq hn]
  cases h with
  | within _ _ => exact List.cons_ne_nil _ _
  | past _ _ ha => exact ha
  | onto _ _ => exact List.cons_ne_nil _ _
  | beyond _ _ hd => exact hd

theorem whole_eq (h : Advances n m p p') : p'.whole = p.whole := by
  cases h with
  | within _ _ => simp [Position.whole, prepend, List.append_assoc, List.take_append_drop]
  | @past before after shown left k _ _ _ =>
    cases after <;> simp [Position.whole, prepend]
  | @onto before after init shown left k g ht _ =>
    have happ := List.take_append_drop (n - 1) after
    rw [ht] at happ
    simp only [Position.whole, prepend, List.take_append_drop]
    conv_rhs => rw [← happ]
    simp only [List.append_assoc, List.cons_append, List.nil_append]
  | @beyond before after init shown left k g ht _ _ =>
    have happ := List.take_append_drop (n - 1) after
    rw [ht] at happ
    cases hd : after.drop (n - 1) <;> simp_all [Position.whole, prepend]

end Advances

/-- A position can be advanced exactly when something is left after its page. -/
theorem exists_advances (hn : 0 < n) {p : Position κ ρ} (h : rest n m p.remaining ≠ []) :
    ∃ p', Advances n m p p' := by
  obtain ⟨before, shown, remaining⟩ := p
  cases remaining with
  | nil => exact absurd rest_nil h
  | cons g after =>
    obtain ⟨k, left⟩ := g
    obtain ⟨htake, hdrop⟩ := take_remaining hn (k, left) after
    rcases List.eq_nil_or_concat (after.take (n - 1)) with ht | ⟨init, g, ht⟩
    · by_cases hm : m < left.length
      · exact ⟨_, .within ht hm⟩
      · refine ⟨_, .past ht (Nat.not_lt.mp hm) ?_⟩
        rw [ht] at htake
        rwa [rest_of_split (a := []) htake, if_neg hm, hdrop, drop_of_take_nil ht] at h
    · rw [List.concat_eq_append] at ht
      by_cases hm : m < g.2.length
      · exact ⟨_, .onto ht hm⟩
      · refine ⟨_, .beyond ht (Nat.not_lt.mp hm) ?_⟩
        rw [ht] at htake
        rwa [rest_of_split (a := (k, left) :: init) htake, if_neg hm, hdrop] at h

theorem back_fresh {before remaining : Groups κ ρ} (h : remaining ≠ []) :
    back n m ⟨before, [], remaining⟩ = (before.rtake n).map (top m) := by
  cases remaining with
  | nil => exact absurd rfl h
  | cons g gs => rfl

theorem back_started {before after : Groups κ ρ} {shown : List ρ} {g : κ × List ρ} (h : shown ≠ []) :
    back n m ⟨before, shown, g :: after⟩ = (before.rtake (n - 1)).map (top m) ++ [(g.1, shown.rtake m)] :=
  if_neg h

/-- Paging back from the next position shows the same rows again: the position is at the start of
a group and the page behind is not filled up from earlier groups, or it is inside a group that
alone fills the page and goes on. -/
def Undoes (n m : Nat) (p : Position κ ρ) : Prop :=
  match p.remaining with
  | [] => False
  | g :: after =>
    (p.shown = [] ∧ (p.before = [] ∨ n ≤ after.length + 1)) ∨
      (p.shown ≠ [] ∧ m < g.2.length ∧ (n = 1 ∨ (p.before = [] ∧ after = [])))

private theorem rtake_append {α : Type*} {a b : List α} {j : Nat} (h : b.length ≤ j) :
    (a ++ b).rtake j = a.rtake (j - b.length) ++ b := by
  rw [List.rtake, List.rtake, List.length_append, List.drop_append]
  have h1 : a.length + b.length - j = a.length - (j - b.length) := by omega
  have h2 : a.length - (j - b.length) - a.length = 0 := by omega
  rw [h1, h2, List.drop_zero]

private theorem rtake_length {α : Type*} {b : List α} {j : Nat} (h : b.length = j) : b.rtake j = b := by
  rw [List.rtake, h, Nat.sub_self, List.drop_zero]

private theorem rtake_eq_nil_iff {α : Type*} {a : List α} {j : Nat} : a.rtake j = [] ↔ j = 0 ∨ a = [] := by
  rw [List.rtake, List.drop_eq_nil_iff, ← List.length_eq_zero_iff]
  omega

private theorem flat_top_eq_nil_iff (hm : 0 < m) {gs : Groups κ ρ} (h : Populated gs) :
    flat (gs.map (top m)) = [] ↔ gs = [] := by
  constructor
  · intro hf
    cases gs with
    | nil => rfl
    | cons g gs =>
      rw [List.map_cons, flat_cons, List.append_eq_nil_iff, List.map_eq_nil_iff, top, List.take_eq_nil_iff] at hf
      rcases hf.1 with h0 | h0
      · omega
      · exact absurd h0 (h g List.mem_cons_self)
  · rintro rfl
    rfl

/-- The shape all the cases come down to: earlier groups and rows already shown must add nothing. -/
private theorem flat_back_eq_iff (hm : 0 < m) {before tail : Groups κ ρ} {shown left : List ρ} {k : κ} {j : Nat}
    (hb : Populated before) (hd : (shown ++ left).Nodup) :
    flat ((before.rtake j).map (top m) ++ top m (k, shown ++ left) :: tail) = flat (top m (k, left) :: tail) ↔
      shown = [] ∧ (j = 0 ∨ before = []) := by
  have hbj : Populated (before.rtake j) := fun g hg => hb g (List.drop_subset _ _ hg)
  rw [flat_append, flat_cons, flat_cons, ← List.append_assoc, List.append_left_inj]
  constructor
  · intro h
    have hshown : shown = [] := by
      cases shown with
      | nil => rfl
      | cons r rs =>
        have hmem : (k, r) ∈ (top m (k, left)).2.map fun r => ((top m (k, left)).1, r) := by
          rw [← h]
          apply List.mem_append_right
          obtain ⟨j, rfl⟩ := Nat.exists_eq_add_of_lt hm
          simp [top]
        obtain ⟨r', hr', heq⟩ := List.mem_map.mp hmem
        cases heq
        exact absurd rfl ((List.nodup_append.mp hd).2.2 r List.mem_cons_self r (List.mem_of_mem_take hr'))
    subst hshown
    rw [List.nil_append, List.append_left_eq_self, flat_top_eq_nil_iff hm hbj, rtake_eq_nil_iff] at h
    exact ⟨rfl, h⟩
  · rintro ⟨rfl, h⟩
    rw [List.nil_append, List.append_left_eq_self, flat_top_eq_nil_iff hm hbj, rtake_eq_nil_iff]
    exact h

private theorem page_cons (hn : 0 < n) {k : κ} {left : List ρ} {after rest : Groups κ ρ}
    (ht : after.take (n - 1) = rest) : page n m ((k, left) :: after) = top m (k, left) :: rest.map (top m) := by
  rw [page, (take_remaining hn _ _).1, ht, List.map_cons]

/-- When paging back after paging on returns to the same rows. -/
theorem back_eq_page_iff (hn : 0 < n) (hm : 0 < m) {p p' : Position κ ρ} (h : Advances n m p p')
    (hw : Populated p.whole) (hd : ∀ g ∈ p.whole, g.2.Nodup) :
    flat (back n m p') = flat (page n m p.remaining) ↔ Undoes n m p := by
  have hbefore : Populated p.before := fun g hg => hw g (List.mem_append_left _ hg)
  cases h with
  | @within before after shown left k ht hmore =>
    have hpage : page n m ((k, left) :: after) = [top m (k, left)] := page_cons hn ht
    have hlen : (left.take m).length = m := by rw [List.length_take]; omega
    have hne : shown ++ left.take m ≠ [] := by
      intro h0
      have := congrArg List.length h0
      rw [List.length_append, List.length_nil] at this
      omega
    have hbj : Populated (before.rtake (n - 1)) := fun g hg => hbefore g (List.drop_subset _ _ hg)
    have hafter : n = 1 ∨ after = [] := by
      rcases List.take_eq_nil_iff.mp ht with h0 | h0
      · omega
      · exact Or.inr h0
    have hback : flat (back n m ⟨before, shown ++ left.take m, (k, left.drop m) :: after⟩) =
        flat ((before.rtake (n - 1)).map (top m)) ++ flat [top m (k, left)] := by
      rw [back_started hne, rtake_append hlen.le, hlen, Nat.sub_self, List.rtake_zero, List.nil_append, flat_append]
      rfl
    rw [hpage, hback, List.append_left_eq_self, flat_top_eq_nil_iff hm hbj, rtake_eq_nil_iff]
    simp only [Undoes, hmore, true_and]
    constructor
    · rintro (h1 | rfl)
      · by_cases hs : shown = []
        · exact Or.inl ⟨hs, Or.inr (by omega)⟩
        · exact Or.inr ⟨hs, Or.inl (by omega)⟩
      · by_cases hs : shown = []
        · exact Or.inl ⟨hs, Or.inl rfl⟩
        · exact Or.inr ⟨hs, hafter.imp_right fun ha => ⟨rfl, ha⟩⟩
    · rintro (⟨_, hb | hle⟩ | ⟨_, h1 | ⟨hb, _⟩⟩)
      · exact Or.inr hb
      · rcases hafter with h1 | rfl
        · exact Or.inl (by omega)
        · exact Or.inl (by rw [List.length_nil] at hle; omega)
      · exact Or.inl (by omega)
      · exact Or.inr hb
  | @past before after shown left k ht hdone hafter =>
    have hn1 : n = 1 := by
      rcases List.take_eq_nil_iff.mp ht with h0 | h0
      · omega
      · exact absurd h0 hafter
    subst hn1
    have hnd : (shown ++ left).Nodup := hd (k, shown ++ left) (List.mem_append_right _ List.mem_cons_self)
    have hback : back 1 m ⟨before ++ [(k, shown ++ left)], [], after⟩ =
        (before.rtake 0).map (top m) ++ top m (k, shown ++ left) :: [] := by
      have hlast : [(k, shown ++ left)].length ≤ 1 := le_rfl
      rw [back_fresh hafter, rtake_append hlast, List.map_append]
      rfl
    have hpage : page 1 m ((k, left) :: after) = top m (k, left) :: [] := rfl
    rw [hback, hpage, flat_back_eq_iff hm hbefore hnd]
    simp only [Undoes, Nat.not_lt.mpr hdone, false_and, and_false, or_false]
    exact and_congr_right fun _ => iff_of_true (Or.inl trivial) (Or.inr (Nat.le_add_left _ _))
  | @onto before after init shown left k g ht hmore =>
    have hnd : (shown ++ left).Nodup := hd (k, shown ++ left) (List.mem_append_right _ List.mem_cons_self)
    have hlen := congrArg List.length ht
    rw [List.length_take, List.length_append, List.length_singleton] at hlen
    have hne : g.2.take m ≠ [] := by
      intro h0
      rcases List.take_eq_nil_iff.mp h0 with h0 | h0
      · omega
      · rw [h0, List.length_nil] at hmore
        omega
    have hback : back n m ⟨before ++ (k, shown ++ left) :: init, g.2.take m, (g.1, g.2.drop m) :: after.drop (n - 1)⟩ =
        (before.rtake (n - 1 - (init.length + 1))).map (top m) ++
          top m (k, shown ++ left) :: (init.map (top m) ++ [top m g]) := by
      have hinit : ((k, shown ++ left) :: init).length ≤ n - 1 := by rw [List.length_cons]; omega
      have htop : (g.2.take m).length = m := by rw [List.length_take]; omega
      rw [back_started hne, rtake_append hinit, rtake_length htop, List.map_append, List.append_assoc]
      rfl
    have hpage : page n m ((k, left) :: after) = top m (k, left) :: (init.map (top m) ++ [top m g]) := by
      rw [page_cons hn ht, List.map_append]
      rfl
    rw [hback, hpage, flat_back_eq_iff hm hbefore hnd]
    have hafter : after ≠ [] := by
      rintro rfl
      rw [List.length_nil] at hlen
      omega
    simp only [Undoes, hafter, and_false, or_false]
    have hn1 : n ≠ 1 := by omega
    simp only [hn1, and_false, or_false]
    refine and_congr_right fun _ => ⟨?_, ?_⟩
    · rintro (h0 | h0)
      · exact Or.inr (by omega)
      · exact Or.inl h0
    · rintro (h0 | h0)
      · exact Or.inr h0
      · exact Or.inl (by omega)
  | @beyond before after init shown left k g ht _ hmore =>
    have hnd : (shown ++ left).Nodup := hd (k, shown ++ left) (List.mem_append_right _ List.mem_cons_self)
    have hlen := congrArg List.length ht
    rw [List.length_take, List.length_append, List.length_singleton] at hlen
    have hlong : n - 1 < after.length := by
      rw [← List.length_pos_iff, List.length_drop] at hmore
      omega
    have hback : back n m ⟨before ++ (k, shown ++ left) :: (init ++ [g]), [], after.drop (n - 1)⟩ =
        (before.rtake 0).map (top m) ++ top m (k, shown ++ left) :: (init ++ [g]).map (top m) := by
      have hfull : ((k, shown ++ left) :: (init ++ [g])).length = n := by
        rw [List.length_cons, List.length_append, List.length_singleton]
        omega
      rw [back_fresh hmore, rtake_append hfull.le, hfull, Nat.sub_self, List.map_append]
      rfl
    have hpage : page n m ((k, left) :: after) = top m (k, left) :: (init ++ [g]).map (top m) := page_cons hn ht
    rw [hback, hpage, flat_back_eq_iff hm hbefore hnd]
    have hafter : after ≠ [] := by
      rintro rfl
      exact hmore List.drop_nil
    have hn1 : n ≠ 1 := by omega
    simp only [Undoes, hafter, hn1, and_false, or_false]
    exact and_congr_right fun _ => iff_of_true (Or.inl trivial) (Or.inr (by omega))

end Webshot.Foundation.GroupedPaging
