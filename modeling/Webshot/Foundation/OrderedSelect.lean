import Mathlib.Data.List.Sort
import Mathlib.Order.Basic

/-! Filtering, ordering and cutting the rows of a table, as `select … where … order by … limit`. -/
namespace Webshot.Foundation.OrderedSelect
variable {α : Type*}

/-- `select … where p order by r limit n`. -/
def select (r : α → α → Prop) [DecidableRel r] (p : α → Bool) (limit : Nat) (rows : List α) : List α :=
  ((rows.filter p).insertionSort r).take limit

section Select
variable {r : α → α → Prop} [DecidableRel r] {p : α → Bool} {limit : Nat} {rows : List α}

theorem mem_of_mem_select {x : α} (h : x ∈ select r p limit rows) : x ∈ rows ∧ p x = true :=
  List.mem_filter.mp ((List.mem_insertionSort r).mp (List.mem_of_mem_take h))

theorem select_eq_nil_iff : select r p limit rows = [] ↔ limit = 0 ∨ ∀ x ∈ rows, ¬ p x = true := by
  rw [select, List.take_eq_nil_iff, ← List.filter_eq_nil_iff]
  exact or_congr_right (by rw [← List.length_eq_zero_iff, List.length_insertionSort, List.length_eq_zero_iff])

/-- The first selected row comes before every matching one. -/
theorem exists_head_select [Std.Total r] [IsTrans α r] {y : α} (hy : y ∈ rows) (hp : p y = true) :
    ∃ x, (select r p 1 rows).head? = some x ∧ r x y := by
  have hmem : y ∈ (rows.filter p).insertionSort r := (List.mem_insertionSort r).mpr (List.mem_filter.mpr ⟨hy, hp⟩)
  have hsorted := List.pairwise_insertionSort r (rows.filter p)
  rw [select]
  cases hlist : (rows.filter p).insertionSort r with
  | nil =>
    rw [hlist] at hmem
    cases hmem
  | cons x rest =>
    rw [hlist] at hmem hsorted
    refine ⟨x, rfl, ?_⟩
    rcases List.mem_cons.mp hmem with rfl | hrest
    · exact (Std.Total.total y y).elim id id
    · exact List.rel_of_pairwise_cons hsorted hrest

end Select

section LookAhead

/-- One entry more than wanted is fetched and dropped again. -/
theorem drop_look_ahead (l : List α) (m : Nat) :
    (if m < l.length then (l.take (m + 1)).dropLast else l.take (m + 1)) = l.take m := by
  split
  · rw [List.dropLast_eq_take, List.length_take, List.take_take]
    congr 1
    omega
  · rw [List.take_of_length_le (i := m) (by omega), List.take_of_length_le (by omega)]

theorem look_ahead_iff (l : List α) (m : Nat) : m < (l.take (m + 1)).length ↔ m < l.length := by
  rw [List.length_take]
  omega

end LookAhead

section Order
variable [LinearOrder α]

theorem insertionSort_congr {r : α → α → Prop} [DecidableRel r] (h : ∀ a b, r a b ↔ a ≤ b) (l : List α) :
    l.insertionSort r = l.insertionSort (· ≤ ·) := by
  have hr : r = (· ≤ ·) := funext fun a => funext fun b => propext (h a b)
  subst hr
  congr

/-- Filtering before or after ordering is the same. -/
theorem insertionSort_filter (p : α → Bool) (l : List α) :
    (l.filter p).insertionSort (· ≤ ·) = (l.insertionSort (· ≤ ·)).filter p := by
  apply List.Perm.eq_of_pairwise' (List.pairwise_insertionSort (· ≤ ·) (l.filter p))
  · exact (List.pairwise_insertionSort _ _).filter p
  · exact (List.perm_insertionSort _ _).trans ((List.perm_insertionSort _ l).symm.filter p)

/-- The opposite order lists the same rows backwards. -/
theorem insertionSort_ge {r : α → α → Prop} [DecidableRel r] (h : ∀ a b, r a b ↔ b ≤ a) (l : List α) :
    l.insertionSort r = (l.insertionSort (· ≤ ·)).reverse := by
  have htotal : Std.Total r := ⟨fun a b => by rw [h, h]; exact le_total b a⟩
  have htrans : IsTrans α r := ⟨fun a b c hab hbc => by
    rw [h] at hab hbc ⊢
    exact hbc.trans hab⟩
  have hsorted : (l.insertionSort r).reverse.Pairwise (· ≤ ·) := by
    rw [List.pairwise_reverse]
    exact (List.pairwise_insertionSort r l).imp fun hab => (h _ _).mp hab
  rw [← List.reverse_reverse (l.insertionSort r)]
  congr 1
  apply List.Perm.eq_of_pairwise' hsorted (List.pairwise_insertionSort (· ≤ ·) l)
  exact (List.reverse_perm _).trans ((List.perm_insertionSort r l).trans (List.perm_insertionSort _ l).symm)

theorem insertionSort_strict {l : List α} (h : l.Nodup) : (l.insertionSort (· ≤ ·)).Pairwise (· < ·) := by
  have hn : (l.insertionSort (· ≤ ·)).Nodup := (List.perm_insertionSort _ l).nodup_iff.mpr h
  exact (List.pairwise_insertionSort _ l).imp₂ (fun _ _ hle hne => lt_of_le_of_ne hle hne) hn

end Order

section Strict
variable [LinearOrder α] {a b : List α} {x : α} {p : α → Bool}

/-- In a strictly ordered list the entries above one of its members are those that follow it. -/
theorem filter_gt_of_strict (h : (a ++ x :: b).Pairwise (· < ·)) (hp : ∀ y, p y = true ↔ x < y) :
    (a ++ x :: b).filter p = b := by
  obtain ⟨_, hb, hab⟩ := List.pairwise_append.mp h
  have ha : a.filter p = [] := by
    rw [List.filter_eq_nil_iff]
    intro y hy
    exact fun hpy => lt_asymm (hab y hy x List.mem_cons_self) ((hp y).mp hpy)
  have hb' : b.filter p = b := by
    rw [List.filter_eq_self]
    intro y hy
    exact (hp y).mpr ((List.pairwise_cons.mp hb).1 y hy)
  have hx : ¬ p x = true := fun hpx => lt_irrefl x ((hp x).mp hpx)
  rw [List.filter_append, List.filter_cons_of_neg hx, ha, hb', List.nil_append]

/-- In a strictly ordered list the entries below one of its members are those that precede it. -/
theorem filter_lt_of_strict (h : (a ++ x :: b).Pairwise (· < ·)) (hp : ∀ y, p y = true ↔ y < x) :
    (a ++ x :: b).filter p = a := by
  obtain ⟨_, hb, hab⟩ := List.pairwise_append.mp h
  have ha : a.filter p = a := by
    rw [List.filter_eq_self]
    intro y hy
    exact (hp y).mpr (hab y hy x List.mem_cons_self)
  have hb' : b.filter p = [] := by
    rw [List.filter_eq_nil_iff]
    intro y hy
    exact fun hpy => lt_asymm ((List.pairwise_cons.mp hb).1 y hy) ((hp y).mp hpy)
  have hx : ¬ p x = true := fun hpx => lt_irrefl x ((hp x).mp hpx)
  rw [List.filter_append, List.filter_cons_of_neg hx, ha, hb', List.append_nil]

/-- In a strictly ordered list an entry with fewer than `m` entries below it is among the first `m`. -/
theorem mem_take_of_countP_lt {l : List α} (h : l.Pairwise (· < ·)) (hx : x ∈ l) (hp : ∀ y, p y = true ↔ y < x)
    {m : Nat}
    (hm : l.countP p < m) : x ∈ l.take m := by
  obtain ⟨a, b, rfl⟩ := List.append_of_mem hx
  rw [List.countP_eq_length_filter, filter_lt_of_strict h hp] at hm
  rw [List.take_append]
  apply List.mem_append_right
  obtain ⟨k, hk⟩ := Nat.exists_eq_add_of_lt hm
  have hsub : m - a.length = k + 1 := by omega
  rw [hsub]
  exact List.mem_cons_self

end Strict
end Webshot.Foundation.OrderedSelect
