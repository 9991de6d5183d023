import Mathlib.Data.Fin.Basic
import Mathlib.Data.Fintype.Basic
import Webshot.Foundation.Octets

/-! Base64 with the URL-safe alphabet and without padding. -/
namespace Webshot.Foundation.Base64Url

abbrev Octets := List (Fin 256)

/-- `A-Z`, `a-z`, `0-9`, `-`, `_`. -/
def digit (n : Nat) : Fin 256 :=
  if n < 26 then Fin.ofNat 256 (65 + n)
  else if n < 52 then Fin.ofNat 256 (71 + n)
  else if n < 62 then Fin.ofNat 256 (n - 4)
  else if n = 62 then 45
  else 95

def value (c : Fin 256) : Option Nat :=
  if 65 ≤ c.val ∧ c.val ≤ 90 then some (c.val - 65)
  else if 97 ≤ c.val ∧ c.val ≤ 122 then some (c.val - 71)
  else if 48 ≤ c.val ∧ c.val ≤ 57 then some (c.val + 4)
  else if c.val = 45 then some 62
  else if c.val = 95 then some 63
  else none

def encode : Octets → Octets
  | a :: b :: c :: rest =>
    digit (a.val / 4) :: digit (a.val % 4 * 16 + b.val / 16) :: digit (b.val % 16 * 4 + c.val / 64) ::
      digit (c.val % 64) :: encode rest
  | [a, b] => [digit (a.val / 4), digit (a.val % 4 * 16 + b.val / 16), digit (b.val % 16 * 4)]
  | [a] => [digit (a.val / 4), digit (a.val % 4 * 16)]
  | [] => []

/-- A lone last digit carries no octet and is refused. -/
def decode : Octets → Option Octets
  | w :: x :: y :: z :: rest => do
    let w ← value w
    let x ← value x
    let y ← value y
    let z ← value z
    let rest ← decode rest
    return Fin.ofNat 256 (w * 4 + x / 16) :: Fin.ofNat 256 (x % 16 * 16 + y / 4) :: Fin.ofNat 256 (y % 4 * 64 + z) :: rest
  | [w, x, y] => do
    let w ← value w
    let x ← value x
    let y ← value y
    return [Fin.ofNat 256 (w * 4 + x / 16), Fin.ofNat 256 (x % 16 * 16 + y / 4)]
  | [w, x] => do
    let w ← value w
    let x ← value x
    return [Fin.ofNat 256 (w * 4 + x / 16)]
  | [_] => none
  | [] => some []

theorem digit_val {n : Nat} (h : n < 64) : (digit n).val < 128 ∧ value (digit n) = some n := by
  have hall : ∀ m : Fin 64, (digit m.val).val < 128 ∧ value (digit m.val) = some m.val := by decide
  exact hall ⟨n, h⟩

private theorem ofNat_eq {n : Nat} {a : Fin 256} (h : n = a.val) : Fin.ofNat 256 n = a := by
  apply Fin.ext
  rw [h]
  exact Nat.mod_eq_of_lt a.isLt

theorem decode_encode (l : Octets) : decode (encode l) = some l := by
  induction l using encode.induct with
  | case1 a b c rest ih =>
    have ha := a.isLt
    have hb := b.isLt
    have hc := c.isLt
    simp only [encode, decode, (digit_val (n := a.val / 4) (by omega)).2,
      (digit_val (n := a.val % 4 * 16 + b.val / 16) (by omega)).2,
      (digit_val (n := b.val % 16 * 4 + c.val / 64) (by omega)).2, (digit_val (n := c.val % 64) (by omega)).2, ih,
      Option.bind_eq_bind, Option.bind_some, Option.pure_def]
    rw [ofNat_eq (a := a) (by omega), ofNat_eq (a := b) (by omega), ofNat_eq (a := c) (by omega)]
  | case2 a b =>
    have ha := a.isLt
    have hb := b.isLt
    simp only [encode, decode, (digit_val (n := a.val / 4) (by omega)).2,
      (digit_val (n := a.val % 4 * 16 + b.val / 16) (by omega)).2, (digit_val (n := b.val % 16 * 4) (by omega)).2,
      Option.bind_eq_bind, Option.bind_some, Option.pure_def]
    rw [ofNat_eq (a := a) (by omega), ofNat_eq (a := b) (by omega)]
  | case3 a =>
    have ha := a.isLt
    simp only [encode, decode, (digit_val (n := a.val / 4) (by omega)).2,
      (digit_val (n := a.val % 4 * 16) (by omega)).2, Option.bind_eq_bind, Option.bind_some, Option.pure_def]
    rw [ofNat_eq (a := a) (by omega)]
  | case4 => rfl

theorem encode_ascii (l : Octets) : ∀ c ∈ encode l, c.val < 128 := by
  induction l using encode.induct with
  | case1 a b c rest ih =>
    have ha := a.isLt
    have hb := b.isLt
    have hc := c.isLt
    simp only [encode, List.forall_mem_cons]
    exact ⟨(digit_val (by omega)).1, (digit_val (by omega)).1, (digit_val (by omega)).1, (digit_val (by omega)).1, ih⟩
  | case2 a b =>
    have ha := a.isLt
    have hb := b.isLt
    simp only [encode, List.forall_mem_cons]
    exact ⟨(digit_val (by omega)).1, (digit_val (by omega)).1, (digit_val (by omega)).1, fun _ h => nomatch h⟩
  | case3 a =>
    have ha := a.isLt
    simp only [encode, List.forall_mem_cons]
    exact ⟨(digit_val (by omega)).1, (digit_val (by omega)).1, fun _ h => nomatch h⟩
  | case4 => exact fun _ h => nomatch h

theorem encode_ne_nil {l : Octets} (h : l ≠ []) : encode l ≠ [] := by
  intro h0
  have hdec := decode_encode l
  rw [h0] at hdec
  exact h (Option.some.inj hdec).symm

end Webshot.Foundation.Base64Url
