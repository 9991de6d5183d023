import Mathlib.Algebra.Order.Ring.Int

/-! Signed 64-bit words whose arithmetic wraps around. -/
namespace Webshot.Foundation.SignedWords

/-- The numbers of a signed 64-bit word. -/
def InInt64 (n : Int) : Prop := -2 ^ 63 ≤ n ∧ n < 2 ^ 63

instance (n : Int) : Decidable (InInt64 n) := inferInstanceAs (Decidable (_ ∧ _))

/-- The word that the exact result of an operation leaves. -/
def wrap64 (n : Int) : Int := n.bmod (2 ^ 64)

theorem wrap64_eq {n : Int} (h : InInt64 n) : wrap64 n = n :=
  Int.bmod_eq_of_le_mul_two (by have := h.1; omega) (by have := h.2; omega)

end Webshot.Foundation.SignedWords
