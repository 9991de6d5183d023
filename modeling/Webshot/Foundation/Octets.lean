import Mathlib.Algebra.GroupWithZero.Nat
import Mathlib.Data.Fin.Basic

/-! Octets are `Fin 256`. Their literals and their equality rest on the instances below in every
module, whatever else it imports. -/
namespace Webshot.Foundation

instance octet_literals : NeZero 256 := ⟨by decide⟩

instance octet_eq_lawful : LawfulBEq (Fin 256) := inferInstance

instance octets_eq_lawful : LawfulBEq (List (Fin 256)) := inferInstance

end Webshot.Foundation
