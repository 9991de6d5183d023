import Webshot.Foundation.JsonText
import Webshot.Storage.Values

/-! The printed form of a UUID. -/
namespace Webshot.Storage
open Text Foundation.JsonText

/-- 8-4-4-4-12 hexadecimal digits. -/
def uuidText (u : Uuid) : Bytes :=
  let b := u.val
  (b.take 4).flatMap hexPair ++ 45 :: ((b.drop 4).take 2).flatMap hexPair ++ 45 :: ((b.drop 6).take 2).flatMap hexPair ++
    45 :: ((b.drop 8).take 2).flatMap hexPair ++ 45 :: (b.drop 10).flatMap hexPair

def readUuid (s : Bytes) : Option Uuid := do
  let b ← readHexPairs (s.filter (· ≠ 45))
  if h : b.length = 16 then some ⟨b, h⟩ else none

theorem readUuid_uuidText (u : Uuid) : readUuid (uuidText u) = some u := by
  have hkeep (s : Bytes) : (s.flatMap hexPair).filter (· ≠ 45) = s.flatMap hexPair := by
    rw [List.filter_eq_self]
    intro x hx
    exact decide_eq_true (hexPair_spec hx).2
  have hdash (s : Bytes) : ((45 : Byte) :: s).filter (· ≠ 45) = s.filter (· ≠ 45) :=
    List.filter_cons_of_neg (by decide)
  have hjoin (j k : Nat) : (u.val.drop j).take k ++ u.val.drop (j + k) = u.val.drop j := by
    rw [← List.drop_drop, List.take_append_drop]
  have hfilter : (uuidText u).filter (· ≠ 45) = u.val.flatMap hexPair := by
    simp only [uuidText, List.filter_append, hdash, hkeep, List.append_assoc, ← List.flatMap_append]
    rw [hjoin 8 2, hjoin 6 2, hjoin 4 2, List.take_append_drop]
  rw [readUuid, hfilter, readHexPairs_hexPair]
  exact dif_pos u.property

theorem uuidText_injective : Function.Injective uuidText := by
  intro u v h
  have hu := readUuid_uuidText u
  rw [h, readUuid_uuidText] at hu
  exact (Option.some.inj hu).symm

theorem uuidText_ascii (u : Uuid) : IsAscii (uuidText u) := by
  have hpair (s : Bytes) : IsAscii (s.flatMap hexPair) := fun x hx => (hexPair_spec hx).1
  have hdash : IsAscii [45] := List.forall_mem_singleton.mpr (by decide)
  exact (((((hpair _).append (hdash.append (hpair _))).append (hdash.append (hpair _))).append
    (hdash.append (hpair _))).append (hdash.append (hpair _)))

theorem uuidText_range {u : Uuid} {x : Byte} (hx : x ∈ uuidText u) : 45 ≤ x.val := by
  have hpair : ∀ s : Bytes, ∀ y ∈ s.flatMap hexPair, 45 ≤ y.val := by
    intro s y hy
    exact le_trans (by decide) (hexPair_range hy)
  simp only [uuidText, List.mem_append, List.mem_cons] at hx
  rcases hx with (((hx | rfl | hx) | rfl | hx) | rfl | hx) | rfl | hx
  · exact hpair _ x hx
  · decide
  · exact hpair _ x hx
  · decide
  · exact hpair _ x hx
  · decide
  · exact hpair _ x hx
  · decide
  · exact hpair _ x hx

end Webshot.Storage
