import Mathlib.Data.List.AList

/-! Finite maps with one type of values: lookups after an insertion or an erasure, and their values. -/
namespace Webshot.Foundation.KeyedMaps
variable {κ ν : Type} [DecidableEq κ]

abbrev KeyedMap (κ ν : Type) := AList fun _ : κ => ν

theorem lookup_insert_eq (m : KeyedMap κ ν) (key key' : κ) (value : ν) :
    (m.insert key value).lookup key' = if key' = key then some value else m.lookup key' := by
  split
  · rename_i h
    rw [h, AList.lookup_insert]
  · rename_i h
    exact AList.lookup_insert_ne h

theorem lookup_erase_eq (m : KeyedMap κ ν) (key key' : κ) :
    (m.erase key).lookup key' = if key' = key then none else m.lookup key' := by
  split
  · rename_i h
    rw [h, AList.lookup_erase]
  · rename_i h
    exact AList.lookup_erase_ne h

theorem lookup_erase_of_none {m : KeyedMap κ ν} {key key' : κ} (h : m.lookup key' = none) :
    (m.erase key).lookup key' = none := by
  rw [lookup_erase_eq, h]
  exact ite_self none

/-- Insertion that leaves an existing entry alone. -/
def emplace (m : KeyedMap κ ν) (key : κ) (value : ν) : KeyedMap κ ν := if key ∈ m then m else m.insert key value

theorem emplace_of_notMem {m : KeyedMap κ ν} {key : κ} (h : key ∉ m) (value : ν) :
    emplace m key value = m.insert key value := if_neg h

theorem notMem_of_lookup {m : KeyedMap κ ν} {key : κ} (h : m.lookup key = none) : key ∉ m := AList.lookup_eq_none.mp h

theorem mem_of_lookup {m : KeyedMap κ ν} {key : κ} {value : ν} (h : m.lookup key = some value) : key ∈ m :=
  AList.lookup_isSome.mp (by rw [h]; rfl)

def values (m : KeyedMap κ ν) : List ν := m.entries.map (·.2)

theorem mem_values {m : KeyedMap κ ν} {value : ν} : value ∈ values m ↔ ∃ key, m.lookup key = some value := by
  rw [values, List.mem_map]
  constructor
  · rintro ⟨⟨key, value⟩, hmem, rfl⟩
    exact ⟨key, AList.mem_lookup_iff.mpr hmem⟩
  · rintro ⟨key, hkey⟩
    exact ⟨⟨key, value⟩, AList.mem_lookup_iff.mp hkey, rfl⟩

/-- Where no two keys share a value, the values are distinct. -/
theorem values_nodup {m : KeyedMap κ ν}
    (h : ∀ key key' value, m.lookup key = some value → m.lookup key' = some value → key = key') : (values m).Nodup := by
  rw [values]
  apply List.Nodup.map_on
  · rintro ⟨key, value⟩ hmem ⟨key', value'⟩ hmem' heq
    cases heq
    cases h key key' value (AList.mem_lookup_iff.mpr hmem) (AList.mem_lookup_iff.mpr hmem')
    rfl
  · exact List.Nodup.of_map _ m.keys_nodup

end Webshot.Foundation.KeyedMaps
