import Mathlib.Data.List.Basic
import Webshot.Foundation.Octets

/-! Percent-encoding of octets: those outside a chosen set are written as `%` and two hexadecimal digits. -/
namespace Webshot.Foundation.PercentEncoding

abbrev Octets := List (Fin 256)

def percent : Fin 256 := 37

/-- Upper case. -/
def hexDigit (n : Nat) : Fin 256 := if n < 10 then Fin.ofNat 256 (48 + n) else Fin.ofNat 256 (55 + n)

/-- In either case. -/
def hexValue (c : Fin 256) : Option Nat :=
  if 48 ≤ c.val ∧ c.val ≤ 57 then some (c.val - 48)
  else if 65 ≤ c.val ∧ c.val ≤ 70 then some (c.val - 55)
  else if 97 ≤ c.val ∧ c.val ≤ 102 then some (c.val - 87)
  else none

def IsHexDigit (c : Fin 256) : Prop := (48 ≤ c.val ∧ c.val ≤ 57) ∨ (65 ≤ c.val ∧ c.val ≤ 70)

theorem hexDigit_spec {n : Nat} (h : n < 16) : hexValue (hexDigit n) = some n ∧ IsHexDigit (hexDigit n) := by
  have hall : ∀ m : Fin 16, hexValue (hexDigit m.val) = some m.val ∧
      (48 ≤ (hexDigit m.val).val ∧ (hexDigit m.val).val ≤ 57 ∨ 65 ≤ (hexDigit m.val).val ∧ (hexDigit m.val).val ≤ 70) := by
    decide
  exact hall ⟨n, h⟩

variable (keep : Fin 256 → Bool)

def encodeOctet (c : Fin 256) : Octets :=
  if keep c then [c] else [percent, hexDigit (c.val / 16), hexDigit (c.val % 16)]

def encode (s : Octets) : Octets := s.flatMap (encodeOctet keep)

/-- A `%` with two hexadecimal digits behind it stands for an octet; everything else stands for itself. -/
def decode : Octets → Octets
  | [] => []
  | [a] => [a]
  | [a, b] => [a, b]
  | a :: h :: l :: rest =>
    if a = percent then
      match hexValue h, hexValue l with
      | some high, some low => Fin.ofNat 256 (16 * high + low) :: decode rest
      | _, _ => a :: decode (h :: l :: rest)
    else a :: decode (h :: l :: rest)

variable {keep} {c : Fin 256} {s rest : Octets}

theorem decode_cons (h : c ≠ percent) (s : Octets) : decode (c :: s) = c :: decode s := by
  match s with
  | [] => rfl
  | [_] => rfl
  | _ :: _ :: _ => rw [decode, if_neg h]

/-- What was written for one octet is read off the front. -/
theorem decode_encodeOctet (hplain : keep c = true → c ≠ percent) (rest : Octets) :
    decode (encodeOctet keep c ++ rest) = c :: decode rest := by
  have hc := c.isLt
  rw [encodeOctet]
  split
  · rename_i hkept
    exact decode_cons (hplain hkept) rest
  · have hhigh := (hexDigit_spec (n := c.val / 16) (by omega)).1
    have hlow := (hexDigit_spec (n := c.val % 16) (by omega)).1
    have hvalue : Fin.ofNat 256 (16 * (c.val / 16) + c.val % 16) = c := by
      apply Fin.ext
      rw [Nat.div_add_mod]
      exact Nat.mod_eq_of_lt hc
    simp only [List.cons_append, List.nil_append]
    rw [decode, if_pos rfl, hhigh, hlow]
    simp only [hvalue]

theorem decode_encode_append (hplain : ∀ c ∈ s, keep c = true → c ≠ percent) (rest : Octets) :
    decode (encode keep s ++ rest) = s ++ decode rest := by
  induction s with
  | nil => rfl
  | cons c s ih =>
    obtain ⟨hc, hs⟩ := List.forall_mem_cons.mp hplain
    rw [encode, List.flatMap_cons, ← encode, List.append_assoc, decode_encodeOctet hc, ih hs, List.cons_append]

private theorem decode_encode_of_plain (hplain : ∀ c ∈ s, keep c = true → c ≠ percent) : decode (encode keep s) = s := by
  have h := decode_encode_append hplain []
  rwa [List.append_nil, decode, List.append_nil] at h

theorem decode_encode (hkeep : keep percent = false) (s : Octets) : decode (encode keep s) = s := by
  apply decode_encode_of_plain
  rintro c _ hc rfl
  rw [hkeep] at hc
  cases hc

/-- Whatever is kept, a text without a percent sign is read back. -/
theorem decode_encode_of_notMem (h : percent ∉ s) : decode (encode keep s) = s := by
  apply decode_encode_of_plain
  rintro c hc _ rfl
  exact h hc

theorem encode_injective (hkeep : keep percent = false) : Function.Injective (encode keep) :=
  Function.LeftInverse.injective (decode_encode hkeep)

/-- What is written is kept octets, percent signs and hexadecimal digits. -/
theorem mem_encode (h : c ∈ encode keep s) : keep c = true ∨ c = percent ∨ IsHexDigit c := by
  obtain ⟨d, _, hd⟩ := List.mem_flatMap.mp h
  have hlt := d.isLt
  rw [encodeOctet] at hd
  split at hd
  · rename_i hkept
    rw [List.mem_singleton.mp hd]
    exact Or.inl hkept
  · simp only [List.mem_cons, List.not_mem_nil, or_false] at hd
    rcases hd with rfl | rfl | rfl
    · exact Or.inr (Or.inl rfl)
    · exact Or.inr (Or.inr (hexDigit_spec (by omega)).2)
    · exact Or.inr (Or.inr (hexDigit_spec (by omega)).2)

end Webshot.Foundation.PercentEncoding
