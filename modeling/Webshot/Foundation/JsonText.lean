import Mathlib.Data.Fin.Basic
import Mathlib.Data.List.TakeWhile
import Mathlib.Data.Nat.Digits.Defs
import Webshot.Foundation.Octets

/-! Pieces of JSON text over octets: literals, strings, whole numbers and hexadecimal pairs, each
with the reader that takes it off the front of the input. -/
namespace Webshot.Foundation.JsonText

abbrev Octets := List (Fin 256)

/-- Takes a fixed text off the front. -/
def expect : Octets → Octets → Option Octets
  | [], s => some s
  | _ :: _, [] => none
  | a :: l, b :: s => if a = b then expect l s else none

theorem expect_append (l s : Octets) : expect l (l ++ s) = some s := by
  induction l with
  | nil => rfl
  | cons a l ih =>
    rw [List.cons_append, expect, if_pos rfl]
    exact ih

/-- Lower case, as UUIDs are printed. -/
def hexDigit (n : Nat) : Fin 256 := if n < 10 then Fin.ofNat 256 (48 + n) else Fin.ofNat 256 (87 + n)

def hexValue (c : Fin 256) : Option Nat :=
  if 48 ≤ c.val ∧ c.val ≤ 57 then some (c.val - 48)
  else if 97 ≤ c.val ∧ c.val ≤ 102 then some (c.val - 87)
  else none

theorem hexDigit_spec {n : Nat} (h : n < 16) :
    hexValue (hexDigit n) = some n ∧ (hexDigit n).val < 128 ∧ hexDigit n ≠ 45 := by
  have hall : ∀ m : Fin 16, hexValue (hexDigit m.val) = some m.val ∧ (hexDigit m.val).val < 128 ∧ hexDigit m.val ≠ 45 := by
    decide
  exact hall ⟨n, h⟩

def hexPair (c : Fin 256) : Octets := [hexDigit (c.val / 16), hexDigit (c.val % 16)]

def readHexPairs : Octets → Option Octets
  | [] => some []
  | [_] => none
  | h :: l :: rest => do
    let h ← hexValue h
    let l ← hexValue l
    let rest ← readHexPairs rest
    return Fin.ofNat 256 (16 * h + l) :: rest

private theorem ofNat_pair (c : Fin 256) : Fin.ofNat 256 (16 * (c.val / 16) + c.val % 16) = c := by
  apply Fin.ext
  rw [Nat.div_add_mod]
  exact Nat.mod_eq_of_lt c.isLt

theorem readHexPairs_hexPair (s : Octets) : readHexPairs (s.flatMap hexPair) = some s := by
  induction s with
  | nil => rfl
  | cons c s ih =>
    have hc := c.isLt
    have hhigh := (hexDigit_spec (n := c.val / 16) (by omega)).1
    have hlow := (hexDigit_spec (n := c.val % 16) (by omega)).1
    rw [List.flatMap_cons]
    simp only [hexPair, List.cons_append, List.nil_append, readHexPairs, hhigh, hlow, Option.bind_eq_bind,
      Option.bind_some, Option.pure_def]
    rw [ih, Option.bind_some, ofNat_pair]

theorem hexPair_spec {x : Fin 256} {s : Octets} (hx : x ∈ s.flatMap hexPair) : x.val < 128 ∧ x ≠ 45 := by
  obtain ⟨c, _, hx⟩ := List.mem_flatMap.mp hx
  have hc := c.isLt
  rcases List.mem_cons.mp hx with rfl | hx
  · exact (hexDigit_spec (by omega)).2
  · rw [List.mem_singleton.mp hx]
    exact (hexDigit_spec (by omega)).2

theorem hexPair_range {x : Fin 256} {s : Octets} (hx : x ∈ s.flatMap hexPair) : 48 ≤ x.val := by
  have hdigit : ∀ m : Fin 16, 48 ≤ (hexDigit m.val).val := by decide
  obtain ⟨c, _, hx⟩ := List.mem_flatMap.mp hx
  have hc := c.isLt
  rcases List.mem_cons.mp hx with rfl | hx
  · exact hdigit ⟨c.val / 16, by omega⟩
  · rw [List.mem_singleton.mp hx]
    exact hdigit ⟨c.val % 16, by omega⟩

/-- Quotes and backslashes are escaped, control characters are written as `\u00XX`. -/
def escape (c : Fin 256) : Octets :=
  if c.val = 34 ∨ c.val = 92 then [92, c]
  else if c.val < 32 then 92 :: 117 :: 48 :: 48 :: hexPair c
  else [c]

def stringText (s : Octets) : Octets := 34 :: (s.flatMap escape ++ [34])

/-- Where a string reader stands: between characters, after a backslash, or inside `\uXXXX` with
some digits still to come. -/
inductive CharMode where
  | plain
  | escaped
  | hex (left : Nat) (value : Nat)

/-- The rest of a string after its opening quote. -/
def readChars : CharMode → Octets → Option (Octets × Octets)
  | _, [] => none
  | .plain, c :: rest =>
    if c = 34 then some ([], rest)
    else if c = 92 then readChars .escaped rest
    else (readChars .plain rest).map fun x => (c :: x.1, x.2)
  | .escaped, c :: rest =>
    if c = 117 then readChars (.hex 3 0) rest
    else (readChars .plain rest).map fun x => (c :: x.1, x.2)
  | .hex 0 value, c :: rest => do
    let d ← hexValue c
    (readChars .plain rest).map fun x => (Fin.ofNat 256 (16 * value + d) :: x.1, x.2)
  | .hex (left + 1) value, c :: rest => do
    let d ← hexValue c
    readChars (.hex left (16 * value + d)) rest

def readString (text : Octets) : Option (Octets × Octets) := do readChars .plain (← expect [34] text)

theorem readChars_escape (c : Fin 256) (rest : Octets) :
    readChars .plain (escape c ++ rest) = (readChars .plain rest).map fun x => (c :: x.1, x.2) := by
  have hc := c.isLt
  unfold escape
  split
  · rename_i h
    have h117 : c ≠ 117 := by
      rintro rfl
      exact absurd h (by decide)
    simp [readChars, h117]
  · rename_i h
    rw [not_or] at h
    split
    · have hzero : hexValue 48 = some 0 := by decide
      have hhigh := (hexDigit_spec (n := c.val / 16) (by omega)).1
      have hlow := (hexDigit_spec (n := c.val % 16) (by omega)).1
      simp [readChars, hexPair, hzero, hhigh, hlow, Nat.div_add_mod]
    · have h34 : c ≠ 34 := fun h0 => h.1 (congrArg Fin.val h0)
      have h92 : c ≠ 92 := fun h0 => h.2 (congrArg Fin.val h0)
      simp [readChars, h34, h92]

theorem readString_stringText (s rest : Octets) : readString (stringText s ++ rest) = some (s, rest) := by
  have hchars : readChars .plain (s.flatMap escape ++ 34 :: rest) = some (s, rest) := by
    induction s with
    | nil => rfl
    | cons c s ih => rw [List.flatMap_cons, List.append_assoc, readChars_escape, ih, Option.map_some]
  rw [readString, stringText, List.cons_append, List.append_assoc]
  exact hchars

theorem stringText_ascii {s : Octets} (h : ∀ x ∈ s, x.val < 128) : ∀ x ∈ stringText s, x.val < 128 := by
  have hescape : ∀ c : Fin 256, c.val < 128 → ∀ x ∈ escape c, x.val < 128 := by
    intro c hc x hx
    unfold escape at hx
    split at hx
    · rcases List.mem_cons.mp hx with rfl | hx
      · decide
      · rwa [List.mem_singleton.mp hx]
    · split at hx
      · simp only [List.mem_cons] at hx
        rcases hx with rfl | rfl | rfl | rfl | hx
        · decide
        · decide
        · decide
        · decide
        · exact (hexPair_spec (s := [c]) (by simpa using hx)).1
      · rwa [List.mem_singleton.mp hx]
  intro x hx
  rcases List.mem_cons.mp hx with rfl | hx
  · decide
  · rcases List.mem_append.mp hx with hx | hx
    · obtain ⟨c, hc, hx⟩ := List.mem_flatMap.mp hx
      exact hescape c (h c hc) x hx
    · rw [List.mem_singleton.mp hx]
      decide

/-- The decimal digits of a number, and none for zero. -/
def digitsText (n : Nat) : Octets := ((Nat.digits 10 n).map fun d => Fin.ofNat 256 (48 + d)).reverse

def natText (n : Nat) : Octets := if n = 0 then [48] else digitsText n

def isDigit (c : Fin 256) : Bool := 48 ≤ c.val && c.val ≤ 57

def digitsValue (ds : Octets) : Nat := Nat.ofDigits 10 (ds.reverse.map fun c => c.val - 48)

def intText : Int → Octets
  | .ofNat n => natText n
  | .negSucc n => 45 :: natText (n + 1)

def readInt (text : Octets) : Int × Octets :=
  if text.head? = some 45 then
    (-(digitsValue (text.tail.takeWhile isDigit) : Int), text.tail.dropWhile isDigit)
  else (digitsValue (text.takeWhile isDigit), text.dropWhile isDigit)

private theorem digit_char {d : Nat} (h : d < 10) :
    isDigit (Fin.ofNat 256 (48 + d)) = true ∧ (Fin.ofNat 256 (48 + d)).val - 48 = d := by
  have hall : ∀ m : Fin 10, isDigit (Fin.ofNat 256 (48 + m.val)) = true ∧ (Fin.ofNat 256 (48 + m.val)).val - 48 = m.val := by
    decide
  exact hall ⟨d, h⟩

theorem natText_digits (n : Nat) : (∀ c ∈ natText n, isDigit c = true) ∧ digitsValue (natText n) = n := by
  by_cases hn : n = 0
  · subst hn
    decide +kernel
  · have hlt : ∀ d ∈ Nat.digits 10 n, d < 10 := fun d hd => Nat.digits_lt_base (by decide) hd
    rw [natText, if_neg hn, digitsText]
    constructor
    · intro c hc
      obtain ⟨d, hd, rfl⟩ := List.mem_map.mp (List.mem_reverse.mp hc)
      exact (digit_char (hlt d hd)).1
    · rw [digitsValue, List.reverse_reverse, List.map_map]
      have hid : (Nat.digits 10 n).map ((fun c : Fin 256 => c.val - 48) ∘ fun d => Fin.ofNat 256 (48 + d)) =
          Nat.digits 10 n := by
        conv_rhs => rw [← List.map_id (Nat.digits 10 n)]
        exact List.map_congr_left fun d hd => (digit_char (hlt d hd)).2
      rw [hid, Nat.ofDigits_digits]

theorem natText_span (n : Nat) {c : Fin 256} {r : Octets} (hc : isDigit c = false) :
    (natText n ++ c :: r).takeWhile isDigit = natText n ∧ (natText n ++ c :: r).dropWhile isDigit = c :: r := by
  have hall := (natText_digits n).1
  constructor
  · rw [List.takeWhile_append_of_pos hall, List.takeWhile_cons_of_neg (by rw [hc]; decide), List.append_nil]
  · rw [List.dropWhile_append_of_pos hall, List.dropWhile_cons_of_neg (by rw [hc]; decide)]

theorem natText_ne_nil (n : Nat) : natText n ≠ [] := by
  unfold natText
  split
  · exact List.cons_ne_nil _ _
  · rename_i hn
    rw [digitsText, Ne, List.reverse_eq_nil_iff, List.map_eq_nil_iff]
    exact Nat.digits_ne_nil_iff_ne_zero.mpr hn

theorem readInt_intText (i : Int) {c : Fin 256} {rest : Octets} (hc : isDigit c = false) :
    readInt (intText i ++ c :: rest) = (i, c :: rest) := by
  cases i with
  | ofNat n =>
    obtain ⟨htake, hdrop⟩ := natText_span n (r := rest) hc
    have hhead : (natText n ++ c :: rest).head? ≠ some 45 := by
      obtain ⟨d, ds, hd⟩ := List.exists_cons_of_ne_nil (natText_ne_nil n)
      have hdig := (natText_digits n).1 d (by rw [hd]; exact List.mem_cons_self)
      rw [hd]
      intro h0
      rw [Option.some.inj h0] at hdig
      exact absurd hdig (by decide)
    rw [intText, readInt, if_neg hhead, htake, hdrop, (natText_digits n).2]
    rfl
  | negSucc n =>
    obtain ⟨htake, hdrop⟩ := natText_span (n + 1) (r := rest) hc
    rw [intText, List.cons_append, readInt, List.head?_cons, if_pos rfl, List.tail_cons, htake, hdrop,
      (natText_digits (n + 1)).2]
    rfl

theorem intText_injective : Function.Injective intText := by
  intro i j h
  have hi : readInt (intText i ++ [0]) = (i, [0]) := readInt_intText i rfl
  have hj : readInt (intText j ++ [0]) = (j, [0]) := readInt_intText j rfl
  rw [h, hj] at hi
  exact (congrArg Prod.fst hi).symm

theorem intText_ascii (i : Int) : ∀ x ∈ intText i, x.val < 128 := by
  have hdigit : ∀ c : Fin 256, isDigit c = true → c.val < 128 := by
    intro c hc
    simp only [isDigit, Bool.and_eq_true, decide_eq_true_eq] at hc
    omega
  intro x hx
  cases i with
  | ofNat n => exact hdigit x ((natText_digits n).1 x hx)
  | negSucc n =>
    rcases List.mem_cons.mp hx with rfl | hx
    · decide
    · exact hdigit x ((natText_digits (n + 1)).1 x hx)

end Webshot.Foundation.JsonText
