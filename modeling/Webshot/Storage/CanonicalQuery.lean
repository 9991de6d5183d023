import Mathlib.Data.List.Lex
import Mathlib.Data.List.Perm.Basic
import Mathlib.Data.List.Sort
import Mathlib.Data.Prod.Lex
import Mathlib.Order.Fin.Basic
import Webshot.Storage.QueryStrings

/-! The canonical query that an S3 request is signed with. -/
namespace Webshot.Storage
open Text Foundation Foundation.FirstCuts Foundation.Splitting

/-- Letters, digits and the four marks that stand for themselves. -/
def isUnreserved (c : Byte) : Bool :=
  (65 ≤ c.val && c.val ≤ 90) || (97 ≤ c.val && c.val ≤ 122) || (48 ≤ c.val && c.val ≤ 57) || c = 45 || c = 95 || c = 46 ||
    c = 126

inductive EncodeSlash where
  | no
  | yes
  deriving DecidableEq

def EncodeSlash.keeps (encodeSlash : EncodeSlash) (c : Byte) : Bool :=
  isUnreserved c || (encodeSlash = .no && c = slash)

def percentEncodeBytes (s : Bytes) (encodeSlash : EncodeSlash) : Bytes := PercentEncoding.encode encodeSlash.keeps s

/-- The order of pairs of `std::string`. -/
def PairLe (a b : Bytes × Bytes) : Prop := a.1 < b.1 ∨ a.1 = b.1 ∧ a.2 ≤ b.2

instance : DecidableRel PairLe := fun a b => inferInstanceAs (Decidable (a.1 < b.1 ∨ a.1 = b.1 ∧ a.2 ≤ b.2))

def encodePair (pair : Bytes × Bytes) : Bytes × Bytes :=
  (percentEncodeBytes pair.1 .yes, percentEncodeBytes pair.2 .yes)

/-- A name and its value. -/
def parameterText (pair : Bytes × Bytes) : Bytes := pair.1 ++ equals :: pair.2

/-- `CanonicalizeQueryImpl`. -/
def canonicalizeQuery (query : List (Bytes × Bytes)) : Bytes :=
  [ampersand].intercalate (((query.map encodePair).insertionSort PairLe).map parameterText)

theorem keeps_percent (encodeSlash : EncodeSlash) : encodeSlash.keeps PercentEncoding.percent = false := by
  cases encodeSlash with
  | no => decide
  | yes => decide

theorem percentDecode_percentEncodeBytes (s : Bytes) (encodeSlash : EncodeSlash) :
    PercentEncoding.decode (percentEncodeBytes s encodeSlash) = s :=
  PercentEncoding.decode_encode (keeps_percent encodeSlash) s

theorem percentEncodeBytes_injective (encodeSlash : EncodeSlash) :
    Function.Injective fun s => percentEncodeBytes s encodeSlash :=
  PercentEncoding.encode_injective (keeps_percent encodeSlash)

theorem encodePair_injective : Function.Injective encodePair := by
  intro a b h
  obtain ⟨hname, hvalue⟩ := Prod.mk.inj h
  exact Prod.ext (percentEncodeBytes_injective .yes hname) (percentEncodeBytes_injective .yes hvalue)

/-- Encoded texts are ASCII and have no separator in them. -/
theorem mem_percentEncodeBytes {x : Byte} {s : Bytes} (h : x ∈ percentEncodeBytes s .yes) :
    x.val < 128 ∧ x ≠ ampersand ∧ x ≠ equals ∧ x ≠ questionMark := by
  have hkept : ∀ y : Byte, EncodeSlash.yes.keeps y = true ∨ y = PercentEncoding.percent ∨
      (48 ≤ y.val ∧ y.val ≤ 57 ∨ 65 ≤ y.val ∧ y.val ≤ 70) →
        y.val < 128 ∧ y ≠ ampersand ∧ y ≠ equals ∧ y ≠ questionMark := by
    decide +kernel
  exact hkept x (PercentEncoding.mem_encode h)

section Sorting

theorem pairLe_iff (a b : Bytes × Bytes) : PairLe a b ↔ toLex a ≤ toLex b := Prod.Lex.toLex_le_toLex.symm

instance : Std.Total PairLe := ⟨fun a b => by rw [pairLe_iff, pairLe_iff]; exact le_total (toLex a) (toLex b)⟩

instance : IsTrans (Bytes × Bytes) PairLe := ⟨fun a b c hab hbc => by
  rw [pairLe_iff] at hab hbc ⊢
  exact hab.trans hbc⟩

theorem pairLe_antisymm {a b : Bytes × Bytes} (hab : PairLe a b) (hba : PairLe b a) : a = b := by
  rw [pairLe_iff] at hab hba
  exact toLex.injective (le_antisymm hab hba)

theorem insertionSort_pairLe_eq_iff {q r : List (Bytes × Bytes)} :
    q.insertionSort PairLe = r.insertionSort PairLe ↔ q.Perm r := by
  constructor
  · intro h
    exact (List.perm_insertionSort PairLe q).symm.trans (h ▸ List.perm_insertionSort PairLe r)
  · intro h
    have hperm : (q.insertionSort PairLe).Perm (r.insertionSort PairLe) :=
      (List.perm_insertionSort PairLe q).trans (h.trans (List.perm_insertionSort PairLe r).symm)
    exact hperm.eq_of_pairwise (fun _ _ _ _ => pairLe_antisymm) (List.pairwise_insertionSort PairLe q)
      (List.pairwise_insertionSort PairLe r)

end Sorting

section Joining

/-- No separator is in the name, and no ampersand in the value. -/
structure Separable (pair : Bytes × Bytes) : Prop where
  name_amp : ampersand ∉ pair.1
  name_equals : equals ∉ pair.1
  value_amp : ampersand ∉ pair.2

theorem separable_encodePair (pair : Bytes × Bytes) : Separable (encodePair pair) where
  name_amp h := (mem_percentEncodeBytes h).2.1 rfl
  name_equals h := (mem_percentEncodeBytes h).2.2.1 rfl
  value_amp h := (mem_percentEncodeBytes h).2.1 rfl

theorem Separable.amp_notMem {pair : Bytes × Bytes} (h : Separable pair) : ampersand ∉ parameterText pair := by
  rw [parameterText, List.mem_append, List.mem_cons, not_or, not_or]
  exact ⟨h.name_amp, by decide, h.value_amp⟩

theorem splitOn_joined {pairs : List (Bytes × Bytes)} (h : ∀ pair ∈ pairs, Separable pair) (hne : pairs ≠ []) :
    ([ampersand].intercalate (pairs.map parameterText)).splitOn ampersand = pairs.map parameterText := by
  apply List.splitOn_intercalate
  · intro segment hsegment
    obtain ⟨pair, hpair, rfl⟩ := List.mem_map.mp hsegment
    exact (h pair hpair).amp_notMem
  · rwa [Ne, List.map_eq_nil_iff]

theorem parameterText_injOn {a b : Bytes × Bytes} (ha : Separable a) (hb : Separable b)
    (h : parameterText a = parameterText b) : a = b := by
  obtain ⟨hname, hrest⟩ := append_inj_of_notMem ha.name_equals hb.name_equals (Or.inr rfl) (Or.inr rfl) h
  exact Prod.ext hname (List.cons.inj hrest).2

theorem joined_eq_nil {pairs : List (Bytes × Bytes)} (h : [ampersand].intercalate (pairs.map parameterText) = []) :
    pairs = [] := by
  cases pairs with
  | nil => rfl
  | cons pair pairs =>
    rw [List.map_cons, intercalate_cons, List.append_eq_nil_iff, parameterText, List.append_eq_nil_iff] at h
    cases h.1.2

/-- The parameters can be read off the joined text. -/
theorem joined_injOn {q r : List (Bytes × Bytes)} (hq : ∀ pair ∈ q, Separable pair) (hr : ∀ pair ∈ r, Separable pair)
    (h : [ampersand].intercalate (q.map parameterText) = [ampersand].intercalate (r.map parameterText)) : q = r := by
  by_cases hqe : q = []
  · subst hqe
    exact (joined_eq_nil h.symm).symm
  · by_cases hre : r = []
    · subst hre
      exact joined_eq_nil h
    · have hsegments : q.map parameterText = r.map parameterText := by
        rw [← splitOn_joined hq hqe, h, splitOn_joined hr hre]
      clear h hqe hre
      induction q generalizing r with
      | nil => exact (List.map_eq_nil_iff.mp hsegments.symm).symm
      | cons a q ih =>
        cases r with
        | nil => cases hsegments
        | cons b r =>
          rw [List.map_cons, List.map_cons, List.cons.injEq] at hsegments
          have hfirst := parameterText_injOn (hq a List.mem_cons_self) (hr b List.mem_cons_self) hsegments.1
          have hrest := ih (fun pair hpair => hq pair (List.mem_cons_of_mem a hpair))
            (fun pair hpair => hr pair (List.mem_cons_of_mem b hpair)) hsegments.2
          rw [hfirst, hrest]

theorem separable_sorted (query : List (Bytes × Bytes)) :
    ∀ pair ∈ (query.map encodePair).insertionSort PairLe, Separable pair := by
  intro pair hpair
  obtain ⟨plain, _, rfl⟩ := List.mem_map.mp ((List.mem_insertionSort PairLe).mp hpair)
  exact separable_encodePair plain

theorem canonicalizeQuery_eq_iff {q r : List (Bytes × Bytes)} : canonicalizeQuery q = canonicalizeQuery r ↔ q.Perm r := by
  constructor
  · intro h
    have hsorted := joined_injOn (separable_sorted q) (separable_sorted r) h
    exact (List.map_perm_map_iff encodePair_injective).mp (insertionSort_pairLe_eq_iff.mp hsorted)
  · intro h
    rw [canonicalizeQuery, canonicalizeQuery, insertionSort_pairLe_eq_iff.mpr (h.map encodePair)]

end Joining

section Decoding
variable {env : QueryEnv}

theorem mem_canonicalizeQuery {query : List (Bytes × Bytes)} {x : Byte} (h : x ∈ canonicalizeQuery query) :
    x.val < 128 ∧ x ≠ questionMark := by
  rcases mem_intercalate h with rfl | ⟨segment, hsegment, hx⟩
  · decide
  · obtain ⟨pair, hpair, rfl⟩ := List.mem_map.mp hsegment
    obtain ⟨plain, _, rfl⟩ := List.mem_map.mp ((List.mem_insertionSort PairLe).mp hpair)
    rcases List.mem_append.mp hx with hx | hx
    · exact ⟨(mem_percentEncodeBytes hx).1, (mem_percentEncodeBytes hx).2.2.2⟩
    · rcases List.mem_cons.mp hx with rfl | hx
      · decide
      · exact ⟨(mem_percentEncodeBytes hx).1, (mem_percentEncodeBytes hx).2.2.2⟩

theorem fromBytes_str {una : UniAlgo} (text : Str una) : fromBytes una text.bytes = some text.bytes := by
  rw [fromBytes_of_valid text.valid, text.normal]

/-- A parameter of two texts is read back. -/
theorem splitDecoded_encodePair (name value : Str env.una) :
    SplitDecoded env.una (parameterText (encodePair (name.bytes, value.bytes))) (name.bytes, value.bytes) := by
  refine ⟨_, _, rfl, (separable_encodePair _).name_equals, ?_, ?_⟩
  · rw [encodePair, percentDecode_percentEncodeBytes]
    exact fromBytes_str name
  · rw [encodePair, percentDecode_percentEncodeBytes]
    exact fromBytes_str value

/-- The order in which a canonical query has its parameters. -/
def sortedQuery (query : List (Bytes × Bytes)) : List (Bytes × Bytes) :=
  query.insertionSort fun a b => PairLe (encodePair a) (encodePair b)

theorem insertionSort_encodePair (query : List (Bytes × Bytes)) :
    (query.map encodePair).insertionSort PairLe = (sortedQuery query).map encodePair :=
  (List.map_insertionSort _ _ encodePair query fun _ _ _ _ => Iff.rfl).symm

theorem decodeQueryString_canonicalizeQuery (query : List (Str env.una × Str env.una)) :
    env.decodeQueryString (canonicalizeQuery (query.map fun pair => (pair.1.bytes, pair.2.bytes))) =
      .ok (sortedQuery (query.map fun pair => (pair.1.bytes, pair.2.bytes))) := by
  generalize hpairs : query.map (fun pair => (pair.1.bytes, pair.2.bytes)) = pairs
  have htext : ∀ pair ∈ sortedQuery pairs, SplitDecoded env.una (parameterText (encodePair pair)) pair := by
    intro pair hpair
    have hmem := (List.mem_insertionSort _).mp hpair
    rw [← hpairs] at hmem
    obtain ⟨texts, _, rfl⟩ := List.mem_map.mp hmem
    exact splitDecoded_encodePair texts.1 texts.2
  have hmark : withoutMark (canonicalizeQuery pairs) = canonicalizeQuery pairs := by
    rw [withoutMark, if_neg]
    intro hhead
    exact (mem_canonicalizeQuery (List.mem_of_mem_head? hhead)).2 rfl
  rw [QueryEnv.decodeQueryString, hmark]
  by_cases hempty : sortedQuery pairs = []
  · rw [canonicalizeQuery, insertionSort_encodePair, hempty]
    rfl
  · have hjoined := splitOn_joined (separable_sorted pairs)
    rw [insertionSort_encodePair, Ne, List.map_eq_nil_iff, ← insertionSort_encodePair] at hjoined
    have hsplit : (canonicalizeQuery pairs).splitOn ampersand = (sortedQuery pairs).map (parameterText ∘ encodePair) := by
      rw [canonicalizeQuery, hjoined hempty, insertionSort_encodePair, List.map_map]
    split
    · rename_i hnil
      have hsorted := joined_eq_nil (List.isEmpty_iff.mp hnil)
      rw [insertionSort_encodePair] at hsorted
      exact absurd (List.map_eq_nil_iff.mp hsorted) hempty
    · apply decodeLoop_of_segments (le_of_eq (by rw [List.drop_zero]))
      rw [List.drop_zero, hsplit, List.forall₂_map_left_iff]
      exact List.forall₂_same.mpr htext

theorem isAscii_canonicalizeQuery (query : List (Bytes × Bytes)) : IsAscii (canonicalizeQuery query) :=
  fun _ hx => (mem_canonicalizeQuery hx).1

end Decoding

/-- A canonical query says which parameters there are, and how often each, and nothing of their order; encoding loses
nothing; and of texts the query is read back in the order that it has them in. -/
theorem canonicalizeQuery_identifies (env : QueryEnv) :
    (∀ q r : List (Bytes × Bytes), canonicalizeQuery q = canonicalizeQuery r ↔ q.Perm r) ∧
    (∀ encodeSlash, Function.Injective fun s => percentEncodeBytes s encodeSlash) ∧
    (∀ encodeSlash s, PercentEncoding.decode (percentEncodeBytes s encodeSlash) = s) ∧
    ∀ query : List (Str env.una × Str env.una),
      let texts := query.map fun pair => (pair.1.bytes, pair.2.bytes)
      fromBytes env.una (canonicalizeQuery texts) = some (canonicalizeQuery texts) ∧
        env.decodeQueryString (canonicalizeQuery texts) =
          .ok (texts.insertionSort fun a b => PairLe (encodePair a) (encodePair b)) := by
  refine ⟨fun q r => canonicalizeQuery_eq_iff, percentEncodeBytes_injective, ?_, ?_⟩
  · exact fun encodeSlash s => percentDecode_percentEncodeBytes s encodeSlash
  · intro query texts
    exact ⟨fromBytes_ascii env.una (isAscii_canonicalizeQuery texts), decodeQueryString_canonicalizeQuery query⟩

end Webshot.Storage
