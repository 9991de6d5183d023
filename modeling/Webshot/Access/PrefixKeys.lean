import Webshot.Access.Link
import Webshot.Foundation.SegmentCuts
import Webshot.Foundation.Splitting

/-! `prefix::MakePrefixKey` and `prefix::MakePrefixTree`, and how Postgres reads the result. -/
namespace Webshot.Access
open Text Foundation.SegmentCuts Foundation.Splitting

def hexDigit (n : Nat) : Byte := Fin.ofNat 256 (if n < 10 then 48 + n else 87 + n)

/-- userver's lower-case `ToHex`. -/
def toHex (bytes : Bytes) : Bytes := bytes.flatMap fun b => [hexDigit (b.val / 16), hexDigit (b.val % 16)]

def maxBytesPerLabel : Nat := 127

def appendEncodedSegment (out bytes : Bytes) : Bytes :=
  if bytes.isEmpty then out ++ ascii ".x"
  else (pieces maxBytesPerLabel bytes).foldl (fun out chunk => out ++ ascii "." ++ ascii "x" ++ toHex chunk) out

/-- The `find`/`substr` loop: one call per separated segment, also for the last and for empty ones. -/
def appendSplitSegments (out input : Bytes) (sep : Byte) : Bytes :=
  (input.splitOn sep).foldl appendEncodedSegment out

def makePrefixTree (prefixKey : Bytes) : Bytes :=
  match prefixKey.idxOf? slash with
  | none => appendSplitSegments (ascii "h") prefixKey dot
  | some firstSlash =>
    let out := appendSplitSegments (ascii "h") (prefixKey.take firstSlash) dot
    appendSplitSegments (out ++ ascii ".p") (prefixKey.drop (firstSlash + 1)) slash

/-- The host labels in reverse order, joined by dots again. -/
def reversedHost (hostname : Bytes) : Bytes := [dot].intercalate (hostname.splitOn dot).reverse

/-- The path of a key: a lone slash vanishes, otherwise one trailing slash does. -/
def prefixPath (path : Bytes) : Bytes :=
  if path = [slash] then []
  else if path.getLast? = some slash then path.dropLast else path

def makePrefixKey (una : UniAlgo) (link : Link) : Option Bytes :=
  fromBytes una (reversedHost link.hostname ++ prefixPath link.pathname)

/-- An ltree is the list of its dot-separated labels. -/
def ltreeLabels (tree : Bytes) : List Bytes := tree.splitOn dot

/-- Postgres `a @> b`. -/
def ltreeAncestor (a b : Bytes) : Bool := (ltreeLabels a).isPrefixOf (ltreeLabels b)

theorem ltreeAncestor_iff (a b : Bytes) : ltreeAncestor a b = true ↔ ltreeLabels a <+: ltreeLabels b :=
  List.isPrefixOf_iff_prefix

theorem ltreeAncestor_refl (a : Bytes) : ltreeAncestor a a = true :=
  (ltreeAncestor_iff a a).mpr (List.prefix_refl _)

def hostPart (key : Bytes) : Bytes := key.takeWhile (· ≠ slash)

def hostLabels (key : Bytes) : List Bytes := (hostPart key).splitOn dot

/-- The path segments of a key, if it has a path. -/
def pathSegments (key : Bytes) : Option (List Bytes) :=
  if slash ∈ key then some ((key.dropWhile (· ≠ slash)).tail.splitOn slash) else none

/-- `d` covers `k` at segment boundaries. -/
def Covers (d k : Bytes) : Prop :=
  match pathSegments d, pathSegments k with
  | none, _ => hostLabels d <+: hostLabels k
  | some a, some b => hostPart d = hostPart k ∧ a <+: b
  | some _, none => False

/-- The labels `MakePrefixTree` writes for a list of segments. -/
def segmentLabels (segments : List Bytes) : List Bytes :=
  (flatCuts maxBytesPerLabel segments).map fun chunk => ascii "x" ++ toHex chunk

private theorem hexDigit_injective {m n : Nat} (hm : m < 16) (hn : n < 16) (h : hexDigit m = hexDigit n) :
    m = n := by
  have hv := congrArg Fin.val h
  simp only [hexDigit, Fin.val_ofNat] at hv
  split at hv <;> split at hv <;> omega

private theorem hexDigit_ne_dot {n : Nat} (hn : n < 16) : hexDigit n ≠ dot := by
  intro h
  have hv := congrArg Fin.val h
  have hd : dot.val = 46 := rfl
  simp only [hexDigit, Fin.val_ofNat, hd] at hv
  split at hv <;> omega

theorem toHex_injective : Function.Injective toHex := by
  intro a
  induction a with
  | nil =>
    intro b h
    cases b with
    | nil => rfl
    | cons y b => exact absurd h (by simp [toHex])
  | cons x a ih =>
    intro b h
    cases b with
    | nil => exact absurd h (by simp [toHex])
    | cons y b =>
      simp only [toHex, List.flatMap_cons, List.cons_append, List.nil_append, List.cons.injEq] at h
      obtain ⟨hh, hl, ht⟩ := h
      have hx := x.isLt
      have hy := y.isLt
      have hhi := hexDigit_injective (by omega) (by omega) hh
      have hlo := hexDigit_injective (by omega) (by omega) hl
      have hxy : x = y := Fin.ext (by omega)
      rw [hxy, ih ht]

private theorem dot_notMem_toHex (b : Bytes) : dot ∉ toHex b := by
  simp only [toHex, List.mem_flatMap, List.mem_cons, List.not_mem_nil, or_false, not_exists, not_and, not_or]
  intro x _
  have hx := x.isLt
  exact ⟨fun h => hexDigit_ne_dot (by omega) h.symm, fun h => hexDigit_ne_dot (by omega) h.symm⟩

private theorem dot_notMem_label (chunk : Bytes) : dot ∉ ascii "x" ++ toHex chunk := by
  intro h
  rcases List.mem_append.mp h with h | h
  · exact absurd h (by decide)
  · exact dot_notMem_toHex chunk h

private theorem label_injective : Function.Injective fun chunk : Bytes => ascii "x" ++ toHex chunk :=
  fun _ _ h => toHex_injective (List.append_cancel_left h)

/-- Every segment label starts with `x`, so it is neither `h` nor the path marker `p`. -/
theorem mem_segmentLabels {segments : List Bytes} {l : Bytes} (h : l ∈ segmentLabels segments) :
    l ≠ ascii "p" ∧ dot ∉ l := by
  obtain ⟨chunk, _, rfl⟩ := List.mem_map.mp h
  refine ⟨fun hp => ?_, dot_notMem_label chunk⟩
  have hhead : some (120 : Byte) = some 112 := congrArg List.head? hp
  exact absurd hhead (by decide)

theorem segmentLabels_prefix_iff (a b : List Bytes) :
    segmentLabels a <+: segmentLabels b ↔ flatCuts maxBytesPerLabel a <+: flatCuts maxBytesPerLabel b :=
  List.prefix_map_iff_of_injective label_injective

theorem segmentLabels_injective {a b : List Bytes} (h : segmentLabels a = segmentLabels b) :
    flatCuts maxBytesPerLabel a = flatCuts maxBytesPerLabel b :=
  List.map_injective_iff.mpr label_injective h

private theorem appendEncodedSegment_eq (out seg : Bytes) :
    appendEncodedSegment out seg =
      out ++ ((cuts maxBytesPerLabel seg).map fun c => ascii "x" ++ toHex c).flatMap (dot :: ·) := by
  have hfold (l : List Bytes) (out : Bytes) :
      l.foldl (fun out chunk => out ++ ascii "." ++ ascii "x" ++ toHex chunk) out =
        out ++ (l.map fun c => ascii "x" ++ toHex c).flatMap (dot :: ·) := by
    induction l generalizing out with
    | nil => simp
    | cons c l ih =>
      rw [List.foldl_cons, ih]
      simp only [List.map_cons, List.flatMap_cons, List.append_assoc, List.cons_append]
      rfl
  rw [appendEncodedSegment, cuts]
  split
  · rfl
  · exact hfold _ _

private theorem appendSplitSegments_eq (out input : Bytes) (sep : Byte) :
    appendSplitSegments out input sep = out ++ (segmentLabels (input.splitOn sep)).flatMap (dot :: ·) := by
  rw [appendSplitSegments]
  induction input.splitOn sep generalizing out with
  | nil => simp [segmentLabels]
  | cons s l ih =>
    rw [List.foldl_cons, ih, appendEncodedSegment_eq]
    simp only [segmentLabels, flatCuts_cons, List.map_append, List.flatMap_append, List.append_assoc]

private theorem idxOf?_slash (key : Bytes) :
    (slash ∉ key ∧ key.idxOf? slash = none ∧ hostPart key = key) ∨
    (slash ∈ key ∧ ∃ i, key.idxOf? slash = some i ∧ key.take i = hostPart key ∧
      key.drop (i + 1) = (key.dropWhile (· ≠ slash)).tail) := by
  induction key with
  | nil => exact Or.inl ⟨List.not_mem_nil, rfl, rfl⟩
  | cons x key ih =>
    by_cases hx : x = slash
    · subst hx
      exact Or.inr ⟨List.mem_cons_self, 0, by simp [List.idxOf?_cons, hostPart]⟩
    · rcases ih with ⟨hn, hi, hp⟩ | ⟨hm, i, hi, ht, hd⟩
      · refine Or.inl ⟨?_, ?_, ?_⟩
        · simp [Ne.symm hx, hn]
        · simp [List.idxOf?_cons, hx, hi]
        · simpa [hostPart, hx] using hp
      · refine Or.inr ⟨List.mem_cons_of_mem x hm, i + 1, ?_, ?_, ?_⟩
        · simp [List.idxOf?_cons, hx, hi]
        · simpa [hostPart, hx] using ht
        · simpa [hx] using hd

/-- The labels of a tree: `h`, the host segments, and after a `p` the path segments. -/
theorem ltreeLabels_makePrefixTree (key : Bytes) :
    ltreeLabels (makePrefixTree key) = ascii "h" :: (segmentLabels (hostLabels key) ++
      (pathSegments key).elim [] fun segments => ascii "p" :: segmentLabels segments) := by
  have hsplit (rest : List Bytes) (hr : ∀ l ∈ rest, dot ∉ l) :
      (ascii "h" ++ rest.flatMap (dot :: ·)).splitOn dot = ascii "h" :: rest := by
    rw [← intercalate_cons]
    refine List.splitOn_intercalate dot ?_ (List.cons_ne_nil _ _)
    intro l hl
    rcases List.mem_cons.mp hl with rfl | hl
    · decide
    · exact hr l hl
  rcases idxOf?_slash key with ⟨hn, hi, hp⟩ | ⟨hm, i, hi, ht, hd⟩
  · rw [ltreeLabels, makePrefixTree, hi]
    simp only [pathSegments, hn, if_false, Option.elim_none, List.append_nil]
    rw [appendSplitSegments_eq, hsplit _ fun l hl => (mem_segmentLabels hl).2, hostLabels, hp]
  · rw [ltreeLabels, makePrefixTree, hi]
    simp only [pathSegments, hm, if_true, Option.elim_some, ht, hd]
    rw [appendSplitSegments_eq, appendSplitSegments_eq]
    have hjoin : ascii "h" ++ (segmentLabels (hostLabels key)).flatMap (dot :: ·) ++ ascii ".p" ++
        (segmentLabels ((key.dropWhile (· ≠ slash)).tail.splitOn slash)).flatMap (dot :: ·) =
        ascii "h" ++ (segmentLabels (hostLabels key) ++
          ascii "p" :: segmentLabels ((key.dropWhile (· ≠ slash)).tail.splitOn slash)).flatMap (dot :: ·) := by
      simp only [List.flatMap_append, List.flatMap_cons, List.append_assoc]
      rfl
    refine (congrArg (List.splitOn dot) hjoin).trans (hsplit _ ?_)
    intro l hl
    rcases List.mem_append.mp hl with hl | hl
    · exact (mem_segmentLabels hl).2
    · rcases List.mem_cons.mp hl with rfl | hl
      · decide
      · exact (mem_segmentLabels hl).2

private theorem reversedHost_mem {hostname : Bytes} {x : Byte} (h : x ∈ reversedHost hostname) :
    x = dot ∨ x ∈ hostname := by
  rcases mem_intercalate h with h | ⟨l, hl, hx⟩
  · exact Or.inl h
  · exact Or.inr ((mem_splitOn (List.mem_reverse.mp hl)).2 hx)

private theorem prefixPath_subset (path : Bytes) : prefixPath path ⊆ path := by
  unfold prefixPath
  split
  · exact List.nil_subset path
  · split
    · exact List.dropLast_subset path
    · exact List.Subset.refl path

private theorem prefixPath_absolute {path : Bytes} (h : path.head? = some slash) :
    prefixPath path = [] ∨ (prefixPath path).head? = some slash := by
  unfold prefixPath
  split
  · exact Or.inl rfl
  · rename_i hne
    split
    · match path, h with
      | [_], h => exact absurd (congrArg (fun x => [x]) (Option.some.inj h)) hne
      | _ :: _ :: _, h => exact Or.inr h
    · exact Or.inr h

/-- The key of a link always exists: the bytes handed to `String::FromBytes` are ASCII. -/
theorem makePrefixKey_eq (una : UniAlgo) (link : Link) :
    makePrefixKey una link = some (reversedHost link.hostname ++ prefixPath link.pathname) := by
  apply fromBytes_ascii
  apply IsAscii.append
  · intro x hx
    rcases reversedHost_mem hx with rfl | hx
    · decide
    · exact link.hostname_ascii x hx
  · exact link.pathname_ascii.of_subset (prefixPath_subset _)

/-- The host labels of a link's key are the labels of its hostname, last one first. -/
theorem hostLabels_prefixKey (link : Link) :
    hostLabels (reversedHost link.hostname ++ prefixPath link.pathname) = (link.hostname.splitOn dot).reverse := by
  have hhost : slash ∉ reversedHost link.hostname := by
    intro h
    rcases reversedHost_mem h with h | h
    · exact absurd h (by decide)
    · exact link.hostname_slash h
  have hpart : hostPart (reversedHost link.hostname ++ prefixPath link.pathname) = reversedHost link.hostname := by
    have hall : ∀ x ∈ reversedHost link.hostname, decide (x ≠ slash) = true :=
      fun x hx => decide_eq_true fun he => hhost (he ▸ hx)
    rw [hostPart, List.takeWhile_append_of_pos hall]
    rcases prefixPath_absolute link.pathname_absolute with h | h
    · rw [h, List.takeWhile_nil, List.append_nil]
    · cases hp : prefixPath link.pathname with
      | nil => rw [hp] at h; cases h
      | cons x rest =>
        rw [hp, List.head?_cons, Option.some.injEq] at h
        rw [h, List.takeWhile_cons_of_neg (by decide), List.append_nil]
  rw [hostLabels, hpart]
  exact splitOn_intercalate_reverse dot link.hostname

end Webshot.Access
