import Mathlib.Data.List.TakeWhile
import Webshot.Access.PrefixKeys

/-! When the tree order on prefix keys is the covering order. Host labels are too short to be cut;
a path segment that is cut is indistinguishable from several segments. -/
namespace Webshot.Access
open Text Foundation.SegmentCuts

/-- Both keys have a path under the same host, and the path segments collide at the label width. -/
def PathCollision (d k : Bytes) : Prop :=
  hostPart d = hostPart k ∧
    ∃ a b, pathSegments d = some a ∧ pathSegments k = some b ∧ Collides maxBytesPerLabel a b

/-- A key whose host labels fit into one tree label each. -/
def ShortHost (key : Bytes) : Prop := ∀ l ∈ hostLabels key, l.length ≤ maxBytesPerLabel

private theorem label_width_pos : 0 < maxBytesPerLabel := by decide

private theorem p_notMem (segments : List Bytes) : ascii "p" ∉ segmentLabels segments :=
  fun h => (mem_segmentLabels h).1 rfl

private theorem hostLabels_injective {d k : Bytes} (h : hostLabels d = hostLabels k) : hostPart d = hostPart k := by
  have := congrArg ([dot].intercalate ·) h
  simpa only [hostLabels, List.intercalate_splitOn] using this

private theorem hostPart_append_path (key : Bytes) :
    key = hostPart key ++ (pathSegments key).elim [] fun segments => slash :: [slash].intercalate segments := by
  have hsplit := (List.takeWhile_append_dropWhile (p := (· ≠ slash)) (l := key)).symm
  unfold pathSegments
  split
  · rename_i hm
    have hdrop : key.dropWhile (· ≠ slash) = slash :: (key.dropWhile (· ≠ slash)).tail := by
      clear hsplit
      induction key with
      | nil => exact absurd hm List.not_mem_nil
      | cons x key ih =>
        by_cases hx : x = slash
        · simp [hx]
        · have hm' : slash ∈ key := (List.mem_cons.mp hm).resolve_left (Ne.symm hx)
          simpa [hx] using ih hm'
    rw [Option.elim_some, List.intercalate_splitOn, ← hdrop]
    exact hsplit
  · rename_i hm
    have hall : key.takeWhile (· ≠ slash) = key := by
      rw [List.takeWhile_eq_self_iff]
      intro x hx
      exact decide_eq_true fun he => hm (he ▸ hx)
    rw [Option.elim_none, List.append_nil]
    exact hall.symm

private theorem key_ext {d k : Bytes} (hh : hostPart d = hostPart k) (hp : pathSegments d = pathSegments k) :
    d = k := by
  rw [hostPart_append_path d, hostPart_append_path k, hh, hp]

private theorem hostLabels_prefix_iff {d k : Bytes} (hd : ShortHost d) (hk : ShortHost k) :
    segmentLabels (hostLabels d) <+: segmentLabels (hostLabels k) ↔ hostLabels d <+: hostLabels k := by
  rw [segmentLabels_prefix_iff, flatCuts_short label_width_pos hd, flatCuts_short label_width_pos hk]

private theorem hostLabels_eq_iff {d k : Bytes} (hd : ShortHost d) (hk : ShortHost k) :
    segmentLabels (hostLabels d) = segmentLabels (hostLabels k) ↔ hostPart d = hostPart k := by
  constructor
  · intro h
    have he := segmentLabels_injective h
    rw [flatCuts_short label_width_pos hd, flatCuts_short label_width_pos hk] at he
    exact hostLabels_injective he
  · intro h
    rw [hostLabels, hostLabels, h]

/-- Without a path the tree order is the order of host label lists. -/
theorem ancestor_of_host_key {d k : Bytes} (hd : ShortHost d) (hk : ShortHost k)
    (hp : pathSegments d = none) :
    ltreeAncestor (makePrefixTree d) (makePrefixTree k) = true ↔ hostLabels d <+: hostLabels k := by
  rw [ltreeAncestor_iff, ltreeLabels_makePrefixTree, ltreeLabels_makePrefixTree, List.cons_prefix_cons,
    and_iff_right rfl, hp, Option.elim_none, List.append_nil, ← hostLabels_prefix_iff hd hk]
  cases pathSegments k with
  | none => rw [Option.elim_none, List.append_nil]
  | some b => exact prefix_marked_iff (p_notMem _)

/-- With a path the hosts must agree and the cut path segments must run through. -/
theorem ancestor_of_path_key {d k : Bytes} (hd : ShortHost d) (hk : ShortHost k) {a : List Bytes}
    (hp : pathSegments d = some a) :
    ltreeAncestor (makePrefixTree d) (makePrefixTree k) = true ↔
      hostPart d = hostPart k ∧ ∃ b, pathSegments k = some b ∧
        flatCuts maxBytesPerLabel a <+: flatCuts maxBytesPerLabel b := by
  rw [ltreeAncestor_iff, ltreeLabels_makePrefixTree, ltreeLabels_makePrefixTree, List.cons_prefix_cons,
    and_iff_right rfl, hp, Option.elim_some]
  cases hk' : pathSegments k with
  | none =>
    rw [Option.elim_none, List.append_nil]
    constructor
    · intro h
      have hmem := h.subset (List.mem_append_right _ List.mem_cons_self)
      exact absurd hmem (p_notMem _)
    · rintro ⟨_, b, hb, _⟩
      cases hb
  | some b =>
    rw [Option.elim_some, marked_prefix_marked_iff (p_notMem _) (p_notMem _), hostLabels_eq_iff hd hk,
      segmentLabels_prefix_iff]
    constructor
    · rintro ⟨hh, hb⟩
      exact ⟨hh, b, rfl, hb⟩
    · rintro ⟨hh, b', hb', h⟩
      cases hb'
      exact ⟨hh, h⟩

/-- The covering law at a pair of keys, and with it injectivity, fails exactly at path collisions. -/
theorem covering_law_iff {d k : Bytes} (hd : ShortHost d) (hk : ShortHost k) :
    ((ltreeAncestor (makePrefixTree d) (makePrefixTree k) = true ↔ Covers d k) ∧
      (makePrefixTree d = makePrefixTree k → d = k)) ↔ ¬ PathCollision d k := by
  have hself (h : makePrefixTree d = makePrefixTree k) :
      ltreeAncestor (makePrefixTree d) (makePrefixTree k) = true ∧
        ltreeAncestor (makePrefixTree k) (makePrefixTree d) = true := by
    rw [h]
    exact ⟨ltreeAncestor_refl _, ltreeAncestor_refl _⟩
  cases hp : pathSegments d with
  | none =>
    have hno : ¬ PathCollision d k := by
      rintro ⟨_, a, _, ha, _⟩
      rw [hp] at ha
      cases ha
    refine ⟨fun _ => hno, fun _ => ⟨?_, fun h => ?_⟩⟩
    · rw [ancestor_of_host_key hd hk hp]
      simp only [Covers, hp]
    · cases hp' : pathSegments k with
      | none =>
        have hdk := (ancestor_of_host_key hd hk hp).mp (hself h).1
        have hkd := (ancestor_of_host_key hk hd hp').mp (hself h).2
        exact key_ext (hostLabels_injective (hdk.eq_of_length_le hkd.length_le)) (hp.trans hp'.symm)
      | some b =>
        obtain ⟨_, a, ha, _⟩ := (ancestor_of_path_key hk hd hp').mp (hself h).2
        rw [hp] at ha
        cases ha
  | some a =>
    rw [ancestor_of_path_key hd hk hp]
    cases hp' : pathSegments k with
    | none =>
      have hno : ¬ PathCollision d k := by
        rintro ⟨_, _, b, _, hb, _⟩
        rw [hp'] at hb
        cases hb
      refine ⟨fun _ => hno, fun _ => ⟨by simp [Covers, hp, hp'], fun h => ?_⟩⟩
      obtain ⟨_, b, hb, _⟩ := (ancestor_of_path_key hd hk hp).mp (hself h).1
      rw [hp'] at hb
      cases hb
    | some b =>
      have hcover : Covers d k ↔ hostPart d = hostPart k ∧ a <+: b := by simp only [Covers, hp, hp']
      have hcoll : PathCollision d k ↔ hostPart d = hostPart k ∧ Collides maxBytesPerLabel a b := by
        simp [PathCollision, hp, hp']
      rw [hcover, hcoll]
      by_cases hh : hostPart d = hostPart k
      · simp only [hh, true_and, Option.some.injEq, exists_eq_left']
        rw [← flatCuts_faithful_iff label_width_pos]
        refine and_iff_left_of_imp fun hlaw h => ?_
        obtain ⟨_, b', hb', hcut⟩ := (ancestor_of_path_key hd hk hp).mp (hself h).1
        obtain ⟨_, a', ha', hcut'⟩ := (ancestor_of_path_key hk hd hp').mp (hself h).2
        rw [hp'] at hb'
        rw [hp] at ha'
        cases hb'
        cases ha'
        have hcuts := hcut.eq_of_length_le hcut'.length_le
        have hab := eq_of_prefix_of_flatCuts_eq label_width_pos (hlaw.mp hcut) hcuts
        exact key_ext hh (by rw [hp, hp', hab])
      · refine ⟨fun _ h => hh h.1, fun _ => ⟨by simp [hh], fun h => ?_⟩⟩
        exact absurd ((ancestor_of_path_key hd hk hp).mp (hself h).1).1 hh

private theorem shortHost_of_link (link : Link) :
    ShortHost (reversedHost link.hostname ++ prefixPath link.pathname) := by
  intro l hl
  rw [hostLabels_prefixKey, List.mem_reverse] at hl
  exact (link.hostname_labels l hl).2.trans (by decide)

/-- For every two accepted links the prefix-tree law holds of their keys exactly when the keys'
path segments do not collide at a multiple of the label width. -/
theorem prefix_tree_law_iff (una : UniAlgo) (d k : Link) :
    ∃ dKey kKey, makePrefixKey una d = some dKey ∧ makePrefixKey una k = some kKey ∧
      (((ltreeAncestor (makePrefixTree dKey) (makePrefixTree kKey) = true ↔ Covers dKey kKey) ∧
        (makePrefixTree dKey = makePrefixTree kKey → dKey = kKey)) ↔ ¬ PathCollision dKey kKey) :=
  ⟨_, _, makePrefixKey_eq una d, makePrefixKey_eq una k,
    covering_law_iff (shortHost_of_link d) (shortHost_of_link k)⟩

/-- `http://a.b/` followed by 127 times `s` and the given tail. -/
def fullLabelLink (tail : Bytes) (h : IsAscii tail) : Link where
  hostname := ascii "a.b"
  pathname := slash :: List.replicate 127 115 ++ tail
  query := none
  hostname_ascii := smallHost_ascii
  hostname_slash := smallHost_slash
  hostname_labels := smallHost_labels
  pathname_ascii := IsAscii.append (by decide +kernel) h
  pathname_absolute := rfl
  query_ascii := noQuery_ascii

def fullLabelKey (tail : Bytes) : Bytes := ascii "b.a/" ++ List.replicate 127 115 ++ tail

/-- With 127 times `s`, the keys of `/sss…s/t` and `/sss…st` differ and have one tree, and the tree
of `/sss…s` is an ancestor of `/sss…st` although `/sss…s` does not cover it. -/
theorem prefix_tree_law_fails :
    makePrefixKey asciiUna (fullLabelLink (ascii "/t") (by decide +kernel)) = some (fullLabelKey (ascii "/t")) ∧
    makePrefixKey asciiUna (fullLabelLink (ascii "t") (by decide +kernel)) = some (fullLabelKey (ascii "t")) ∧
    makePrefixKey asciiUna (fullLabelLink [] (by decide +kernel)) = some (fullLabelKey []) ∧
    makePrefixTree (fullLabelKey (ascii "/t")) = makePrefixTree (fullLabelKey (ascii "t")) ∧
    fullLabelKey (ascii "/t") ≠ fullLabelKey (ascii "t") ∧
    ltreeAncestor (makePrefixTree (fullLabelKey [])) (makePrefixTree (fullLabelKey (ascii "t"))) = true ∧
    ¬ Covers (fullLabelKey []) (fullLabelKey (ascii "t")) := by
  refine ⟨?_, ?_, ?_, by decide +kernel, by decide, by decide +kernel, ?_⟩
  · rw [makePrefixKey_eq]
    rfl
  · rw [makePrefixKey_eq]
    rfl
  · rw [makePrefixKey_eq]
    rfl
  have hbare : pathSegments (fullLabelKey []) = some [List.replicate 127 115] := by decide
  have hjoined : pathSegments (fullLabelKey (ascii "t")) = some [List.replicate 127 115 ++ ascii "t"] := by
    decide
  simp only [Covers, hbare, hjoined]
  rintro ⟨_, h⟩
  have hsegment := congrArg List.length (List.cons_prefix_cons.mp h).1
  exact absurd hsegment (by decide +kernel)

end Webshot.Access
