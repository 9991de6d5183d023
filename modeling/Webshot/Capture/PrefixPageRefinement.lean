import Webshot.Access.Link
import Webshot.Capture.PrefixPage
import Webshot.Foundation.PagePositions

/-! Prefix pages as pages of grouped rows: which rows a page shows and where its tokens lead. -/
namespace Webshot.Capture
open Text Storage Access Foundation.GroupedPaging Foundation.OrderedSelect

/-- The links with the prefix in order, each with its rows in listing order. -/
def prefixGroups (table : CaptureTable) (key : LinkKey) : Groups Bytes CaptureMetaIdRow :=
  (table.linksIn key.bytes (upperExclusiveBound key.bytes)).map fun l => (l, table.listing l)

def toItem (x : Bytes × CaptureMetaIdRow) : UuidWithTimeLink := ⟨x.2.uuid, x.2.createdAt, x.1⟩

theorem toItem_injective : Function.Injective toItem := by
  rintro ⟨l, u, t⟩ ⟨l', u', t'⟩ h
  obtain ⟨rfl, rfl, rfl⟩ := UuidWithTimeLink.mk.inj h
  rfl

section Groups
variable {table : CaptureTable} {key : LinkKey}

theorem keys_prefixGroups : keys (prefixGroups table key) = table.linksIn key.bytes
    (upperExclusiveBound key.bytes) := by
  rw [keys, prefixGroups, List.map_map]
  exact List.map_id _

theorem prefixGroups_rows {g : Bytes × List CaptureMetaIdRow} (hg : g ∈ prefixGroups table key) :
    g.2 = table.listing g.1 := by
  obtain ⟨l, _, rfl⟩ := List.mem_map.mp hg
  rfl

theorem mem_prefixLinks {link : Bytes} :
    link ∈ keys (prefixGroups table key) ↔ link ∈ table.distinctLinks ∧ key.bytes <+: link := by
  have hbytes : ∀ x ∈ key.bytes, x.val < 255 := fun x hx => (key.ascii x hx).trans (by decide)
  rw [keys_prefixGroups, CaptureTable.mem_linksIn, prefix_range_iff key.ne_nil hbytes]

theorem prefixGroups_populated : Populated (prefixGroups table key) := by
  intro g hg
  rw [prefixGroups_rows hg, CaptureTable.listing_ne_nil_iff]
  exact (mem_prefixLinks.mp (List.mem_map_of_mem hg)).1

theorem prefixGroups_links_strict : (keys (prefixGroups table key)).Pairwise (· < ·) := by
  rw [keys_prefixGroups]
  exact table.linksIn_strict _ _

theorem prefixGroups_rows_strict : ∀ g ∈ prefixGroups table key, g.2.Pairwise (· < ·) := by
  intro g hg
  rw [prefixGroups_rows hg]
  exact table.listing_strict g.1

theorem link_ascii {link : Bytes} (h : link ∈ table.distinctLinks) : IsAscii link := by
  rw [CaptureTable.distinctLinks, List.mem_dedup] at h
  obtain ⟨row, hrow, rfl⟩ := List.mem_map.mp h
  exact table.links_ascii row hrow

/-- The rows of the prefix, as items, are those of the table. -/
theorem mem_prefixItems {link : Bytes} {r : CaptureMetaIdRow} :
    (link, r) ∈ flat (prefixGroups table key) ↔ key.bytes <+: link ∧ r ∈ table.listing link := by
  rw [mem_flat]
  constructor
  · rintro ⟨rows, hg, hr⟩
    refine ⟨(mem_prefixLinks.mp (List.mem_map_of_mem hg)).2, ?_⟩
    rwa [← prefixGroups_rows hg]
  · rintro ⟨hp, hr⟩
    have hlink : link ∈ table.distinctLinks := CaptureTable.listing_ne_nil_iff.mp (List.ne_nil_of_mem hr)
    have hmem : link ∈ table.linksIn key.bytes (upperExclusiveBound key.bytes) := by
      rw [← keys_prefixGroups]
      exact mem_prefixLinks.mpr ⟨hlink, hp⟩
    exact ⟨_, List.mem_map_of_mem hmem, hr⟩

end Groups

section RowLoop
variable {repo : CaptureMetaRepo} {cfg : PagingConfig} {cur : Option PrefixCursor}

/-- Away from a backward cursor the loop body shows the first rows it fetches. -/
theorem rowStep_eq {link : Bytes} {rows : List CaptureMetaIdRow} {n idx : Nat} (acc : RowLoop)
    (hsel : selectRowsForLink repo cfg cur link idx = .ok (rows.take (cfg.perLinkMax + 1)))
    (hcur : isPreviousCursorLink cur link = false) :
    rowStep repo cfg cur n idx link acc = .ok
      ⟨acc.items ++ (flat [top cfg.perLinkMax (link, rows)]).map toItem, acc.hasPreviousWithinLink,
        acc.hasNextWithinLink || (decide (cfg.perLinkMax < rows.length) && decide (idx + 1 = n))⟩ := by
  have hitems : (flat [top cfg.perLinkMax (link, rows)]).map toItem =
      (rows.take cfg.perLinkMax).map fun r => ⟨r.uuid, r.createdAt, link⟩ := by
    simp only [flat_cons, flat_nil, List.append_nil, top, List.map_map]
    rfl
  simp only [rowStep, hsel, hcur, bind, Except.bind, pure, Except.pure, look_ahead_iff,
    drop_look_ahead, hitems]
  simp

/-- The loop over groups whose rows the queries return shows the head of each. -/
theorem rowLoop_eq {n : Nat} (vis : Groups Bytes CaptureMetaIdRow) (idx : Nat) (acc : RowLoop)
    (hsel : ∀ j g, vis[j]? = some g →
      selectRowsForLink repo cfg cur g.1 (idx + j) = .ok (g.2.take (cfg.perLinkMax + 1)))
    (hcur : ∀ g ∈ vis, isPreviousCursorLink cur g.1 = false) (hcount : idx + vis.length ≤ n) :
    rowLoop repo cfg cur n idx (keys vis) acc = .ok
      ⟨acc.items ++ (flat (vis.map (top cfg.perLinkMax))).map toItem, acc.hasPreviousWithinLink,
        acc.hasNextWithinLink || (vis.getLast?.any (fun g => cfg.perLinkMax < g.2.length) &&
          decide (idx + vis.length = n))⟩ := by
  induction vis generalizing idx acc with
  | nil => simp [rowLoop, keys]
  | cons g vis ih =>
    have hstep := rowStep_eq (n := n) acc (hsel 0 g rfl) (hcur g List.mem_cons_self)
    rw [Nat.add_zero] at hstep
    have hsel' : ∀ j g', vis[j]? = some g' →
        selectRowsForLink repo cfg cur g'.1 (idx + 1 + j) = .ok (g'.2.take (cfg.perLinkMax + 1)) := by
      intro j g' hg'
      rw [Nat.add_assoc, Nat.add_comm 1 j]
      exact hsel (j + 1) g' hg'
    rw [List.length_cons] at hcount
    rw [keys, List.map_cons, rowLoop, hstep]
    change rowLoop repo cfg cur n (idx + 1) (keys vis) _ = _
    rw [ih (idx + 1) _ hsel' (fun g' hg' => hcur g' (List.mem_cons_of_mem _ hg')) (by omega)]
    congr 2
    · rw [List.append_assoc, ← List.map_append, ← flat_append]
      rfl
    · cases vis with
      | nil => simp
      | cons g' vis =>
        have hlast : decide (idx + 1 = n) = false := by
          rw [List.length_cons] at hcount
          exact decide_eq_false (by omega)
        have hcount' : idx + 1 + (g' :: vis).length = idx + (g :: g' :: vis).length := by
          rw [List.length_cons (a := g)]
          omega
        rw [hlast, Bool.and_false, Bool.or_false, List.getLast?_cons_cons, hcount']

end RowLoop

/-- A position in the rows of a prefix that a page can start from: something is left to show
unless nothing has the prefix at all. -/
structure Standing (table : CaptureTable) (key : LinkKey) (p : Position Bytes CaptureMetaIdRow) : Prop where
  whole_eq : p.whole = prefixGroups table key
  populated : Populated p.remaining
  nil_start : p.remaining = [] → p = Position.start []

/-- The forward cursor that names a position. -/
def cursorAt (key : LinkKey) (p : Position Bytes CaptureMetaIdRow) : Option PrefixCursor :=
  match p.shown.getLast?, p.remaining with
  | some r, g :: _ => some ⟨key.bytes, g.1, .next, some r.createdAt, some r.uuid⟩
  | _, _ => p.before.getLast?.map fun g => ⟨key.bytes, g.1, .next, none, none⟩

/-- The links of a forward page and what its loop found. -/
def forwardLinks (cfg : PagingConfig) (p : Position Bytes CaptureMetaIdRow) : VisibleLinks :=
  ⟨keys (p.remaining.take cfg.linksPerPageMax), false, decide (cfg.linksPerPageMax < p.remaining.length)⟩

def forwardLoop (cfg : PagingConfig) (p : Position Bytes CaptureMetaIdRow) : RowLoop :=
  ⟨(flat (page cfg.linksPerPageMax cfg.perLinkMax p.remaining)).map toItem, false,
    (p.remaining.take cfg.linksPerPageMax).getLast?.any fun g => cfg.perLinkMax < g.2.length⟩

section Forward
variable {table : CaptureTable} {cfg : PagingConfig} {key : LinkKey} {p : Position Bytes CaptureMetaIdRow}

theorem Standing.start : Standing table key (Position.start (prefixGroups table key)) where
  whole_eq := by
    simp only [Position.whole, Position.start, List.nil_append]
    cases prefixGroups table key <;> rfl
  populated := prefixGroups_populated
  nil_start h := by
    change prefixGroups table key = [] at h
    rw [h]

theorem Standing.advance {p' : Position Bytes CaptureMetaIdRow} (h : Standing table key p)
    (ha : Advances cfg.linksPerPageMax cfg.perLinkMax p p') : Standing table key p' where
  whole_eq := ha.whole_eq.trans h.whole_eq
  populated := by
    rw [ha.remaining_eq cfg.linksPerPageMax_pos]
    exact h.populated.rest
  nil_start hnil := by
    rw [ha.remaining_eq cfg.linksPerPageMax_pos] at hnil
    exact absurd hnil (ha.rest_ne_nil cfg.linksPerPageMax_pos)

theorem keys_prepend (shown : List CaptureMetaIdRow) (gs : Groups Bytes CaptureMetaIdRow) :
    keys (prepend shown gs) = keys gs := by
  cases gs <;> rfl

theorem Standing.links_eq (h : Standing table key p) :
    table.linksIn key.bytes (upperExclusiveBound key.bytes) = keys p.before ++ keys p.remaining := by
  rw [← keys_prefixGroups, ← h.whole_eq, Position.whole, keys, List.map_append]
  exact congrArg _ (keys_prepend _ _)

theorem dropLookAhead_take (links : List Bytes) :
    dropLookAhead cfg (links.take (cfg.linksPerPageMax + 1)) =
      ⟨links.take cfg.linksPerPageMax, false, decide (cfg.linksPerPageMax < links.length)⟩ := by
  have hlinks := drop_look_ahead links cfg.linksPerPageMax
  simp only [dropLookAhead, look_ahead_iff]
  by_cases hlen : cfg.linksPerPageMax < links.length
  · rw [if_pos hlen] at hlinks ⊢
    rw [hlinks, decide_eq_true hlen]
  · rw [if_neg hlen] at hlinks ⊢
    rw [hlinks, decide_eq_false hlen]

theorem cursorAt_fresh (before remaining : Groups Bytes CaptureMetaIdRow) :
    cursorAt key ⟨before, [], remaining⟩ = before.getLast?.map fun g => ⟨key.bytes, g.1, .next, none, none⟩ := by
  cases remaining <;> rfl

theorem cursorAt_within (before after : Groups Bytes CaptureMetaIdRow) (s : List CaptureMetaIdRow)
    (r : CaptureMetaIdRow) (g : Bytes × List CaptureMetaIdRow) :
    cursorAt key ⟨before, s ++ [r], g :: after⟩ = some ⟨key.bytes, g.1, .next, some r.createdAt, some r.uuid⟩ := by
  rw [cursorAt, List.getLast?_concat]

/-- A position is between two links or within one. -/
theorem Standing.fresh_or_within (h : Standing table key p) :
    (∃ before remaining, p = ⟨before, [], remaining⟩) ∨
      ∃ before s r g after, p = ⟨before, s ++ [r], g :: after⟩ := by
  obtain ⟨before, shown, remaining⟩ := p
  rcases List.eq_nil_or_concat shown with rfl | ⟨s, r, rfl⟩
  · exact Or.inl ⟨before, remaining, rfl⟩
  · cases remaining with
    | nil =>
      have hshown := congrArg Position.shown (h.nil_start rfl)
      simp [Position.start] at hshown
    | cons g after =>
      rw [List.concat_eq_append]
      exact Or.inr ⟨before, s, r, g, after, rfl⟩

/-- A forward page shows the first links of what is left. -/
theorem visibleLinks_forward (h : Standing table key p) :
    visibleLinks table.repo cfg key.bytes (upperExclusiveBound key.bytes) (cursorAt key p) =
      .ok (forwardLinks cfg p) := by
  have hlinks := h.links_eq
  have hlen (gs : Groups Bytes CaptureMetaIdRow) : (keys gs).length = gs.length := List.length_map _
  have htake (gs : Groups Bytes CaptureMetaIdRow) (n : Nat) : (keys gs).take n = keys (gs.take n) := (List.map_take ..).symm
  rcases h.fresh_or_within with ⟨before, remaining, rfl⟩ | ⟨before, s, r, g, after, rfl⟩
  · rw [cursorAt_fresh]
    rcases List.eq_nil_or_concat before with rfl | ⟨b, g, rfl⟩
    · rw [List.getLast?_nil, Option.map_none, visibleLinks, visibleLinksFirst, CaptureTable.linksFirst_eq, hlinks]
      change Except.ok (dropLookAhead cfg ((keys remaining).take _)) = _
      rw [dropLookAhead_take, hlen, htake, forwardLinks]
    · rw [List.concat_eq_append] at hlinks ⊢
      rw [keys, List.map_append, List.append_assoc] at hlinks
      rw [List.getLast?_concat, Option.map_some, visibleLinks, visibleLinksNext]
      simp only [Option.isSome_none, Bool.false_eq_true, if_false]
      rw [CaptureTable.linksNext_eq hlinks]
      change Except.ok (dropLookAhead cfg ((keys remaining).take _)) = _
      rw [dropLookAhead_take, hlen, htake, forwardLinks]
  · rw [cursorAt_within, visibleLinks, visibleLinksNext]
    simp only [Option.isSome_some, if_true]
    rw [CaptureTable.linksNext_eq hlinks]
    change Except.ok (dropLookAhead cfg ((keys (g :: after)).take (cfg.linksPerPageMax + 1))) = _
    rw [dropLookAhead_take, hlen, htake, forwardLinks]

/-- A forward page fetches the rows of each link from where the position stands. -/
theorem selectRows_forward (h : Standing table key p) {j : Nat} {g : Bytes × List CaptureMetaIdRow}
    (hg : p.remaining[j]? = some g) :
    selectRowsForLink table.repo cfg (cursorAt key p) g.1 j = .ok (g.2.take (cfg.perLinkMax + 1)) := by
  have hwhole := h.whole_eq
  rcases h.fresh_or_within with ⟨before, remaining, rfl⟩ | ⟨before, s, r, g₀, after, rfl⟩
  · have hmem : g ∈ prefixGroups table key := by
      have hg' : g ∈ remaining := List.mem_of_getElem? hg
      rw [← hwhole]
      apply List.mem_append_right
      cases remaining with
      | nil => exact absurd hg' List.not_mem_nil
      | cons _ _ => exact hg'
    rw [prefixGroups_rows hmem, ← CaptureTable.first_eq, cursorAt_fresh]
    cases before.getLast? <;> rfl
  · rw [cursorAt_within]
    cases j with
    | zero =>
      obtain rfl : g₀ = g := by simpa using hg
      have hmem : (g₀.1, s ++ [r] ++ g₀.2) ∈ prefixGroups table key := by
        rw [← hwhole]
        exact List.mem_append_right _ List.mem_cons_self
      have hlist : table.listing g₀.1 = s ++ r :: g₀.2 := by
        rw [← prefixGroups_rows hmem, List.append_assoc]
        rfl
      rw [← CaptureTable.next_eq hlist]
      simp [selectRowsForLink]
    | succ j =>
      have hmem : g ∈ prefixGroups table key := by
        rw [← hwhole]
        exact List.mem_append_right _ (List.mem_cons_of_mem _ (List.mem_of_getElem? (i := j) hg))
      rw [prefixGroups_rows hmem, ← CaptureTable.first_eq]
      simp [selectRowsForLink]

theorem cursorAt_direction {c : PrefixCursor} (hc : cursorAt key p = some c) :
    c.normalizedPrefix = key.bytes ∧ c.direction = .next := by
  unfold cursorAt at hc
  split at hc
  · cases hc
    exact ⟨rfl, rfl⟩
  · obtain ⟨g, _, rfl⟩ := Option.map_eq_some_iff.mp hc
    exact ⟨rfl, rfl⟩

theorem isPreviousCursorLink_forward (link : Bytes) : isPreviousCursorLink (cursorAt key p) link = false := by
  cases hc : cursorAt key p with
  | none => rfl
  | some c => simp [isPreviousCursorLink, (cursorAt_direction hc).2]

/-- The rows of a forward page are those of the grouped page. -/
theorem pageRows_forward (h : Standing table key p) :
    pageRows table.repo cfg key.bytes (cursorAt key p) = .ok (forwardLinks cfg p, forwardLoop cfg p) := by
  have hsel : ∀ j g, (p.remaining.take cfg.linksPerPageMax)[j]? = some g →
      selectRowsForLink table.repo cfg (cursorAt key p) g.1 (0 + j) = .ok (g.2.take (cfg.perLinkMax + 1)) := by
    intro j g hg
    rw [Nat.zero_add]
    apply selectRows_forward h
    rw [List.getElem?_take] at hg
    split at hg
    · exact hg
    · cases hg
  have hloop := rowLoop_eq (n := (keys (p.remaining.take cfg.linksPerPageMax)).length)
    (p.remaining.take cfg.linksPerPageMax) 0 ⟨[], false, false⟩ hsel
    (fun g _ => isPreviousCursorLink_forward g.1) (by rw [keys, List.length_map]; omega)
  have hcount : 0 + (p.remaining.take cfg.linksPerPageMax).length =
      (keys (p.remaining.take cfg.linksPerPageMax)).length := by
    rw [keys, List.length_map, Nat.zero_add]
  rw [decide_eq_true hcount, Bool.and_true, List.nil_append, Bool.false_or] at hloop
  simp only [pageRows, visibleLinks_forward h, forwardLinks, forwardLoop, hloop, bind, Except.bind, pure, Except.pure,
    page]

/-- The position reached names itself by the last row of the page, or only by its link if the
link is done with. -/
theorem cursorAt_advance (key : LinkKey) {p' : Position Bytes CaptureMetaIdRow} (hp : Populated p.remaining)
    (ha : Advances cfg.linksPerPageMax cfg.perLinkMax p p') :
    ∃ init g rs r, p.remaining.take cfg.linksPerPageMax = init ++ [g] ∧ g.2.take cfg.perLinkMax = rs ++ [r] ∧
      ((cfg.perLinkMax < g.2.length ∧
          cursorAt key p' = some ⟨key.bytes, g.1, .next, some r.createdAt, some r.uuid⟩) ∨
        (¬ cfg.perLinkMax < g.2.length ∧ cfg.linksPerPageMax < p.remaining.length ∧
          cursorAt key p' = some ⟨key.bytes, g.1, .next, none, none⟩)) := by
  have hn := cfg.linksPerPageMax_pos
  have hm := cfg.perLinkMax_pos
  have hrows {g : Bytes × List CaptureMetaIdRow} (hg : g ∈ p.remaining) :
      ∃ rs r, g.2.take cfg.perLinkMax = rs ++ [r] := by
    rcases List.eq_nil_or_concat (g.2.take cfg.perLinkMax) with h0 | ⟨rs, r, h0⟩
    · rcases List.take_eq_nil_iff.mp h0 with h0 | h0
      · omega
      · exact absurd h0 (hp g hg)
    · rw [List.concat_eq_append] at h0
      exact ⟨rs, r, h0⟩
  cases ha with
  | @within before after shown left k ht hmore =>
    obtain ⟨rs, r, hr⟩ := hrows (g := (k, left)) List.mem_cons_self
    refine ⟨[], (k, left), rs, r, ?_, hr, Or.inl ⟨hmore, ?_⟩⟩
    · rw [(take_remaining hn _ _).1, ht]
      rfl
    · change left.take cfg.perLinkMax = rs ++ [r] at hr
      rw [hr, ← List.append_assoc, cursorAt_within]
  | @past before after shown left k ht hdone hafter =>
    obtain ⟨rs, r, hr⟩ := hrows (g := (k, left)) List.mem_cons_self
    have hlong := List.length_pos_iff.mpr hafter
    refine ⟨[], (k, left), rs, r, ?_, hr, Or.inr ⟨Nat.not_lt.mpr hdone, ?_, ?_⟩⟩
    · rw [(take_remaining hn _ _).1, ht]
      rfl
    · rcases List.take_eq_nil_iff.mp ht with h0 | h0
      · rw [List.length_cons]
        omega
      · exact absurd h0 hafter
    · rw [cursorAt_fresh, List.getLast?_concat, Option.map_some]
  | @onto before after init shown left k g ht hmore =>
    have hg : g ∈ after := List.mem_of_mem_take (ht ▸ List.mem_append_right _ (List.mem_singleton_self g))
    obtain ⟨rs, r, hr⟩ := hrows (List.mem_cons_of_mem _ hg)
    refine ⟨(k, left) :: init, g, rs, r, ?_, hr, Or.inl ⟨hmore, ?_⟩⟩
    · rw [(take_remaining hn _ _).1, ht]
      rfl
    · rw [hr, cursorAt_within]
  | @beyond before after init shown left k g ht hdone hafter =>
    have hg : g ∈ after := List.mem_of_mem_take (ht ▸ List.mem_append_right _ (List.mem_singleton_self g))
    obtain ⟨rs, r, hr⟩ := hrows (List.mem_cons_of_mem _ hg)
    have hlong := List.length_pos_iff.mpr hafter
    rw [List.length_drop] at hlong
    refine ⟨(k, left) :: init, g, rs, r, ?_, hr, Or.inr ⟨Nat.not_lt.mpr hdone, ?_, ?_⟩⟩
    · rw [(take_remaining hn _ _).1, ht]
      rfl
    · rw [List.length_cons]
      omega
    · rw [cursorAt_fresh, ← List.cons_append, ← List.append_assoc, List.getLast?_concat, Option.map_some]

theorem page_getLast {n m : Nat} {gs init : Groups Bytes CaptureMetaIdRow} {g : Bytes × List CaptureMetaIdRow}
    {rs : List CaptureMetaIdRow} {r : CaptureMetaIdRow} (ht : gs.take n = init ++ [g]) (hr : g.2.take m = rs ++ [r]) :
    (flat (page n m gs)).getLast? = some (g.1, r) := by
  rw [page_of_split ht, flat_append, flat_cons, flat_nil, List.append_nil, top, hr, List.map_append,
    ← List.append_assoc]
  exact List.getLast?_concat

variable (una : UniAlgo) (codec : PrefixCodec)

/-- A token that decodes to a cursor of the prefix is taken up. -/
theorem pageCursor_of_decode {token : Bytes} {c : PrefixCursor} (hne : token ≠ [])
    (hdec : decodePrefixCursor una codec token = some c) (hc : c.normalizedPrefix = key.bytes) :
    pageCursor una codec key.bytes token = .ok (some c) := by
  rw [pageCursor, if_neg hne, hdec]
  exact if_pos hc

theorem Standing.mem_table (h : Standing table key p) {g : Bytes × List CaptureMetaIdRow} {r : CaptureMetaIdRow}
    (hg : g ∈ p.remaining) (hr : r ∈ g.2) : IsAscii g.1 ∧ StoredTime r.createdAt := by
  have hflat : (g.1, r) ∈ flat (prefixGroups table key) := by
    rw [← h.whole_eq, Position.whole, flat_append]
    apply List.mem_append_right
    obtain ⟨before, shown, remaining⟩ := p
    cases remaining with
    | nil => exact absurd hg List.not_mem_nil
    | cons g₀ after =>
      rw [prepend, flat_cons]
      rcases List.mem_cons.mp hg with rfl | hg
      · exact List.mem_append_left _ (List.mem_map_of_mem (List.mem_append_right _ hr))
      · exact List.mem_append_right _ (mem_flat.mpr ⟨g.2, hg, hr⟩)
  have hlist := (mem_prefixItems.mp hflat).2
  exact ⟨link_ascii (CaptureTable.listing_ne_nil_iff.mp (List.ne_nil_of_mem hlist)), CaptureTable.listing_stored hlist⟩

private theorem not_backward : (cursorAt key p).any (·.direction = .previous) = false := by
  cases hc : cursorAt key p with
  | none => rfl
  | some c => simp [(cursorAt_direction hc).2]

/-- Both tokens of a page can be built: its items carry link keys and stored times. -/
theorem pageTokens_total (key : LinkKey) (cur : Option PrefixCursor) (visible : VisibleLinks) {loop : RowLoop}
    (h : ∀ x ∈ loop.items, IsAscii x.link ∧ StoredTime x.createdAt) :
    (∃ next, nextPageToken una codec key.bytes cur visible loop = some next) ∧
      ∃ previous, previousPageToken una codec key.bytes cur visible loop = some previous := by
  constructor
  · rw [nextPageToken]
    split
    · exact ⟨none, rfl⟩
    · rename_i last hlast
      obtain ⟨hascii, hstored⟩ := h last (List.mem_of_getLast? hlast)
      obtain ⟨t, ht, _⟩ := encodePrefixCursor_spec una codec key.ascii hascii .next
      obtain ⟨t', ht', _⟩ := encodePrefixCursorAt_spec una codec key.ascii hascii hstored.fits hstored.micros last.uuid .next
      simp only [fromBytes_ascii una hascii, ht, ht', Option.bind_eq_bind, Option.bind_some, Option.pure_def]
      split
      · split
        · exact ⟨_, rfl⟩
        · exact ⟨_, rfl⟩
      · exact ⟨_, rfl⟩
  · rw [previousPageToken]
    split
    · exact ⟨none, rfl⟩
    · rename_i first hfirst
      obtain ⟨hascii, hstored⟩ := h first (List.mem_of_head? hfirst)
      obtain ⟨t, ht, _⟩ := encodePrefixCursorAt_spec una codec key.ascii hascii hstored.fits hstored.micros first.uuid .previous
      simp only [fromBytes_ascii una hascii, ht, Option.bind_eq_bind, Option.bind_some, Option.pure_def]
      split
      · exact ⟨_, rfl⟩
      · exact ⟨_, rfl⟩

/-- The next token of a page leads to the position reached. -/
theorem nextPageToken_advance {p' : Position Bytes CaptureMetaIdRow} (h : Standing table key p)
    (ha : Advances cfg.linksPerPageMax cfg.perLinkMax p p') :
    ∃ token, nextPageToken una codec key.bytes (cursorAt key p) (forwardLinks cfg p) (forwardLoop cfg p) =
        some (some token) ∧ pageCursor una codec key.bytes token = .ok (cursorAt key p') := by
  obtain ⟨init, g, rs, r, ht, hr, hcase⟩ := cursorAt_advance key h.populated ha
  have hgmem : g ∈ p.remaining := List.mem_of_mem_take (ht ▸ List.mem_append_right _ (List.mem_singleton_self g))
  have hrmem : r ∈ g.2 := List.mem_of_mem_take (hr ▸ List.mem_append_right _ (List.mem_singleton_self r))
  obtain ⟨hascii, hstored⟩ := h.mem_table hgmem hrmem
  have hlast : ((flat (page cfg.linksPerPageMax cfg.perLinkMax p.remaining)).map toItem).getLast? =
      some (toItem (g.1, r)) := by
    rw [List.getLast?_map, page_getLast ht hr, Option.map_some]
  have hmore : ((p.remaining.take cfg.linksPerPageMax).getLast?.any fun g => cfg.perLinkMax < g.2.length) =
      decide (cfg.perLinkMax < g.2.length) := by
    rw [ht, List.getLast?_concat, Option.any_some]
  rcases hcase with ⟨hlong, hcur⟩ | ⟨hdone, hlinks, hcur⟩
  · obtain ⟨token, henc, hne, hdec⟩ :=
      encodePrefixCursorAt_spec una codec key.ascii hascii hstored.fits hstored.micros r.uuid .next
    refine ⟨token, ?_, by rw [hcur]; exact pageCursor_of_decode una codec hne hdec rfl⟩
    simp only [nextPageToken, forwardLoop, hlast, hmore, not_backward, decide_eq_true hlong, toItem,
      fromBytes_ascii una hascii, henc, Bool.false_or, Bool.true_or, if_true, Option.bind_eq_bind, Option.bind_some,
      Option.pure_def]
  · obtain ⟨token, henc, hne, hdec⟩ := encodePrefixCursor_spec una codec key.ascii hascii .next
    refine ⟨token, ?_, by rw [hcur]; exact pageCursor_of_decode una codec hne hdec rfl⟩
    simp only [nextPageToken, forwardLoop, forwardLinks, hlast, hmore, not_backward, decide_eq_false hdone,
      decide_eq_true hlinks, toItem, fromBytes_ascii una hascii, henc, Bool.false_or, if_true, Bool.false_eq_true,
      if_false, Option.bind_eq_bind, Option.bind_some, Option.pure_def]

/-- A page after which nothing is left has no next token. -/
theorem nextPageToken_last (hr : rest cfg.linksPerPageMax cfg.perLinkMax p.remaining = []) :
    nextPageToken una codec key.bytes (cursorAt key p) (forwardLinks cfg p) (forwardLoop cfg p) = some none := by
  have hdone : forwardLoop cfg p = ⟨(forwardLoop cfg p).items, false, false⟩ ∧
      forwardLinks cfg p = ⟨(forwardLinks cfg p).links, false, false⟩ := by
    by_cases hnil : p.remaining = []
    · simp [forwardLoop, forwardLinks, hnil]
    · obtain ⟨init, g, ht, _⟩ := visible_split cfg.linksPerPageMax_pos hnil
      rw [rest_of_split ht] at hr
      split at hr
      · cases hr
      · rename_i hlong
        have hlen : ¬ cfg.linksPerPageMax < p.remaining.length := Nat.not_lt.mpr (List.drop_eq_nil_iff.mp hr)
        simp only [forwardLoop, forwardLinks, ht, List.getLast?_concat, Option.any_some, decide_eq_false hlong,
          decide_eq_false hlen, and_self]
  rw [hdone.1, hdone.2, nextPageToken]
  split
  · rfl
  · rw [not_backward]
    rfl

/-- Past the first page there is a row to show. -/
theorem Standing.remaining_of_cursor (h : Standing table key p) {c : PrefixCursor} (hc : cursorAt key p = some c) :
    ∃ k r left after, p.remaining = (k, r :: left) :: after := by
  cases hp : p.remaining with
  | nil =>
    rw [h.nil_start hp] at hc
    cases hc
  | cons g after =>
    obtain ⟨k, rows⟩ := g
    cases rows with
    | nil => exact absurd rfl (h.populated (k, []) (by rw [hp]; exact List.mem_cons_self))
    | cons r left => exact ⟨k, r, left, after, rfl⟩

/-- The first page has no previous token; any other forward page has one, at its first row. -/
theorem previousPageToken_first (hc : cursorAt key p = none) :
    previousPageToken una codec key.bytes (cursorAt key p) (forwardLinks cfg p) (forwardLoop cfg p) = some none := by
  rw [hc, previousPageToken]
  split <;> rfl

theorem previousPageToken_forward (h : Standing table key p) {c : PrefixCursor} (hc : cursorAt key p = some c)
    {k : Bytes} {r : CaptureMetaIdRow} {left : List CaptureMetaIdRow} {after : Groups Bytes CaptureMetaIdRow}
    (hp : p.remaining = (k, r :: left) :: after) :
    ∃ token, previousPageToken una codec key.bytes (cursorAt key p) (forwardLinks cfg p) (forwardLoop cfg p) =
        some (some token) ∧
      pageCursor una codec key.bytes token =
        .ok (some ⟨key.bytes, k, .previous, some r.createdAt, some r.uuid⟩) := by
  obtain ⟨hascii, hstored⟩ := h.mem_table (by rw [hp]; exact List.mem_cons_self) (List.mem_cons_self (a := r) (l := left))
  have hfirst : ((flat (page cfg.linksPerPageMax cfg.perLinkMax p.remaining)).map toItem).head? = some (toItem (k, r)) := by
    have hm := cfg.perLinkMax_pos
    rw [hp, page, (take_remaining cfg.linksPerPageMax_pos _ _).1, List.map_cons, flat_cons, top]
    obtain ⟨m, hm⟩ := Nat.exists_eq_add_of_lt hm
    rw [hm]
    simp
  obtain ⟨token, henc, hne, hdec⟩ := encodePrefixCursorAt_spec una codec key.ascii hascii hstored.fits hstored.micros r.uuid .previous
  refine ⟨token, ?_, pageCursor_of_decode una codec hne hdec rfl⟩
  have hany : (cursorAt key p).any (·.direction = .next) = true := by
    rw [hc]
    simp [(cursorAt_direction hc).2]
  simp only [previousPageToken, forwardLoop, hfirst, hany, toItem, fromBytes_ascii una hascii, henc, Bool.true_or,
    if_true, Option.bind_eq_bind, Option.bind_some, Option.pure_def]

/-- A forward request returns the rows of the grouped page, with the tokens above. -/
theorem findCapturesByPrefixPage_forward (cfg : PagingConfig) (h : Standing table key p) {token : Bytes}
    (hcur : pageCursor una codec key.bytes token = .ok (cursorAt key p)) :
    ∃ next previous, findCapturesByPrefixPage una codec table.repo cfg key.bytes token =
        .ok ⟨(flat (page cfg.linksPerPageMax cfg.perLinkMax p.remaining)).map toItem, next, previous⟩ ∧
      nextPageToken una codec key.bytes (cursorAt key p) (forwardLinks cfg p) (forwardLoop cfg p) = some next ∧
      previousPageToken una codec key.bytes (cursorAt key p) (forwardLinks cfg p) (forwardLoop cfg p) = some previous := by
  have hplain : ∀ x ∈ (forwardLoop cfg p).items, IsAscii x.link ∧ StoredTime x.createdAt := by
    intro x hx
    obtain ⟨⟨k, r⟩, hr, rfl⟩ := List.mem_map.mp hx
    obtain ⟨rows, hpage, hr⟩ := mem_flat.mp hr
    obtain ⟨g, hg, heq⟩ := List.mem_map.mp hpage
    cases heq
    exact h.mem_table (List.mem_of_mem_take hg) (List.mem_of_mem_take hr)
  obtain ⟨hnext, hprevious⟩ := pageTokens_total una codec key (cursorAt key p) (forwardLinks cfg p) hplain
  obtain ⟨next, hnext⟩ := hnext
  obtain ⟨previous, hprevious⟩ := hprevious
  refine ⟨next, previous, ?_, hnext, hprevious⟩
  simp only [findCapturesByPrefixPage, hcur, pageRows_forward h, hnext, hprevious]
  rfl

end Forward
end Webshot.Capture
