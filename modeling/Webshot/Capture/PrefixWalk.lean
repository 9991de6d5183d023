import Webshot.Access.PrefixKeys
import Webshot.Capture.CursorJson
import Webshot.Capture.PrefixPageRefinement

/-! The forward walk over the pages of a prefix: its order, its bounds, and which rows it shows. -/
namespace Webshot.Capture
open Text Storage Access Foundation.GroupedPaging Foundation.OrderedSelect

/-- The pages met by following the next tokens to the end. -/
inductive ForwardWalk (una : UniAlgo) (codec : PrefixCodec) (repo : CaptureMetaRepo) (cfg : PagingConfig)
    (normalizedPrefix : Bytes) : Bytes → List PagedFindCapturesByPrefixResponse → Prop where
  | last {token : Bytes} {page : PagedFindCapturesByPrefixResponse} :
      findCapturesByPrefixPage una codec repo cfg normalizedPrefix token = .ok page → page.nextPageToken = none →
      ForwardWalk una codec repo cfg normalizedPrefix token [page]
  | more {token next : Bytes} {page : PagedFindCapturesByPrefixResponse}
      {pages : List PagedFindCapturesByPrefixResponse} :
      findCapturesByPrefixPage una codec repo cfg normalizedPrefix token = .ok page → page.nextPageToken = some next →
      ForwardWalk una codec repo cfg normalizedPrefix next pages →
      ForwardWalk una codec repo cfg normalizedPrefix token (page :: pages)

def CaptureRow.item (row : CaptureRow) : UuidWithTimeLink := ⟨row.id, row.createdAt, row.link⟩

/-- How many rows of the same link are listed before a row. -/
def CaptureTable.rank (table : CaptureTable) (row : CaptureRow) : Nat :=
  table.rows.countP fun r => r.link = row.link && r.item.Precedes row.item

section Walks
variable {una : UniAlgo} {codec : PrefixCodec} {table : CaptureTable} {cfg : PagingConfig} {key : LinkKey}

theorem ForwardWalk.unique {repo : CaptureMetaRepo} {normalizedPrefix token : Bytes}
    {pages pages' : List PagedFindCapturesByPrefixResponse}
    (h : ForwardWalk una codec repo cfg normalizedPrefix token pages)
    (h' : ForwardWalk una codec repo cfg normalizedPrefix token pages') : pages' = pages := by
  induction h generalizing pages' with
  | last hf hn =>
    cases h' with
    | last hf' _ =>
      cases hf.symm.trans hf'
      rfl
    | more hf' hn' _ =>
      cases hf.symm.trans hf'
      cases hn.symm.trans hn'
  | more hf hn _ ih =>
    cases h' with
    | last hf' hn' =>
      cases hf.symm.trans hf'
      cases hn.symm.trans hn'
    | more hf' hn' h' =>
      cases hf.symm.trans hf'
      cases hn.symm.trans hn'
      rw [ih h']

/-- Every walk over the groups is a walk over the pages of the service. -/
theorem forwardWalk_of_walk (una : UniAlgo) (codec : PrefixCodec) {p : Position Bytes CaptureMetaIdRow}
    (h : Standing table key p) {token : Bytes}
    (hcur : pageCursor una codec key.bytes token = .ok (cursorAt key p))
    {ps : List (Groups Bytes CaptureMetaIdRow)} (hw : Walk cfg.linksPerPageMax cfg.perLinkMax p.remaining ps) :
    ∃ pages, ForwardWalk una codec table.repo cfg key.bytes token pages ∧
      pages.map (·.items) = ps.map fun g => (flat g).map toItem := by
  generalize hgs : p.remaining = gs at hw
  induction hw generalizing p token with
  | last hr =>
    subst hgs
    obtain ⟨next, previous, hfind, hnext, _⟩ := findCapturesByPrefixPage_forward una codec cfg h hcur
    rw [nextPageToken_last una codec hr] at hnext
    cases hnext
    exact ⟨_, .last hfind rfl, rfl⟩
  | more hr _ ih =>
    subst hgs
    obtain ⟨p', ha⟩ := exists_advances cfg.linksPerPageMax_pos hr
    obtain ⟨next, previous, hfind, hnext, _⟩ := findCapturesByPrefixPage_forward una codec cfg h hcur
    obtain ⟨t, ht, hcur'⟩ := nextPageToken_advance una codec h ha
    rw [ht] at hnext
    cases hnext
    obtain ⟨pages, hwalk, hitems⟩ := ih (h.advance ha) hcur' (ha.remaining_eq cfg.linksPerPageMax_pos)
    refine ⟨_, .more hfind rfl hwalk, ?_⟩
    rw [List.map_cons, List.map_cons, hitems]

variable (una codec table cfg key)

/-- The walk from the first page, as a walk over the groups of the prefix. -/
theorem exists_forwardWalk : ∃ pages ps, ForwardWalk una codec table.repo cfg key.bytes [] pages ∧
    Walk cfg.linksPerPageMax cfg.perLinkMax (prefixGroups table key) ps ∧
    pages.map (·.items) = ps.map fun g => (flat g).map toItem := by
  obtain ⟨ps, hps⟩ := exists_walk cfg.linksPerPageMax_pos cfg.perLinkMax_pos (prefixGroups table key)
    prefixGroups_populated
  obtain ⟨pages, hpages, hitems⟩ := forwardWalk_of_walk una codec Standing.start (if_pos rfl) hps
  exact ⟨pages, ps, hpages, hps, hitems⟩

variable {una codec table cfg key}

theorem toItem_precedes {link : Bytes} {a b : CaptureMetaIdRow} (h : a < b) :
    (toItem (link, a)).Precedes (toItem (link, b)) :=
  Or.inr ⟨rfl, (CaptureMetaIdRow.lt_iff a b).mp h⟩

/-- The rows of the prefix are listed in strict order. -/
theorem prefixItems_strict : ((flat (prefixGroups table key)).map toItem).Pairwise UuidWithTimeLink.Precedes := by
  rw [List.pairwise_map]
  apply flat_pairwise
  · intro g hg
    exact (prefixGroups_rows_strict g hg).imp toItem_precedes
  · exact (List.pairwise_map.mp prefixGroups_links_strict).imp fun hlt _ _ => Or.inl hlt

theorem groups_of_page {pages : List PagedFindCapturesByPrefixResponse} {ps : List (Groups Bytes CaptureMetaIdRow)}
    (h : pages.map (·.items) = ps.map fun g => (flat g).map toItem) {page : PagedFindCapturesByPrefixResponse}
    (hpage : page ∈ pages) : ∃ g ∈ ps, page.items = (flat g).map toItem := by
  have hmem : page.items ∈ pages.map (·.items) := List.mem_map_of_mem hpage
  rw [h] at hmem
  obtain ⟨g, hg, hgi⟩ := List.mem_map.mp hmem
  exact ⟨g, hg, hgi.symm⟩

theorem page_of_groups {pages : List PagedFindCapturesByPrefixResponse} {ps : List (Groups Bytes CaptureMetaIdRow)}
    (h : pages.map (·.items) = ps.map fun g => (flat g).map toItem) {g : Groups Bytes CaptureMetaIdRow} (hg : g ∈ ps) :
    ∃ page ∈ pages, page.items = (flat g).map toItem := by
  have hmem : (flat g).map toItem ∈ ps.map fun g => (flat g).map toItem := List.mem_map_of_mem hg
  rw [← h] at hmem
  exact List.mem_map.mp hmem

theorem items_eq {pages : List PagedFindCapturesByPrefixResponse} {ps : List (Groups Bytes CaptureMetaIdRow)}
    (h : pages.map (·.items) = ps.map fun g => (flat g).map toItem) :
    pages.flatMap (·.items) = (ps.flatMap flat).map toItem := by
  rw [List.flatMap_def, h, ← List.flatMap_def, List.map_flatMap]

theorem rank_eq (row : CaptureRow) :
    table.rank row = (table.listing row.link).countP (· < ⟨row.id, row.createdAt⟩) := by
  have hperm : (table.listing row.link).Perm (table.rowsOf row.link) := List.perm_insertionSort _ _
  rw [hperm.countP_eq, CaptureTable.rowsOf, List.countP_map, List.countP_filter, CaptureTable.rank]
  apply List.countP_congr
  intro r _
  simp only [Bool.and_eq_true, decide_eq_true_iff, Function.comp_apply, CaptureMetaIdRow.lt_iff]
  constructor
  · rintro ⟨hlink, hlt | ⟨_, hlt⟩⟩
    · rw [CaptureRow.item, CaptureRow.item, hlink] at hlt
      exact absurd hlt (lt_irrefl _)
    · exact ⟨hlt, hlink⟩
  · rintro ⟨hlt, hlink⟩
    exact ⟨hlink, Or.inr ⟨hlink, hlt⟩⟩

theorem row_mem_listing {row : CaptureRow} (h : row ∈ table.rows) :
    (⟨row.id, row.createdAt⟩ : CaptureMetaIdRow) ∈ table.listing row.link :=
  CaptureTable.mem_listing.mpr ⟨row, h, rfl, rfl, rfl⟩

theorem link_group_mem {link : Bytes} (h : link ∈ table.distinctLinks) (hp : key.bytes <+: link) :
    (link, table.listing link) ∈ prefixGroups table key := by
  have hkey := mem_prefixLinks.mpr ⟨h, hp⟩
  rw [keys_prefixGroups] at hkey
  exact List.mem_map_of_mem hkey

theorem row_group_mem {row : CaptureRow} (h : row ∈ table.rows) (hp : key.bytes <+: row.link) :
    (row.link, table.listing row.link) ∈ prefixGroups table key :=
  link_group_mem (CaptureTable.listing_ne_nil_iff.mp (List.ne_nil_of_mem (row_mem_listing h))) hp

variable (una codec table cfg key)

variable {una codec table cfg key}

/-- A page cuts a row off: it shows M captures of the row's link, all listed before the row, and
goes on to another link. -/
def CutsOff (cfg : PagingConfig) (page : PagedFindCapturesByPrefixResponse) (row : CaptureRow) : Prop :=
  (page.items.filter (·.link = row.link)).length = cfg.perLinkMax ∧
    (∀ item ∈ page.items, item.link = row.link → item.Precedes row.item) ∧
    page.items.getLast?.map (·.link) ≠ some row.link

private theorem flat_getLast_key {κ ρ : Type} {gs : Groups κ ρ} (hp : Populated gs) :
    (flat gs).getLast?.map Prod.fst = gs.getLast?.map Prod.fst := by
  rcases List.eq_nil_or_concat gs with rfl | ⟨init, g, rfl⟩
  · rfl
  · rw [List.concat_eq_append] at hp ⊢
    rcases List.eq_nil_or_concat g.2 with h0 | ⟨rs, r, hr⟩
    · exact absurd h0 (hp g (List.mem_append_right _ (List.mem_singleton_self g)))
    · rw [flat_append, flat_cons, flat_nil, List.append_nil, hr, List.concat_eq_append, List.map_append,
        ← List.append_assoc, List.map_singleton, List.getLast?_concat, List.getLast?_concat]
      rfl

/-- On a page of groups, cutting a row off is showing M earlier rows in a group that is not the last. -/
theorem cutsOff_iff {page : PagedFindCapturesByPrefixResponse} {gs : Groups Bytes CaptureMetaIdRow}
    (hitems : page.items = (flat gs).map toItem) (hk : (keys gs).Nodup) (hp : Populated gs) (row : CaptureRow) :
    CutsOff cfg page row ↔ ∃ rows, (row.link, rows) ∈ gs.dropLast ∧ rows.length = cfg.perLinkMax ∧
      ∀ x ∈ rows, x < ⟨row.id, row.createdAt⟩ := by
  have hcount : (page.items.filter (·.link = row.link)).length = ((flat gs).filter (·.1 = row.link)).length := by
    rw [hitems, List.filter_map, List.length_map]
    rfl
  have hlast : page.items.getLast?.map (·.link) = gs.getLast?.map Prod.fst := by
    rw [hitems, List.getLast?_map, Option.map_map, ← flat_getLast_key hp]
    rfl
  rw [CutsOff, hcount, hlast]
  constructor
  · rintro ⟨hlen, hprec, hne⟩
    have hkey : row.link ∈ keys gs := by
      by_contra hno
      rw [flat_filter_of_notMem hno, List.length_nil] at hlen
      exact cfg.perLinkMax_pos.ne hlen
    obtain ⟨⟨_, rows⟩, hg, rfl⟩ := List.mem_map.mp hkey
    rw [flat_filter_key hk hg, List.length_map] at hlen
    refine ⟨rows, ?_, hlen, ?_⟩
    · rcases List.eq_nil_or_concat gs with rfl | ⟨init, g, rfl⟩
      · exact absurd hg List.not_mem_nil
      · rw [List.concat_eq_append] at hg hne ⊢
        rw [List.getLast?_concat, Option.map_some] at hne
        rw [List.dropLast_concat]
        rcases List.mem_append.mp hg with hg | hg
        · exact hg
        · rw [← List.mem_singleton.mp hg] at hne
          exact absurd rfl hne
    · intro x hx
      have hmem : toItem (row.link, x) ∈ page.items := by
        rw [hitems]
        exact List.mem_map_of_mem (mem_flat.mpr ⟨rows, hg, hx⟩)
      rw [CaptureMetaIdRow.lt_iff]
      rcases hprec _ hmem rfl with hlt | ⟨_, hlt⟩
      · exact absurd hlt (lt_irrefl _)
      · exact hlt
  · rintro ⟨rows, hg, hlen, hlts⟩
    have hg' := List.dropLast_subset gs hg
    refine ⟨by rw [flat_filter_key hk hg', List.length_map, hlen], ?_, ?_⟩
    · rw [hitems]
      rintro item hitem hlink
      obtain ⟨⟨k, x⟩, hx, rfl⟩ := List.mem_map.mp hitem
      obtain ⟨rows', hrows', hx'⟩ := mem_flat.mp hx
      change k = row.link at hlink
      subst hlink
      rw [eq_of_key_mem hk hrows' hg'] at hx'
      exact toItem_precedes (hlts x hx')
    · rcases List.eq_nil_or_concat gs with rfl | ⟨init, g, rfl⟩
      · exact absurd hg' List.not_mem_nil
      · rw [List.concat_eq_append] at hg hk ⊢
        rw [List.dropLast_concat] at hg
        rw [List.getLast?_concat, Option.map_some]
        rw [keys, List.map_append] at hk
        intro heq
        exact (List.nodup_append.mp hk).2.2 row.link (List.mem_map.mpr ⟨_, hg, rfl⟩) g.1 (List.mem_singleton_self _)
          (Option.some.inj heq).symm

variable (una codec table cfg key)

end Walks

/-- A capture of a page of `a.b`. -/
def smallRow (n : Byte) (createdAt : TimePoint) (path : Bytes) : CaptureRow where
  id := smallUuid n
  createdAt := createdAt
  link := ascii "a.b" ++ path
  replayUrl := ascii "https://a.b" ++ path
  prefixKey := ascii "b.a" ++ path
  prefixTree := makePrefixTree (ascii "b.a" ++ path)
  contentSha256 := ⟨List.replicate 31 0 ++ [n], by rw [List.length_append, List.length_replicate, List.length_singleton]⟩

/-- Two captures of `a.b/x` and one of `a.b/y`. -/
def smallTable : CaptureTable where
  rows := [smallRow 1 2000 (ascii "/x"), smallRow 2 1000 (ascii "/x"), smallRow 3 1000 (ascii "/y")]
  ids_nodup := by decide +kernel
  created_stored := by decide +kernel
  links_ascii := by decide +kernel

def smallKey : LinkKey := ⟨ascii "a.b", by decide +kernel, smallHost_ascii⟩

end Webshot.Capture
