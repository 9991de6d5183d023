import Webshot.Capture.PrefixWalk

/-! Backward prefix pages, and when requesting the previous page undoes requesting the next one. -/
namespace Webshot.Capture
open Text Storage Access Foundation.GroupedPaging Foundation.OrderedSelect

/-- The cursor a forward page puts into its previous token. -/
def cursorBefore (key : LinkKey) (k : Bytes) (r : CaptureMetaIdRow) : PrefixCursor :=
  ⟨key.bytes, k, .previous, some r.createdAt, some r.uuid⟩

section Backward
variable {table : CaptureTable} (cfg : PagingConfig) {key : LinkKey} {before after : Groups Bytes CaptureMetaIdRow}
  {shown left : List CaptureMetaIdRow} {k : Bytes} {r : CaptureMetaIdRow}

theorem Standing.listing_eq (h : Standing table key ⟨before, shown, (k, r :: left) :: after⟩) :
    table.listing k = shown ++ r :: left := by
  have hmem : (k, shown ++ r :: left) ∈ prefixGroups table key := by
    rw [← h.whole_eq]
    exact List.mem_append_right _ List.mem_cons_self
  exact (prefixGroups_rows hmem).symm

theorem Standing.before_rows {g : Bytes × List CaptureMetaIdRow}
    (h : Standing table key ⟨before, shown, (k, r :: left) :: after⟩) (hg : g ∈ before) :
    g.2 = table.listing g.1 ∧ g.1 ≠ k := by
  constructor
  · apply @prefixGroups_rows table key
    rw [← h.whole_eq]
    exact List.mem_append_left _ hg
  · have hstrict := @prefixGroups_links_strict table key
    rw [← h.whole_eq, Position.whole, keys, List.map_append] at hstrict
    exact ((List.pairwise_append.mp hstrict).2.2 g.1 (List.mem_map_of_mem hg) k List.mem_cons_self).ne

private theorem reverse_take_take (l : List Bytes) {i j : Nat} (h : i ≤ j) :
    ((l.reverse.take j).take i).reverse = l.rtake i := by
  rw [List.take_take, Nat.min_eq_left h, List.rtake_eq_reverse_take_reverse]

theorem keys_rtake (gs : Groups Bytes CaptureMetaIdRow) (j : Nat) : (keys gs).rtake j = keys (gs.rtake j) := by
  rw [List.rtake, List.rtake, keys, List.length_map, ← List.map_drop]
  rfl

/-- A backward page shows the links before the cursor, and the cursor's own if rows of it were shown. -/
theorem visibleLinks_backward (h : Standing table key ⟨before, shown, (k, r :: left) :: after⟩) :
    ∃ more, visibleLinks table.repo cfg key.bytes (upperExclusiveBound key.bytes) (some (cursorBefore key k r)) =
      .ok ⟨if shown = [] then keys (before.rtake cfg.linksPerPageMax)
        else keys (before.rtake (cfg.linksPerPageMax - 1)) ++ [k], more, false⟩ := by
  have hbefore := CaptureTable.hasRowsBefore_eq h.listing_eq
  have hlinks (limit : Nat) := CaptureTable.linksPrev_eq h.links_eq limit
  simp only [visibleLinks, cursorBefore, visibleLinksPrevious, hbefore, bind, Except.bind, pure, Except.pure]
  cases shown with
  | nil =>
    simp only [List.isEmpty_nil, Bool.not_true, Bool.false_eq_true, if_false, if_true, hlinks, List.append_nil]
    rw [reverse_take_take _ (Nat.le_succ _), keys_rtake]
    exact ⟨_, rfl⟩
  | cons x xs =>
    simp only [List.isEmpty_cons, Bool.not_false, if_true, hlinks, reduceCtorEq, if_false, Nat.add_zero]
    rw [reverse_take_take _ (Nat.sub_le _ _), keys_rtake]
    exact ⟨_, rfl⟩

/-- Links before the cursor's are fetched from their first row. -/
theorem selectRows_before (h : Standing table key ⟨before, shown, (k, r :: left) :: after⟩)
    {g : Bytes × List CaptureMetaIdRow} (hg : g ∈ before) (idx : Nat) :
    selectRowsForLink table.repo cfg (some (cursorBefore key k r)) g.1 idx = .ok (g.2.take (cfg.perLinkMax + 1)) ∧
      isPreviousCursorLink (some (cursorBefore key k r)) g.1 = false := by
  obtain ⟨hrows, hne⟩ := h.before_rows hg
  constructor
  · rw [hrows, ← CaptureTable.first_eq]
    simp [selectRowsForLink, cursorBefore, hne]
  · simp [isPreviousCursorLink, cursorBefore, hne]

theorem rowLoop_append {repo : CaptureMetaRepo} {cur : Option PrefixCursor} {n : Nat} (a b : List Bytes) (idx : Nat)
    (acc : RowLoop) : rowLoop repo cfg cur n idx (a ++ b) acc =
      (rowLoop repo cfg cur n idx a acc).bind (rowLoop repo cfg cur n (idx + a.length) b) := by
  induction a generalizing idx acc with
  | nil => rfl
  | cons link a ih =>
    rw [List.cons_append, rowLoop, rowLoop]
    cases rowStep repo cfg cur n idx link acc with
    | error e => rfl
    | ok acc' =>
      change rowLoop repo cfg cur n (idx + 1) (a ++ b) acc' = _
      rw [ih, List.length_cons, Nat.add_assoc, Nat.add_comm 1]
      rfl

/-- The rows of the cursor's own link are the last ones before it. -/
theorem rowStep_cursor (h : Standing table key ⟨before, shown, (k, r :: left) :: after⟩) (n idx : Nat) (acc : RowLoop) :
    ∃ loop, rowStep table.repo cfg (some (cursorBefore key k r)) n idx k acc = .ok loop ∧
      loop.items = acc.items ++ (flat [(k, shown.rtake cfg.perLinkMax)]).map toItem := by
  have hsel : selectRowsForLink table.repo cfg (some (cursorBefore key k r)) k idx =
      .ok (shown.reverse.take (cfg.perLinkMax + 1)) := by
    rw [← CaptureTable.prev_eq h.listing_eq]
    simp [selectRowsForLink, cursorBefore]
  have hcur : isPreviousCursorLink (some (cursorBefore key k r)) k = true := by
    simp [isPreviousCursorLink, cursorBefore]
  have hrows : (shown.reverse.take cfg.perLinkMax).reverse = shown.rtake cfg.perLinkMax :=
    (List.rtake_eq_reverse_take_reverse _ _).symm
  simp only [rowStep, hsel, hcur, bind, Except.bind, pure, Except.pure, look_ahead_iff, drop_look_ahead, if_true, hrows]
  refine ⟨_, rfl, ?_⟩
  simp only [flat_cons, flat_nil, List.append_nil, List.map_map]
  rfl

/-- The loop over links before the cursor's. -/
theorem rowLoop_before (h : Standing table key ⟨before, shown, (k, r :: left) :: after⟩) (j n : Nat)
    (hn : (before.rtake j).length ≤ n) :
    ∃ loop, rowLoop table.repo cfg (some (cursorBefore key k r)) n 0 (keys (before.rtake j)) ⟨[], false, false⟩ =
        .ok loop ∧ loop.items = (flat ((before.rtake j).map (top cfg.perLinkMax))).map toItem := by
  have hmem {g : Bytes × List CaptureMetaIdRow} (hg : g ∈ before.rtake j) : g ∈ before := List.drop_subset _ _ hg
  refine ⟨_, rowLoop_eq (before.rtake j) 0 _ ?_ ?_ ?_, rfl⟩
  · intro i g hg
    exact (selectRows_before cfg h (hmem (List.mem_of_getElem? hg)) _).1
  · intro g hg
    exact (selectRows_before cfg h (hmem hg) 0).2
  · rwa [Nat.zero_add]

/-- The rows of a backward page are those the position behind suggests. -/
theorem pageRows_backward (h : Standing table key ⟨before, shown, (k, r :: left) :: after⟩) :
    ∃ visible loop, pageRows table.repo cfg key.bytes (some (cursorBefore key k r)) = .ok (visible, loop) ∧
      loop.items = (flat (back cfg.linksPerPageMax cfg.perLinkMax ⟨before, shown, (k, r :: left) :: after⟩)).map toItem := by
  obtain ⟨more, hvisible⟩ := visibleLinks_backward cfg h
  by_cases hs : shown = []
  · subst hs
    rw [if_pos rfl] at hvisible
    obtain ⟨loop, hloop, hitems⟩ := rowLoop_before cfg h cfg.linksPerPageMax
      (keys (before.rtake cfg.linksPerPageMax)).length (List.length_map _).ge
    refine ⟨⟨keys (before.rtake cfg.linksPerPageMax), more, false⟩, loop, ?_, ?_⟩
    · simp only [pageRows, hvisible, hloop, bind, Except.bind, pure, Except.pure]
    · rw [hitems, back_fresh (List.cons_ne_nil _ _)]
  · rw [if_neg hs] at hvisible
    have hlen : (before.rtake (cfg.linksPerPageMax - 1)).length ≤
        (keys (before.rtake (cfg.linksPerPageMax - 1)) ++ [k]).length := by
      rw [List.length_append, keys, List.length_map]
      exact Nat.le_add_right _ _
    obtain ⟨loop, hloop, hitems⟩ := rowLoop_before cfg h (cfg.linksPerPageMax - 1) _ hlen
    obtain ⟨loop', hstep, hitems'⟩ := rowStep_cursor cfg h
      (keys (before.rtake (cfg.linksPerPageMax - 1)) ++ [k]).length
      (0 + (keys (before.rtake (cfg.linksPerPageMax - 1))).length) loop
    refine ⟨⟨keys (before.rtake (cfg.linksPerPageMax - 1)) ++ [k], more, false⟩, loop', ?_, ?_⟩
    · simp only [pageRows, hvisible, rowLoop_append, hloop, Except.bind, rowLoop, hstep, bind, pure, Except.pure]
    · rw [hitems', hitems, back_started hs, ← List.map_append, ← flat_append]

theorem mem_back {n m : Nat} {gs : Position Bytes CaptureMetaIdRow} {x : Bytes × CaptureMetaIdRow}
    (hx : x ∈ flat (back n m gs)) : x ∈ flat gs.whole := by
  obtain ⟨k, r⟩ := x
  obtain ⟨b, s, remaining⟩ := gs
  cases remaining with
  | nil => exact absurd hx List.not_mem_nil
  | cons g after =>
    have hbefore (j : Nat) (hx : (k, r) ∈ flat ((b.rtake j).map (top m))) : (k, r) ∈ flat b := by
      obtain ⟨rows, hg, hr⟩ := mem_flat.mp ((flat_top_sublist _).subset hx)
      exact mem_flat.mpr ⟨rows, List.drop_subset _ _ hg, hr⟩
    rw [Position.whole, flat_append, prepend, flat_cons]
    by_cases hs : s = []
    · subst hs
      rw [back_fresh (List.cons_ne_nil _ _)] at hx
      exact List.mem_append_left _ (hbefore n hx)
    · rw [back_started hs, flat_append] at hx
      rcases List.mem_append.mp hx with hx | hx
      · exact List.mem_append_left _ (hbefore (n - 1) hx)
      · obtain ⟨rows, hg, hr⟩ := mem_flat.mp hx
        cases List.mem_singleton.mp hg
        exact List.mem_append_right _ (List.mem_append_left _
          (List.mem_map_of_mem (List.mem_append_left _ (List.drop_subset _ _ hr))))

/-- A backward request returns the rows the position behind suggests. -/
theorem findCapturesByPrefixPage_backward (una : UniAlgo) (codec : PrefixCodec)
    (h : Standing table key ⟨before, shown, (k, r :: left) :: after⟩) {token : Bytes}
    (hcur : pageCursor una codec key.bytes token = .ok (some (cursorBefore key k r))) :
    ∃ page, findCapturesByPrefixPage una codec table.repo cfg key.bytes token = .ok page ∧
      page.items = (flat (back cfg.linksPerPageMax cfg.perLinkMax ⟨before, shown, (k, r :: left) :: after⟩)).map toItem := by
  obtain ⟨visible, loop, hrows, hitems⟩ := pageRows_backward cfg h
  have hplain : ∀ x ∈ loop.items, IsAscii x.link ∧ StoredTime x.createdAt := by
    rw [hitems]
    intro x hx
    obtain ⟨y, hy, rfl⟩ := List.mem_map.mp hx
    have hwhole := mem_back hy
    rw [h.whole_eq] at hwhole
    have hlist := (mem_prefixItems.mp hwhole).2
    exact ⟨link_ascii (CaptureTable.listing_ne_nil_iff.mp (List.ne_nil_of_mem hlist)), CaptureTable.listing_stored hlist⟩
  obtain ⟨⟨next, hnext⟩, ⟨previous, hprevious⟩⟩ :=
    pageTokens_total una codec key (some (cursorBefore key k r)) visible hplain
  refine ⟨⟨loop.items, next, previous⟩, ?_, hitems⟩
  simp only [findCapturesByPrefixPage, hcur, hrows, hnext, hprevious]

end Backward

/-- The tokens met on the forward walk from the first page. -/
inductive ForwardToken (una : UniAlgo) (codec : PrefixCodec) (repo : CaptureMetaRepo) (cfg : PagingConfig)
    (normalizedPrefix : Bytes) : Bytes → Prop where
  | first : ForwardToken una codec repo cfg normalizedPrefix []
  | next {token next : Bytes} {page : PagedFindCapturesByPrefixResponse} :
      ForwardToken una codec repo cfg normalizedPrefix token →
      findCapturesByPrefixPage una codec repo cfg normalizedPrefix token = .ok page →
      page.nextPageToken = some next → ForwardToken una codec repo cfg normalizedPrefix next

/-- What has to hold of the cursor of a page for its next page to lead back to it. A page that
starts between links must be followed by at least N links; a page that resumes within a link must
not reach the link's end, and must have room for one link only or be in a prefix of one link. -/
def PreviousUndoesNext (table : CaptureTable) (cfg : PagingConfig) (key : LinkKey) : Option PrefixCursor → Prop
  | none => True
  | some ⟨_, link, _, some createdAt, some id⟩ =>
    cfg.perLinkMax < (table.rowsOf link).countP (CaptureMetaIdRow.after createdAt id) ∧
      (cfg.linksPerPageMax = 1 ∨ ∀ l ∈ table.distinctLinks, key.bytes <+: l → l = link)
  | some ⟨_, link, _, _, _⟩ =>
    cfg.linksPerPageMax ≤ table.distinctLinks.countP fun l => key.bytes <+: l ∧ link < l

section Undo
variable {table : CaptureTable} {cfg : PagingConfig} {key : LinkKey} {p : Position Bytes CaptureMetaIdRow}

/-- The links with the prefix after one of them are those that follow it in the listing. -/
theorem countP_links_after {a b : List Bytes} {link : Bytes}
    (h : table.linksIn key.bytes (upperExclusiveBound key.bytes) = a ++ link :: b) :
    (table.distinctLinks.countP fun l => key.bytes <+: l ∧ link < l) = b.length := by
  have hbytes : ∀ x ∈ key.bytes, x.val < 255 := fun x hx => (key.ascii x hx).trans (by decide)
  have hstrict := table.linksIn_strict key.bytes (upperExclusiveBound key.bytes)
  rw [h] at hstrict
  have hperm : (a ++ link :: b).Perm
      (table.distinctLinks.filter fun l => key.bytes ≤ l && l < upperExclusiveBound key.bytes) := by
    rw [← h]
    exact List.perm_insertionSort _ _
  have hcount : (a ++ link :: b).countP (link < ·) = b.length := by
    rw [List.countP_eq_length_filter, filter_gt_of_strict hstrict fun _ => decide_eq_true_iff]
  rw [← hcount, hperm.countP_eq, List.countP_filter]
  apply List.countP_congr
  intro l _
  simp only [Bool.and_eq_true, decide_eq_true_iff, prefix_range_iff key.ne_nil hbytes, and_comm]

/-- The rows of a link after one of them are those that follow it in the listing. -/
theorem countP_rows_after {a b : List CaptureMetaIdRow} {r : CaptureMetaIdRow} {link : Bytes}
    (h : table.listing link = a ++ r :: b) :
    (table.rowsOf link).countP (CaptureMetaIdRow.after r.createdAt r.uuid) = b.length := by
  have hstrict := table.listing_strict link
  rw [h] at hstrict
  have hperm : (a ++ r :: b).Perm (table.rowsOf link) := by
    rw [← h]
    exact List.perm_insertionSort _ _
  rw [← hperm.countP_eq, List.countP_eq_length_filter, filter_gt_of_strict hstrict (CaptureMetaIdRow.after_iff r)]

/-- One link alone has the prefix exactly when nothing stands before or after it. -/
theorem only_link_iff {a b : List Bytes} {link : Bytes}
    (h : table.linksIn key.bytes (upperExclusiveBound key.bytes) = a ++ link :: b) :
    (∀ l ∈ table.distinctLinks, key.bytes <+: l → l = link) ↔ a = [] ∧ b = [] := by
  have hstrict := table.linksIn_strict key.bytes (upperExclusiveBound key.bytes)
  have hmem {l : Bytes} : l ∈ a ++ link :: b ↔ l ∈ table.distinctLinks ∧ key.bytes <+: l := by
    rw [← h, ← keys_prefixGroups]
    exact mem_prefixLinks
  rw [h] at hstrict
  obtain ⟨_, hb, hab⟩ := List.pairwise_append.mp hstrict
  constructor
  · intro honly
    constructor
    · apply List.eq_nil_iff_forall_not_mem.mpr
      intro l hl
      obtain ⟨hd, hp⟩ := hmem.mp (List.mem_append_left _ hl)
      exact (hab l hl link List.mem_cons_self).ne (honly l hd hp)
    · apply List.eq_nil_iff_forall_not_mem.mpr
      intro l hl
      obtain ⟨hd, hp⟩ := hmem.mp (List.mem_append_right _ (List.mem_cons_of_mem _ hl))
      exact ((List.pairwise_cons.mp hb).1 l hl).ne' (honly l hd hp)
  · rintro ⟨rfl, rfl⟩ l hd hp
    exact List.mem_singleton.mp (hmem.mpr ⟨hd, hp⟩)

private theorem keys_eq_nil_iff {gs : Groups Bytes CaptureMetaIdRow} : keys gs = [] ↔ gs = [] := List.map_eq_nil_iff

/-- Advancing from a page and coming back is a matter of its cursor alone. -/
theorem undoes_iff (h : Standing table key p) (hp : p.remaining ≠ []) :
    Undoes cfg.linksPerPageMax cfg.perLinkMax p ↔ PreviousUndoesNext table cfg key (cursorAt key p) := by
  have hlinks := h.links_eq
  rcases h.fresh_or_within with ⟨before, remaining, rfl⟩ | ⟨before, s, r, g, after, rfl⟩
  · obtain ⟨g₀, after, rfl⟩ := List.exists_cons_of_ne_nil hp
    rw [cursorAt_fresh]
    rcases List.eq_nil_or_concat before with rfl | ⟨b, g, rfl⟩
    · exact iff_of_true (Or.inl ⟨rfl, Or.inl rfl⟩) trivial
    · rw [List.concat_eq_append] at hlinks ⊢
      rw [keys, List.map_append, List.append_assoc] at hlinks
      have hcount : (table.distinctLinks.countP fun l => key.bytes <+: l ∧ g.1 < l) = (keys (g₀ :: after)).length :=
        countP_links_after hlinks
      rw [List.getLast?_concat, Option.map_some]
      change _ ↔ cfg.linksPerPageMax ≤ table.distinctLinks.countP fun l => key.bytes <+: l ∧ g.1 < l
      rw [hcount, keys, List.length_map, List.length_cons]
      simp [Undoes]
  · have hlist : table.listing g.1 = s ++ r :: g.2 := by
      have hmem : (g.1, s ++ [r] ++ g.2) ∈ prefixGroups table key := by
        rw [← h.whole_eq]
        exact List.mem_append_right _ List.mem_cons_self
      rw [← prefixGroups_rows hmem, List.append_assoc]
      rfl
    rw [cursorAt_within, PreviousUndoesNext, countP_rows_after hlist, only_link_iff hlinks, keys_eq_nil_iff, ← keys,
      keys_eq_nil_iff]
    simp [Undoes]

variable {una : UniAlgo} {codec : PrefixCodec} {token next : Bytes} {page : PagedFindCapturesByPrefixResponse}

/-- A forward request with a next token shows the position's page, and the token leads to the
position reached. -/
theorem advance_of_next (h : Standing table key p) (hcur : pageCursor una codec key.bytes token = .ok (cursorAt key p))
    (hfind : findCapturesByPrefixPage una codec table.repo cfg key.bytes token = .ok page)
    (hnext : page.nextPageToken = some next) :
    page.items = (flat (Foundation.GroupedPaging.page cfg.linksPerPageMax cfg.perLinkMax p.remaining)).map toItem ∧
      ∃ p', Advances cfg.linksPerPageMax cfg.perLinkMax p p' ∧
        pageCursor una codec key.bytes next = .ok (cursorAt key p') := by
  obtain ⟨n', previous, hfind', hn', _⟩ := findCapturesByPrefixPage_forward una codec cfg h hcur
  cases hfind.symm.trans hfind'
  have hr : rest cfg.linksPerPageMax cfg.perLinkMax p.remaining ≠ [] := by
    intro h0
    rw [nextPageToken_last una codec h0] at hn'
    cases hn'
    cases hnext
  obtain ⟨p', ha⟩ := exists_advances cfg.linksPerPageMax_pos hr
  obtain ⟨t, ht, hcur'⟩ := nextPageToken_advance una codec h ha
  rw [ht] at hn'
  cases hn'
  cases hnext
  exact ⟨rfl, p', ha, hcur'⟩

/-- Every token of the forward walk stands for a position. -/
theorem ForwardToken.position (h : ForwardToken una codec table.repo cfg key.bytes token) :
    ∃ p, Standing table key p ∧ pageCursor una codec key.bytes token = .ok (cursorAt key p) := by
  induction h with
  | first => exact ⟨_, Standing.start, if_pos rfl⟩
  | next _ hfind hnext ih =>
    obtain ⟨p, hp, hcur⟩ := ih
    obtain ⟨_, p', ha, hcur'⟩ := advance_of_next hp hcur hfind hnext
    exact ⟨p', hp.advance ha, hcur'⟩

theorem cursor_of_advance {p' : Position Bytes CaptureMetaIdRow} (h : Standing table key p)
    (ha : Advances cfg.linksPerPageMax cfg.perLinkMax p p') : ∃ c, cursorAt key p' = some c := by
  obtain ⟨_, _, _, _, _, _, ⟨_, hc⟩ | ⟨_, _, hc⟩⟩ := cursorAt_advance key h.populated ha
  · exact ⟨_, hc⟩
  · exact ⟨_, hc⟩

/-- A page that leaves something has a next token, which is met on the forward walk too. -/
theorem ForwardToken.advance {p' : Position Bytes CaptureMetaIdRow}
    (h : ForwardToken una codec table.repo cfg key.bytes token) (hp : Standing table key p)
    (hcur : pageCursor una codec key.bytes token = .ok (cursorAt key p))
    (ha : Advances cfg.linksPerPageMax cfg.perLinkMax p p') :
    ∃ page next, findCapturesByPrefixPage una codec table.repo cfg key.bytes token = .ok page ∧
      page.nextPageToken = some next ∧ ForwardToken una codec table.repo cfg key.bytes next ∧
      pageCursor una codec key.bytes next = .ok (cursorAt key p') := by
  obtain ⟨_, _, hfind, hnext, _⟩ := findCapturesByPrefixPage_forward una codec cfg hp hcur
  obtain ⟨t, ht, hcur'⟩ := nextPageToken_advance una codec hp ha
  rw [ht] at hnext
  cases hnext
  exact ⟨_, t, hfind, rfl, .next h hfind rfl, hcur'⟩

/-- Requesting the previous page of the next one returns the same items. -/
def Undone (una : UniAlgo) (codec : PrefixCodec) (repo : CaptureMetaRepo) (cfg : PagingConfig)
    (normalizedPrefix : Bytes)
    (page : PagedFindCapturesByPrefixResponse) (next : Bytes) : Prop :=
  ∃ page' previous back, findCapturesByPrefixPage una codec repo cfg normalizedPrefix next = .ok page' ∧
    page'.previousPageToken = some previous ∧
    findCapturesByPrefixPage una codec repo cfg normalizedPrefix previous = .ok back ∧ back.items = page.items

theorem undone_iff_of_position (hp : Standing table key p)
    (hcur : pageCursor una codec key.bytes token = .ok (cursorAt key p))
    (hfind : findCapturesByPrefixPage una codec table.repo cfg key.bytes token = .ok page)
    (hnext : page.nextPageToken = some next) :
    Undone una codec table.repo cfg key.bytes page next ↔ PreviousUndoesNext table cfg key (cursorAt key p) := by
  obtain ⟨hitems, p', ha, hcur'⟩ := advance_of_next hp hcur hfind hnext
  have hp' := hp.advance ha
  obtain ⟨c, hc⟩ := cursor_of_advance hp ha
  obtain ⟨k, r, left, after, hrem⟩ := hp'.remaining_of_cursor hc
  obtain ⟨t, ht, htcur⟩ := previousPageToken_forward una codec hp' hc hrem
  obtain ⟨_, previous, hfind', _, hprev⟩ := findCapturesByPrefixPage_forward una codec cfg hp' hcur'
  rw [ht] at hprev
  cases hprev
  obtain ⟨before, shown, remaining⟩ := p'
  cases hrem
  obtain ⟨back, hback, hbitems⟩ := findCapturesByPrefixPage_backward cfg una codec hp' htcur
  have hremaining : p.remaining ≠ [] := by
    intro h0
    have := ha.rest_ne_nil cfg.linksPerPageMax_pos
    rw [h0] at this
    exact this rest_nil
  have hundo := back_eq_page_iff cfg.linksPerPageMax_pos cfg.perLinkMax_pos ha
    (by rw [hp.whole_eq]; exact prefixGroups_populated)
    (by rw [hp.whole_eq]; exact fun g hg => (prefixGroups_rows_strict g hg).imp ne_of_lt)
  have hsame : back.items = page.items ↔ PreviousUndoesNext table cfg key (cursorAt key p) := by
    rw [hbitems, hitems, (List.map_injective_iff.mpr toItem_injective).eq_iff, hundo, undoes_iff hp hremaining]
  constructor
  · rintro ⟨page', previous, back', hf', hpv, hb', heq⟩
    cases hfind'.symm.trans hf'
    cases hpv
    cases hback.symm.trans hb'
    exact hsame.mp heq
  · intro hundoes
    exact ⟨_, t, back, hfind', rfl, hback, hsame.mpr hundoes⟩

end Undo

/-- One link to a page and one capture of each. -/
def smallConfig : PagingConfig := ⟨1, 1, by decide, by decide⟩

def smallId (row : CaptureRow) : CaptureMetaIdRow := ⟨row.id, row.createdAt⟩

theorem prefixGroups_small : prefixGroups smallTable smallKey =
    [(ascii "a.b/x", [smallId (smallRow 1 2000 (ascii "/x")), smallId (smallRow 2 1000 (ascii "/x"))]),
      (ascii "a.b/y", [smallId (smallRow 3 1000 (ascii "/y"))])] := by
  rfl

/-- After the first page of the small table the newer capture of `a.b/x` has been shown. -/
def smallSecond : Position Bytes CaptureMetaIdRow :=
  ⟨[], [smallId (smallRow 1 2000 (ascii "/x"))],
    [(ascii "a.b/x", [smallId (smallRow 2 1000 (ascii "/x"))]), (ascii "a.b/y", [smallId (smallRow 3 1000 (ascii "/y"))])]⟩

theorem smallFirst_advances : Advances smallConfig.linksPerPageMax smallConfig.perLinkMax
    (Position.start (prefixGroups smallTable smallKey)) smallSecond := by
  rw [prefixGroups_small]
  exact .within rfl (by decide)

theorem smallSecond_advances : Advances smallConfig.linksPerPageMax smallConfig.perLinkMax smallSecond
    ⟨[(ascii "a.b/x", [smallId (smallRow 1 2000 (ascii "/x")), smallId (smallRow 2 1000 (ascii "/x"))])], [],
      [(ascii "a.b/y", [smallId (smallRow 3 1000 (ascii "/y"))])]⟩ :=
  .past rfl (by decide) (List.cons_ne_nil _ _)

end Webshot.Capture
