import Webshot.Capture.PrefixWalk

/-! Prefix pages from any token: the links and the rows of a page whatever cursor it resumes at. -/
namespace Webshot.Capture
open Text Storage Access Foundation.GroupedPaging Foundation.OrderedSelect

/-- The rows of its own link on the side a cursor asks for, by the timestamp that its time is sent as. -/
def CaptureTable.reaches (table : CaptureTable) (cur : PrefixCursor) (r : CaptureMetaIdRow) : Bool :=
  match cur.createdAt, cur.id with
  | some createdAt, some id =>
    match cur.direction with
    | .next => CaptureMetaIdRow.after (table.asTimestamp createdAt) id r
    | .previous => CaptureMetaIdRow.before (table.asTimestamp createdAt) id r
  | _, _ => false

/-- The rows a page shows of a link: those nearest to the cursor of its link, the first ones of another. -/
def rowsShown (table : CaptureTable) (cfg : PagingConfig) (cur : Option PrefixCursor) (link : Bytes) :
    List CaptureMetaIdRow :=
  match cur with
  | some ⟨p, cursorLink, direction, some createdAt, some id⟩ =>
    let reached := (table.listing link).filter
      (table.reaches ⟨p, cursorLink, direction, some createdAt, some id⟩)
    if link = cursorLink then
      match direction with
      | .next => reached.take cfg.perLinkMax
      | .previous => reached.rtake cfg.perLinkMax
    else (table.listing link).take cfg.perLinkMax
  | _ => (table.listing link).take cfg.perLinkMax

def shownGroup (table : CaptureTable) (cfg : PagingConfig) (cur : Option PrefixCursor) (link : Bytes) :
    Bytes × List CaptureMetaIdRow :=
  (link, rowsShown table cfg cur link)

/-- Time and id come together. -/
def Paired (cur : Option PrefixCursor) : Prop :=
  cur = none ∨ (∃ p link direction, cur = some ⟨p, link, direction, none, none⟩) ∨
    ∃ p link direction createdAt id, cur = some ⟨p, link, direction, some createdAt, some id⟩

/-- The links of a page: in order, with the prefix but for the cursor's own, which comes first on a
forward page and stands on any page that reaches rows of it. -/
structure PageLinks (table : CaptureTable) (key : LinkKey) (cur : Option PrefixCursor) (links : List Bytes) : Prop where
  strict : links.Pairwise (· < ·)
  inside : ∀ link ∈ links, key.bytes <+: link ∨ ∃ c ∈ cur, link = c.link ∧ c.createdAt.isSome
  head : ∀ c ∈ cur, c.direction = .next → c.createdAt.isSome → links.head? = some c.link
  reached : ∀ c ∈ cur, ∀ r ∈ table.listing c.link, table.reaches c r → c.link ∈ links

section Rows
variable {table : CaptureTable} {cfg : PagingConfig} {cur : Option PrefixCursor} {link : Bytes}

theorem rowsShown_own (p link : Bytes) (direction : PageDirection) (createdAt : TimePoint) (id : Uuid) :
    rowsShown table cfg (some ⟨p, link, direction, some createdAt, some id⟩) link =
      match direction with
      | .next => ((table.listing link).filter (CaptureMetaIdRow.after (table.asTimestamp createdAt) id)).take cfg.perLinkMax
      | .previous => ((table.listing link).filter (CaptureMetaIdRow.before (table.asTimestamp createdAt) id)).rtake cfg.perLinkMax := by
  cases direction with
  | next => exact if_pos rfl
  | previous => exact if_pos rfl

theorem rowsShown_sublist : (rowsShown table cfg cur link).Sublist (table.listing link) := by
  unfold rowsShown
  split
  · split
    · split
      · exact (List.take_sublist _ _).trans List.filter_sublist
      · rw [List.rtake]
        exact (List.drop_sublist _ _).trans List.filter_sublist
    · exact List.take_sublist _ _
  · exact List.take_sublist _ _

/-- Of its own link a cursor shows only rows it reaches. -/
theorem reaches_of_shown {c : PrefixCursor} (hp : Paired (some c)) (ht : c.createdAt.isSome) {r : CaptureMetaIdRow}
    (hr : r ∈ rowsShown table cfg (some c) c.link) : table.reaches c r = true := by
  obtain h | ⟨_, _, _, h⟩ | ⟨p, link, direction, createdAt, id, h⟩ := hp
  · cases h
  · cases h
    cases ht
  · cases h
    rw [rowsShown_own] at hr
    cases direction with
    | next => exact (List.mem_filter.mp (List.mem_of_mem_take hr)).2
    | previous => exact (List.mem_filter.mp (List.mem_of_mem_drop hr)).2

/-- Where a cursor reaches a row of its link, the page shows some. -/
theorem rowsShown_ne_nil (cfg : PagingConfig) {c : PrefixCursor} {r : CaptureMetaIdRow} (hr : r ∈ table.listing c.link)
    (hc : table.reaches c r = true) : rowsShown table cfg (some c) c.link ≠ [] := by
  obtain ⟨p, link, direction, t, i⟩ := c
  have hm := cfg.perLinkMax_pos
  cases t with
  | none => cases hc
  | some createdAt =>
    cases i with
    | none => cases hc
    | some id =>
      have hmem := List.mem_filter.mpr ⟨hr, hc⟩
      rw [rowsShown_own]
      cases direction with
      | next =>
        intro h
        rcases List.take_eq_nil_iff.mp h with h | h
        · omega
        · exact List.ne_nil_of_mem hmem h
      | previous =>
        have hlen : 0 < ((table.listing link).filter (CaptureMetaIdRow.before (table.asTimestamp createdAt) id)).length :=
          List.length_pos_of_mem hmem
        intro h
        have hdrop := List.drop_eq_nil_iff.mp h
        omega

/-- A forward cursor within a link stands on the first link, and there only. -/
def StandsFirst (cur : Option PrefixCursor) (idx : Nat) (link : Bytes) : Prop :=
  ∀ c ∈ cur, c.direction = .next → c.createdAt.isSome → (idx = 0 ↔ link = c.link)

variable (table cfg)

/-- The rows fetched of a link are a look-ahead more than those shown, backwards at a backward cursor. -/
theorem selectRows_shown (hp : Paired cur) {idx : Nat} (hidx : StandsFirst cur idx link) :
    ∃ rows : List CaptureMetaIdRow,
      selectRowsForLink table.repo cfg cur link idx = .ok (rows.take (cfg.perLinkMax + 1)) ∧
      rowsShown table cfg cur link =
        if isPreviousCursorLink cur link then (rows.take cfg.perLinkMax).reverse else rows.take cfg.perLinkMax := by
  obtain rfl | ⟨p, cursorLink, direction, rfl⟩ | ⟨p, cursorLink, direction, createdAt, id, rfl⟩ := hp
  · exact ⟨_, table.first_eq link _, rfl⟩
  · refine ⟨_, table.first_eq link _, ?_⟩
    simp [rowsShown, isPreviousCursorLink]
  · cases direction with
    | next =>
      have hzero : idx = 0 ↔ link = cursorLink := hidx _ rfl rfl rfl
      by_cases hlink : link = cursorLink
      · subst hlink
        refine ⟨(table.listing link).filter (CaptureMetaIdRow.after (table.asTimestamp createdAt) id), ?_, ?_⟩
        · simp [selectRowsForLink, hzero.mpr rfl, CaptureTable.next_filter_eq]
        · rw [rowsShown_own]
          rfl
      · refine ⟨table.listing link, ?_, ?_⟩
        · simp [selectRowsForLink, hzero, hlink, CaptureTable.first_eq]
        · simp [rowsShown, isPreviousCursorLink, hlink]
    | previous =>
      by_cases hlink : link = cursorLink
      · subst hlink
        refine ⟨((table.listing link).filter (CaptureMetaIdRow.before (table.asTimestamp createdAt) id)).reverse, ?_, ?_⟩
        · simp [selectRowsForLink, CaptureTable.prev_filter_eq]
        · rw [rowsShown_own, List.rtake_eq_reverse_take_reverse]
          simp [isPreviousCursorLink]
      · refine ⟨table.listing link, ?_, ?_⟩
        · simp [selectRowsForLink, hlink, CaptureTable.first_eq]
        · simp [rowsShown, isPreviousCursorLink, hlink]

theorem rowStep_shown (hp : Paired cur) {n idx : Nat} (hidx : StandsFirst cur idx link) (acc : RowLoop) :
    ∃ acc', rowStep table.repo cfg cur n idx link acc = .ok acc' ∧
      acc'.items = acc.items ++ (flat [shownGroup table cfg cur link]).map toItem := by
  obtain ⟨rows, hsel, hshown⟩ := selectRows_shown table cfg hp hidx
  have hitems : (flat [shownGroup table cfg cur link]).map toItem =
      (rowsShown table cfg cur link).map fun r => ⟨r.uuid, r.createdAt, link⟩ := by
    simp only [flat_cons, flat_nil, List.append_nil, shownGroup, List.map_map]
    rfl
  rw [hitems, hshown]
  simp only [rowStep, hsel, bind, Except.bind, pure, Except.pure, look_ahead_iff, drop_look_ahead]
  exact ⟨_, rfl, rfl⟩

/-- The loop shows the group of every link. -/
theorem rowLoop_shown (hp : Paired cur) {n : Nat} (links : List Bytes) (idx : Nat)
    (hidx : ∀ j link, links[j]? = some link → StandsFirst cur (idx + j) link) (acc : RowLoop) :
    ∃ loop, rowLoop table.repo cfg cur n idx links acc = .ok loop ∧
      loop.items = acc.items ++ (flat (links.map (shownGroup table cfg cur))).map toItem := by
  induction links generalizing idx acc with
  | nil => exact ⟨acc, rfl, (List.append_nil _).symm⟩
  | cons link links ih =>
    obtain ⟨acc', hstep, hitems⟩ := rowStep_shown table cfg (n := n) hp (hidx 0 link rfl) acc
    have hidx' : ∀ j l, links[j]? = some l → StandsFirst cur (idx + 1 + j) l := by
      intro j l hl
      rw [Nat.add_assoc, Nat.add_comm 1 j]
      exact hidx (j + 1) l hl
    obtain ⟨loop, hloop, hrest⟩ := ih (idx + 1) hidx' acc'
    refine ⟨loop, ?_, ?_⟩
    · rw [Nat.add_zero] at hstep
      rw [rowLoop, hstep]
      exact hloop
    · rw [hrest, hitems, List.append_assoc, ← List.map_append, ← flat_append]
      rfl

end Rows
section Links
variable {table : CaptureTable} {cfg : PagingConfig} {key : LinkKey} {cur : Option PrefixCursor} {links : List Bytes}

/-- The links of the range of a prefix are in order and start with it. -/
theorem linksIn_inside (h : links.Sublist (table.linksIn key.bytes (upperExclusiveBound key.bytes))) :
    links.Pairwise (· < ·) ∧ ∀ link ∈ links, key.bytes <+: link := by
  refine ⟨(table.linksIn_strict _ _).sublist h, ?_⟩
  intro link hlink
  have hmem := h.subset hlink
  rw [← keys_prefixGroups] at hmem
  exact (mem_prefixLinks.mp hmem).2

theorem PageLinks.of_sublist (h : links.Sublist (table.linksIn key.bytes (upperExclusiveBound key.bytes)))
    (hcur : ∀ c ∈ cur, c.createdAt = none) : PageLinks table key cur links where
  strict := (linksIn_inside h).1
  inside link hlink := Or.inl ((linksIn_inside h).2 link hlink)
  head c hc _ ht := by
    rw [hcur c hc] at ht
    cases ht
  reached c hc r _ hr := by
    rw [CaptureTable.reaches, hcur c hc] at hr
    cases hr

private theorem reverse_take_sublist (l : List Bytes) (m n : Nat) : ((l.reverse.take n).take m).reverse.Sublist l := by
  rw [← List.reverse_sublist, List.reverse_reverse]
  exact (List.take_sublist _ _).trans (List.take_sublist _ _)

theorem visibleLinks_none : ∃ visible,
    visibleLinks table.repo cfg key.bytes (upperExclusiveBound key.bytes) none = .ok visible ∧
      PageLinks table key none visible.links := by
  rw [visibleLinks, visibleLinksFirst, CaptureTable.linksFirst_eq]
  refine ⟨_, rfl, ?_⟩
  rw [dropLookAhead_take]
  refine .of_sublist (List.take_sublist _ _) ?_
  intro c hc
  cases hc

theorem visibleLinks_untimed (p link : Bytes) (direction : PageDirection) : ∃ visible,
    visibleLinks table.repo cfg key.bytes (upperExclusiveBound key.bytes) (some ⟨p, link, direction, none, none⟩) =
        .ok visible ∧
      PageLinks table key (some ⟨p, link, direction, none, none⟩) visible.links := by
  have htime : ∀ c ∈ some (⟨p, link, direction, none, none⟩ : PrefixCursor), c.createdAt = none := by
    intro c hc
    cases hc
    rfl
  cases direction with
  | next =>
    simp only [visibleLinks, visibleLinksNext, CaptureTable.linksNext_filter_eq]
    refine ⟨_, rfl, ?_⟩
    rw [dropLookAhead_take]
    exact .of_sublist ((List.take_sublist _ _).trans List.filter_sublist) htime
  | previous =>
    simp only [visibleLinks, visibleLinksPrevious, CaptureTable.linksPrev_filter_eq]
    refine ⟨_, rfl, .of_sublist ?_ htime⟩
    simp only [Bool.false_eq_true, if_false, List.append_nil]
    exact (reverse_take_sublist _ _ _).trans List.filter_sublist

theorem visibleLinks_forward_at (p link : Bytes) (createdAt : TimePoint) (id : Uuid) : ∃ visible,
    visibleLinks table.repo cfg key.bytes (upperExclusiveBound key.bytes)
        (some ⟨p, link, .next, some createdAt, some id⟩) = .ok visible ∧
      PageLinks table key (some ⟨p, link, .next, some createdAt, some id⟩) visible.links := by
  simp only [visibleLinks, visibleLinksNext, Option.isSome_some, if_true, CaptureTable.linksNext_filter_eq]
  refine ⟨_, rfl, ?_⟩
  obtain ⟨n, hn⟩ := Nat.exists_eq_add_of_lt cfg.linksPerPageMax_pos
  rw [Nat.zero_add] at hn
  rw [← List.take_succ_cons, dropLookAhead_take]
  have hsub : ((table.linksIn key.bytes (upperExclusiveBound key.bytes)).filter (link < ·)).Sublist
      (table.linksIn key.bytes (upperExclusiveBound key.bytes)) := List.filter_sublist
  obtain ⟨hstrict, hinside⟩ := linksIn_inside hsub
  refine ⟨List.Pairwise.sublist (List.take_sublist _ _) (List.pairwise_cons.mpr ⟨?_, hstrict⟩), ?_, ?_, ?_⟩
  · intro l hl
    exact of_decide_eq_true (List.mem_filter.mp hl).2
  · intro l hl
    rcases List.mem_cons.mp (List.mem_of_mem_take hl) with rfl | hl
    · exact Or.inr ⟨_, rfl, rfl, rfl⟩
    · exact Or.inl (hinside l hl)
  · rintro _ ⟨⟩ _ _
    rw [hn]
    rfl
  · rintro _ ⟨⟩ _ _ _
    rw [hn]
    exact List.mem_cons_self

theorem visibleLinks_backward_at (p link : Bytes) (createdAt : TimePoint) (id : Uuid) : ∃ visible,
    visibleLinks table.repo cfg key.bytes (upperExclusiveBound key.bytes)
        (some ⟨p, link, .previous, some createdAt, some id⟩) = .ok visible ∧
      PageLinks table key (some ⟨p, link, .previous, some createdAt, some id⟩) visible.links := by
  simp only [visibleLinks, visibleLinksPrevious, CaptureMetaRepo.hasRowsBeforeInLink, CaptureTable.prev_filter_eq]
  simp only [bind, Except.bind, pure, Except.pure, CaptureTable.linksPrev_filter_eq]
  refine ⟨_, rfl, ?_⟩
  generalize hshown :
    (!(((table.listing link).filter (CaptureMetaIdRow.before (table.asTimestamp createdAt) id)).reverse.take 1).isEmpty) = shown
  generalize hls : (((((table.linksIn key.bytes (upperExclusiveBound key.bytes)).filter
    (· < link)).reverse.take _).take _).reverse) = ls
  have hsub : ls.Sublist ((table.linksIn key.bytes (upperExclusiveBound key.bytes)).filter (· < link)) := by
    rw [← hls]
    exact reverse_take_sublist _ _ _
  obtain ⟨hstrict, hinside⟩ := linksIn_inside (hsub.trans List.filter_sublist)
  have hlt : ∀ l ∈ ls, l < link := fun l hl => of_decide_eq_true (List.mem_filter.mp (hsub.subset hl)).2
  refine ⟨List.pairwise_append.mpr ⟨hstrict, ?_, ?_⟩, ?_, ?_, ?_⟩
  · split
    · exact List.pairwise_singleton _ _
    · exact List.Pairwise.nil
  · intro l hl l' hl'
    split at hl'
    · rw [List.mem_singleton.mp hl']
      exact hlt l hl
    · cases hl'
  · intro l hl
    rcases List.mem_append.mp hl with hl | hl
    · exact Or.inl (hinside l hl)
    · split at hl
      · exact Or.inr ⟨_, rfl, List.mem_singleton.mp hl, rfl⟩
      · cases hl
  · rintro _ ⟨⟩ hdir
    cases hdir
  · rintro _ ⟨⟩ r hr hreach
    have hmem : r ∈ ((table.listing link).filter (CaptureMetaIdRow.before (table.asTimestamp createdAt) id)).reverse :=
      List.mem_reverse.mpr (List.mem_filter.mpr ⟨hr, hreach⟩)
    obtain ⟨x, rest, hcons⟩ := List.exists_cons_of_ne_nil (List.ne_nil_of_mem hmem)
    rw [hcons] at hshown
    subst hshown
    exact List.mem_append_right _ (List.mem_singleton_self _)

end Links
section Pages
variable {una : UniAlgo} {codec : PrefixCodec} {table : CaptureTable} {cfg : PagingConfig} {key : LinkKey}
  {cur : Option PrefixCursor} {token : Bytes}

theorem decodePrefixCursor_paired {c : PrefixCursor} (h : decodePrefixCursor una codec token = some c) :
    Paired (some c) := by
  simp only [decodePrefixCursor, Option.bind_eq_bind, Option.bind_eq_some_iff] at h
  obtain ⟨_, _, _, _, _, _, h⟩ := h
  split at h
  · cases h
    exact Or.inr (Or.inr ⟨_, _, _, _, _, rfl⟩)
  · cases h
    exact Or.inr (Or.inl ⟨_, _, _, rfl⟩)

theorem pageCursor_paired (h : pageCursor una codec key.bytes token = .ok cur) : Paired cur := by
  unfold pageCursor at h
  split at h
  · cases h
    exact Or.inl rfl
  · split at h
    · cases h
    · rename_i c hdec
      split at h
      · cases h
        exact decodePrefixCursor_paired hdec
      · cases h

variable (table cfg key) in
theorem visibleLinks_pageLinks (hp : Paired cur) : ∃ visible,
    visibleLinks table.repo cfg key.bytes (upperExclusiveBound key.bytes) cur = .ok visible ∧
      PageLinks table key cur visible.links := by
  obtain rfl | ⟨p, link, direction, rfl⟩ | ⟨p, link, direction, createdAt, id, rfl⟩ := hp
  · exact visibleLinks_none
  · exact visibleLinks_untimed p link direction
  · cases direction with
    | next => exact visibleLinks_forward_at p link createdAt id
    | previous => exact visibleLinks_backward_at p link createdAt id

/-- The links being in order, only the first one is that of a forward cursor. -/
theorem PageLinks.standsFirst {links : List Bytes} (h : PageLinks table key cur links) {j : Nat} {link : Bytes}
    (hj : links[j]? = some link) : StandsFirst cur j link := by
  intro c hc hdir ht
  have hhead := h.head c hc hdir ht
  cases links with
  | nil => cases hhead
  | cons first rest =>
    cases hhead
    cases j with
    | zero =>
      cases hj
      exact ⟨fun _ => rfl, fun _ => rfl⟩
    | succ j =>
      have hlt := (List.pairwise_cons.mp h.strict).1 link (List.mem_of_getElem? (i := j) hj)
      exact ⟨fun h0 => absurd h0 (Nat.succ_ne_zero j), fun heq => absurd heq hlt.ne'⟩

variable (table cfg key) in
/-- The items of a page are the groups of its links. -/
theorem pageRows_shown (hp : Paired cur) : ∃ visible loop,
    pageRows table.repo cfg key.bytes cur = .ok (visible, loop) ∧ PageLinks table key cur visible.links ∧
      loop.items = (flat (visible.links.map (shownGroup table cfg cur))).map toItem := by
  obtain ⟨visible, hvisible, hlinks⟩ := visibleLinks_pageLinks table cfg key hp
  have hfirst : ∀ j link, visible.links[j]? = some link → StandsFirst cur (0 + j) link := by
    intro j link hj
    rw [Nat.zero_add]
    exact hlinks.standsFirst hj
  obtain ⟨loop, hloop, hitems⟩ := rowLoop_shown table cfg (n := visible.links.length) hp
    visible.links 0 hfirst ⟨[], false, false⟩
  refine ⟨visible, loop, ?_, hlinks, hitems⟩
  simp only [pageRows, hvisible, hloop, bind, Except.bind, pure, Except.pure]

theorem mem_shownGroups {links : List Bytes} {link : Bytes} {r : CaptureMetaIdRow} :
    (link, r) ∈ flat (links.map (shownGroup table cfg cur)) ↔ link ∈ links ∧ r ∈ rowsShown table cfg cur link := by
  rw [mem_flat]
  constructor
  · rintro ⟨rows, hg, hr⟩
    obtain ⟨l, hl, hgroup⟩ := List.mem_map.mp hg
    cases hgroup
    exact ⟨hl, hr⟩
  · rintro ⟨hl, hr⟩
    exact ⟨_, List.mem_map_of_mem hl, hr⟩

theorem shownGroups_strict {links : List Bytes} (h : links.Pairwise (· < ·)) :
    ((flat (links.map (shownGroup table cfg cur))).map toItem).Pairwise UuidWithTimeLink.Precedes := by
  rw [List.pairwise_map]
  apply flat_pairwise
  · intro g hg
    obtain ⟨link, _, rfl⟩ := List.mem_map.mp hg
    exact ((table.listing_strict link).sublist rowsShown_sublist).imp toItem_precedes
  · rw [List.pairwise_map]
    exact h.imp fun hlt _ _ => Or.inl hlt

variable (table cfg) in
/-- A request whose token is taken up returns the groups of some links. -/
theorem findCapturesByPrefixPage_shown (hcur : pageCursor una codec key.bytes token = .ok cur) :
    ∃ page links, findCapturesByPrefixPage una codec table.repo cfg key.bytes token = .ok page ∧
      PageLinks table key cur links ∧ page.items = (flat (links.map (shownGroup table cfg cur))).map toItem := by
  obtain ⟨visible, loop, hrows, hlinks, hitems⟩ := pageRows_shown table cfg key (pageCursor_paired hcur)
  have hplain : ∀ x ∈ loop.items, IsAscii x.link ∧ StoredTime x.createdAt := by
    intro x hx
    rw [hitems] at hx
    obtain ⟨⟨link, r⟩, hr, rfl⟩ := List.mem_map.mp hx
    have hlist : r ∈ table.listing link := rowsShown_sublist.subset (mem_shownGroups.mp hr).2
    exact ⟨link_ascii (CaptureTable.listing_ne_nil_iff.mp (List.ne_nil_of_mem hlist)), CaptureTable.listing_stored hlist⟩
  obtain ⟨⟨next, hnext⟩, previous, hprevious⟩ := pageTokens_total una codec key cur visible hplain
  refine ⟨⟨loop.items, next, previous⟩, visible.links, ?_, hlinks, hitems⟩
  simp only [findCapturesByPrefixPage, hcur, hrows, hnext, hprevious]

/-- A request rejects its token, or answers with items of the prefix in page order. -/
def StaysInside (normalizedPrefix : Bytes) :
    Except (Failure CapturePageError) PagedFindCapturesByPrefixResponse → Prop
  | .ok page => (∀ item ∈ page.items, normalizedPrefix <+: item.link) ∧
      page.items.Pairwise UuidWithTimeLink.Precedes
  | .error e => e = .error .invalidPageToken ∨ e = .error .mismatchedPageToken

/-- A token leads out of the prefix: its link does not start with it and has captures on the side asked for. -/
def LeavesPrefix (una : UniAlgo) (codec : PrefixCodec) (table : CaptureTable) (normalizedPrefix token : Bytes) :
    Prop :=
  ∃ c, pageCursor una codec normalizedPrefix token = .ok (some c) ∧ ¬ normalizedPrefix <+: c.link ∧
    ∃ row ∈ table.rows, row.link = c.link ∧ table.reaches c ⟨row.id, row.createdAt⟩ = true

theorem pageCursor_rejects {e : CapturePageError} (h : pageCursor una codec key.bytes token = .error e) :
    e = .invalidPageToken ∨ e = .mismatchedPageToken := by
  unfold pageCursor at h
  split at h
  · cases h
  · split at h
    · cases h
      exact Or.inl rfl
    · split at h
      · cases h
      · cases h
        exact Or.inr rfl

/-- The page of a token that leads out of the prefix shows an item of its link. -/
theorem LeavesPrefix.not_inside (h : LeavesPrefix una codec table key.bytes token) (cfg : PagingConfig) :
    ¬ StaysInside key.bytes (findCapturesByPrefixPage una codec table.repo cfg key.bytes token) := by
  obtain ⟨c, hcur, hout, row, hrow, hlink, hreach⟩ := h
  obtain ⟨page, links, hfind, hlinks, hitems⟩ := findCapturesByPrefixPage_shown table cfg hcur
  have hlist : (⟨row.id, row.createdAt⟩ : CaptureMetaIdRow) ∈ table.listing c.link := hlink ▸ row_mem_listing hrow
  obtain ⟨r, hr⟩ := List.exists_mem_of_ne_nil _ (rowsShown_ne_nil cfg hlist hreach)
  have hshown := mem_shownGroups.mpr ⟨hlinks.reached c rfl _ hlist hreach, hr⟩
  rw [hfind]
  rintro ⟨hinside, _⟩
  rw [hitems] at hinside
  exact hout (hinside _ (List.mem_map_of_mem (f := toItem) hshown))

/-- What a page shows outside the prefix, its cursor reached. -/
theorem leavesPrefix_of_item (hcur : pageCursor una codec key.bytes token = .ok cur) {links : List Bytes}
    (hlinks : PageLinks table key cur links) {link : Bytes} {r : CaptureMetaIdRow} (hl : link ∈ links)
    (hr : r ∈ rowsShown table cfg cur link) (hout : ¬ key.bytes <+: link) :
    LeavesPrefix una codec table key.bytes token := by
  obtain hin | ⟨c, hc, rfl, ht⟩ := hlinks.inside link hl
  · exact absurd hin hout
  · cases hc
    obtain ⟨row, hrow, hlink, hid, hat⟩ := CaptureTable.mem_listing.mp (rowsShown_sublist.subset hr)
    refine ⟨c, hcur, hout, row, hrow, hlink, ?_⟩
    rw [hid, hat]
    exact reaches_of_shown (pageCursor_paired hcur) ht hr

variable (una codec table cfg key token)

end Pages

def smallPathKey : LinkKey := ⟨ascii "a.b/y", by decide +kernel, by decide +kernel⟩

end Webshot.Capture
