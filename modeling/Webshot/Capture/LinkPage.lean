import Webshot.Capture.CaptureTable
import Webshot.Capture.LinkCursor
import Webshot.Capture.PrefixPage
import Webshot.Foundation.KeysetPaging

/-! `Crud::FindCapturesByLinkPage`: the captures of one link, newest first. -/
namespace Webshot.Capture
open Text Storage Foundation.KeysetPaging Foundation.OrderedSelect

structure UuidWithTime where
  uuid : Uuid
  createdAt : TimePoint
  deriving DecidableEq

/-- `created_at` descending, then uuid ascending. -/
def UuidWithTime.Precedes (a b : UuidWithTime) : Prop :=
  b.createdAt < a.createdAt ∨ (a.createdAt = b.createdAt ∧ a.uuid < b.uuid)

structure PagedFindCapturesByLinkResponse where
  items : List UuidWithTime
  nextPageToken : Option Bytes
  previousPageToken : Option Bytes
  deriving DecidableEq

/-- `captures_page_max`. -/
structure LinkPagingConfig where
  pageMax : Nat
  pageMax_pos : 0 < pageMax

/-- An empty token asks for the first page; any other one must decode. -/
def linkPageCursor (una : UniAlgo) (codec : LinkCodec) (pageToken : Bytes) : Except CapturePageError (Option Cursor) :=
  if pageToken = [] then .ok none
  else
    match decodeCursor una codec pageToken with
    | none => .error .invalidPageToken
    | some cur => .ok (some cur)

/-- The rows of a page and a look-ahead row, in the order of the query. -/
def linkRows (repo : CaptureMetaRepo) (linkKey : Bytes) (limit : Nat) : Option Cursor →
    Except PgError (List CaptureMetaIdRow)
  | none => repo.getCapturesByLinkFirst linkKey limit
  | some cur =>
    match cur.direction with
    | .previous => repo.getCapturesByLinkPrev linkKey limit cur.createdAt cur.id
    | .next => repo.getCapturesByLinkNext linkKey limit cur.createdAt cur.id

/-- The rows a page shows, and whether there are more on either side. -/
structure ShownRows where
  rows : List CaptureMetaIdRow
  hasPrevious : Bool
  hasNext : Bool

/-- The look-ahead row is dropped; a backward query lists the nearest rows first. -/
def shownRows (cfg : LinkPagingConfig) (cur : Option Cursor) (dbRows : List CaptureMetaIdRow) : ShownRows :=
  let backward := cur.any (·.direction = .previous)
  let overflow : Bool := cfg.pageMax < dbRows.length
  let kept := if overflow then dbRows.dropLast else dbRows
  { rows := if backward then kept.reverse else kept
    hasPrevious := cur.any (·.direction = .next) || (overflow && backward)
    hasNext := backward || (overflow && !backward) }

/-- The token at one end of a page that has items and more rows beyond that end. -/
def boundaryToken (una : UniAlgo) (codec : LinkCodec) (item : Option UuidWithTime) (more : Bool)
    (direction : PageDirection) : Option (Option Bytes) :=
  match item with
  | none => some none
  | some item => if more then (encodeCursor una codec item.createdAt item.uuid direction).map some else some none

def findCapturesByLinkPage (una : UniAlgo) (codec : LinkCodec) (repo : CaptureMetaRepo) (cfg : LinkPagingConfig)
    (linkKey pageToken : Bytes) : Except (Failure CapturePageError) PagedFindCapturesByLinkResponse :=
  match linkPageCursor una codec pageToken with
  | .error e => .error (.error e)
  | .ok cur =>
    match linkRows repo linkKey (cfg.pageMax + 1) cur with
    | .error _ => .error (.error .dbError)
    | .ok dbRows =>
      let shown := shownRows cfg cur dbRows
      let items := shown.rows.map fun row => ⟨row.uuid, row.createdAt⟩
      match boundaryToken una codec items.head? shown.hasPrevious .previous,
        boundaryToken una codec items.getLast? shown.hasNext .next with
      | some previous, some next => .ok ⟨items, next, previous⟩
      | _, _ => .error .aborted

namespace CaptureMetaIdRow

def item (r : CaptureMetaIdRow) : UuidWithTime := ⟨r.uuid, r.createdAt⟩

def cursor (direction : PageDirection) (r : CaptureMetaIdRow) : Cursor := ⟨r.createdAt, r.uuid, direction⟩

end CaptureMetaIdRow

namespace CaptureTable

/-- The next-rows query lists what lies behind its cursor, whether that row is still there or not. -/
theorem next_behind (table : CaptureTable) (link : Bytes) (limit : Nat) {r : CaptureMetaIdRow}
    (hr : StoredTime r.createdAt) :
    table.repo.getCapturesByLinkNext link limit r.createdAt r.uuid =
      .ok ((behind (some r) (table.listing link)).take limit) := by
  have hafter : CaptureMetaIdRow.after r.createdAt r.uuid = fun x => decide (r < x) := by
    funext x
    rw [Bool.eq_iff_iff, CaptureMetaIdRow.after_iff, decide_eq_true_iff]
  simp only [repo, select, table.asTimestamp_stored _ hr, hafter]
  rw [insertionSort_congr CaptureMetaIdRow.newestFirst_iff, insertionSort_filter]
  rfl

end CaptureTable

section Requests
variable (una : UniAlgo) (codec : LinkCodec) (cfg : LinkPagingConfig) {table : CaptureTable} {linkKey token : Bytes}

/-- A token is written for the boundary row, and decodes to the cursor at it. -/
theorem boundaryToken_spec {r : CaptureMetaIdRow} (h : StoredTime r.createdAt) (direction : PageDirection) :
    ∃ token, boundaryToken una codec (some r.item) true direction = some (some token) ∧
      linkPageCursor una codec token = .ok (some (r.cursor direction)) := by
  obtain ⟨token, henc, hne, hdec⟩ := encodeCursor_spec una codec h.fits h.micros r.uuid direction
  refine ⟨token, ?_, ?_⟩
  · rw [boundaryToken, if_pos rfl]
    exact congrArg (Option.map some) henc
  · rw [linkPageCursor, if_neg hne, hdec]
    rfl

/-- At either end of a list of rows the token, if one is due, is that of the row at that end. -/
theorem exists_boundaryToken {rows : List CaptureMetaIdRow} (hrows : ∀ r ∈ rows, StoredTime r.createdAt)
    {r : Option CaptureMetaIdRow} (hr : ∀ x ∈ r, x ∈ rows) (more : Bool) (direction : PageDirection) :
    ∃ token, boundaryToken una codec (r.map CaptureMetaIdRow.item) more direction = some token ∧
      (more = false → token = none) ∧
      ∀ x, r = some x → more = true → ∃ t, token = some t ∧
        linkPageCursor una codec t = .ok (some (x.cursor direction)) := by
  cases r with
  | none => exact ⟨none, rfl, fun _ => rfl, fun _ h => nomatch h⟩
  | some x =>
    cases more with
    | false => exact ⟨none, rfl, fun _ => rfl, fun _ _ h => nomatch h⟩
    | true =>
      obtain ⟨t, ht, hdec⟩ := boundaryToken_spec una codec (hrows x (hr x rfl)) direction
      refine ⟨some t, ht, fun h => (nomatch h), fun y hy _ => ⟨t, rfl, ?_⟩⟩
      cases hy
      exact hdec

/-- The answer to a request, from the rows it shows: its tokens lead to the rows at its two ends. -/
theorem findCapturesByLinkPage_spec {cur : Option Cursor} {dbRows : List CaptureMetaIdRow}
    (hcur : linkPageCursor una codec token = .ok cur)
    (hdb : linkRows table.repo linkKey (cfg.pageMax + 1) cur = .ok dbRows) {shown : ShownRows}
    (hshown : shownRows cfg cur dbRows = shown) (hrows : ∀ r ∈ shown.rows, r ∈ table.listing linkKey) :
    ∃ next previous, findCapturesByLinkPage una codec table.repo cfg linkKey token =
        .ok ⟨shown.rows.map CaptureMetaIdRow.item, next, previous⟩ ∧
      (shown.hasNext = false → next = none) ∧
      (∀ x, shown.rows.getLast? = some x → shown.hasNext = true →
        ∃ t, next = some t ∧ linkPageCursor una codec t = .ok (some (x.cursor .next))) ∧
      (∀ x, shown.rows.head? = some x → shown.hasPrevious = true →
        ∃ t, previous = some t ∧ linkPageCursor una codec t = .ok (some (x.cursor .previous))) := by
  have hstored : ∀ r ∈ shown.rows, StoredTime r.createdAt := fun r hr => CaptureTable.listing_stored (hrows r hr)
  obtain ⟨previous, hprevious, _, hfirst⟩ := exists_boundaryToken una codec hstored
    (fun _ hx => List.mem_of_mem_head? hx) shown.hasPrevious .previous
  obtain ⟨next, hnext, hnone, hlast⟩ := exists_boundaryToken una codec hstored
    (fun _ hx => List.mem_of_getLast? hx) shown.hasNext .next
  rw [← List.head?_map] at hprevious
  rw [← List.getLast?_map] at hnext
  refine ⟨next, previous, ?_, hnone, hlast, hfirst⟩
  have hitem : (fun row : CaptureMetaIdRow => UuidWithTime.mk row.uuid row.createdAt) = CaptureMetaIdRow.item := rfl
  simp only [findCapturesByLinkPage, hcur, hdb, hshown, hitem, hprevious, hnext]

theorem shownRows_forward (c : Option CaptureMetaIdRow) (rows : List CaptureMetaIdRow) :
    shownRows cfg (c.map (CaptureMetaIdRow.cursor .next)) (rows.take (cfg.pageMax + 1)) =
      ⟨rows.take cfg.pageMax, c.isSome, decide (cfg.pageMax < rows.length)⟩ := by
  cases c with
  | none => simp [shownRows, drop_look_ahead]
  | some c => simp [shownRows, drop_look_ahead, CaptureMetaIdRow.cursor]

theorem shownRows_backward (x : CaptureMetaIdRow) (rows : List CaptureMetaIdRow) :
    shownRows cfg (some (x.cursor .previous)) (rows.take (cfg.pageMax + 1)) =
      ⟨(rows.take cfg.pageMax).reverse, decide (cfg.pageMax < rows.length), true⟩ := by
  simp [shownRows, drop_look_ahead, CaptureMetaIdRow.cursor]

/-- The previous token of the page is the cursor at its first row. -/
def BackLinked (page : PagedFindCapturesByLinkResponse) : Prop :=
  ∀ x : CaptureMetaIdRow, page.items.head? = some x.item →
    ∃ t, page.previousPageToken = some t ∧ linkPageCursor una codec t = .ok (some (x.cursor .previous))

theorem item_injective : Function.Injective CaptureMetaIdRow.item := by
  rintro ⟨u, t⟩ ⟨u', t'⟩ h
  cases h
  rfl

/-- A forward request shows the first rows behind its cursor. -/
theorem findCapturesByLinkPage_forward (table : CaptureTable) (linkKey : Bytes) {c : Option CaptureMetaIdRow}
    (hc : ∀ x ∈ c, StoredTime x.createdAt)
    (hcur : linkPageCursor una codec token = .ok (c.map (CaptureMetaIdRow.cursor .next))) :
    ∃ page, findCapturesByLinkPage una codec table.repo cfg linkKey token = .ok page ∧
      page.items = ((behind c (table.listing linkKey)).take cfg.pageMax).map CaptureMetaIdRow.item ∧
      ((behind c (table.listing linkKey)).length ≤ cfg.pageMax → page.nextPageToken = none) ∧
      (∀ x, ((behind c (table.listing linkKey)).take cfg.pageMax).getLast? = some x →
        cfg.pageMax < (behind c (table.listing linkKey)).length →
        ∃ t, page.nextPageToken = some t ∧ linkPageCursor una codec t = .ok (some (x.cursor .next))) ∧
      (c.isSome → BackLinked una codec page) := by
  have hdb : linkRows table.repo linkKey (cfg.pageMax + 1) (c.map (CaptureMetaIdRow.cursor .next)) =
      .ok ((behind c (table.listing linkKey)).take (cfg.pageMax + 1)) := by
    cases c with
    | none => exact table.first_eq linkKey _
    | some c => exact table.next_behind linkKey _ (hc c rfl)
  obtain ⟨next, previous, hfind, hnone, hlast, hfirst⟩ := findCapturesByLinkPage_spec una codec cfg hcur hdb
    (shownRows_forward cfg c _) fun r hr => (mem_behind.mp (List.mem_of_mem_take hr)).1
  refine ⟨_, hfind, rfl, ?_, ?_, ?_⟩
  · intro hlen
    exact hnone (decide_eq_false (by omega))
  · intro x hx hlen
    exact hlast x hx (decide_eq_true hlen)
  · intro hsome x hx
    rw [List.head?_map] at hx
    obtain ⟨y, hy, hxy⟩ := Option.map_eq_some_iff.mp hx
    rw [← item_injective hxy]
    exact hfirst y hy hsome

/-- A backward request shows, in listing order, the rows just before its cursor. -/
theorem findCapturesByLinkPage_backward {x : CaptureMetaIdRow} {a b : List CaptureMetaIdRow}
    (hcur : linkPageCursor una codec token = .ok (some (x.cursor .previous)))
    (hlisting : table.listing linkKey = a ++ x :: b) :
    ∃ next previous, findCapturesByLinkPage una codec table.repo cfg linkKey token =
      .ok ⟨((a.reverse.take cfg.pageMax).reverse).map CaptureMetaIdRow.item, next, previous⟩ := by
  have hdb : linkRows table.repo linkKey (cfg.pageMax + 1) (some (x.cursor .previous)) =
      .ok (a.reverse.take (cfg.pageMax + 1)) := CaptureTable.prev_eq hlisting _
  obtain ⟨next, previous, hfind, _⟩ := findCapturesByLinkPage_spec una codec cfg hcur hdb
    (shownRows_backward cfg x _) fun r hr => by
      rw [hlisting]
      exact List.mem_append_left _ (List.mem_reverse.mp (List.mem_of_mem_take (List.mem_reverse.mp hr)))
  exact ⟨next, previous, hfind⟩

end Requests

section Walks
variable (una : UniAlgo) (codec : LinkCodec) (cfg : LinkPagingConfig) (linkKey : Bytes)

/-- The pages met by following the next tokens, each request answered from the table as it is by
then, and whether the page without a next token was met. -/
def followNextTokens : Bytes → List CaptureTable →
    Except (Failure CapturePageError) (List PagedFindCapturesByLinkResponse × Bool)
  | _, [] => .ok ([], false)
  | token, table :: tables => do
    let page ← findCapturesByLinkPage una codec table.repo cfg linkKey token
    match page.nextPageToken with
    | none => return ([page], true)
    | some next =>
      let (pages, ended) ← followNextTokens next tables
      return (page :: pages, ended)

variable {linkKey}

theorem linkPageCursor_nil : linkPageCursor una codec [] = .ok none := if_pos rfl

/-- Following the tokens walks through the listings; all pages but the first are linked back. -/
theorem followNextTokens_of_walk {c : Option CaptureMetaIdRow} {tables : List CaptureTable}
    {ps : List (List CaptureMetaIdRow)} {ended : Bool} {token : Bytes}
    (hw : Walk cfg.pageMax c (tables.map (·.listing linkKey)) ps ended) (hc : ∀ x ∈ c, StoredTime x.createdAt)
    (hcur : linkPageCursor una codec token = .ok (c.map (CaptureMetaIdRow.cursor .next))) :
    ∃ pages, followNextTokens una codec cfg linkKey token tables = .ok (pages, ended) ∧
      pages.map (·.items) = ps.map (·.map CaptureMetaIdRow.item) ∧
      ∀ i page, pages[i]? = some page → c.isSome ∨ 0 < i → BackLinked una codec page := by
  induction tables generalizing c ps token with
  | nil =>
    cases hw
    exact ⟨[], rfl, rfl, fun _ _ h => nomatch h⟩
  | cons table tables ih =>
    obtain ⟨page, hfind, hshown, hnone, hlast, hback⟩ := findCapturesByLinkPage_forward una codec cfg table linkKey hc hcur
    rw [List.map_cons] at hw
    cases hw with
    | last _ hlen =>
      refine ⟨[page], ?_, ?_, ?_⟩
      · simp only [followNextTokens, hfind, hnone hlen, bind, Except.bind, pure, Except.pure]
      · rw [List.map_singleton, List.map_singleton, hshown, List.take_of_length_le hlen]
      · rintro (_ | i) _ hpage hi
        · cases hpage
          exact hback (hi.resolve_right (Nat.lt_irrefl 0))
        · cases hpage
    | @more _ last _ _ _ _ hlen hc' hrest =>
      obtain ⟨t, ht, hcur'⟩ := hlast _ hc' hlen
      have hstored : ∀ x ∈ some last, StoredTime x.createdAt := by
        rintro _ ⟨⟩
        exact CaptureTable.listing_stored (mem_behind.mp (List.mem_of_mem_take (List.mem_of_getLast? hc'))).1
      obtain ⟨pages, hpages, hitems, hlinked⟩ := ih hrest hstored hcur'
      refine ⟨page :: pages, ?_, ?_, ?_⟩
      · simp only [followNextTokens, hfind, ht, hpages, bind, Except.bind, pure, Except.pure]
      · rw [List.map_cons, List.map_cons, hitems, hshown]
      · rintro (_ | i) _ hpage hi
        · cases hpage
          exact hback (hi.resolve_right (Nat.lt_irrefl 0))
        · exact hlinked i _ hpage (Or.inl rfl)

/-- What a walk shows was in one of the tables it met. -/
theorem mem_table_of_mem_walk {c : Option CaptureMetaIdRow} {tables : List CaptureTable}
    {ps : List (List CaptureMetaIdRow)} {ended : Bool} {n : Nat}
    (hw : Walk n c (tables.map (·.listing linkKey)) ps ended) {x : CaptureMetaIdRow} (hx : x ∈ ps.flatten) :
    ∃ table ∈ tables, ∃ row ∈ table.rows, row.id = x.uuid ∧ row.createdAt = x.createdAt := by
  obtain ⟨l, hl, hx⟩ := hw.mem_list hx
  obtain ⟨table, htable, rfl⟩ := List.mem_map.mp hl
  obtain ⟨row, hrow, _, hid, hat⟩ := CaptureTable.mem_listing.mp hx
  exact ⟨table, htable, row, hrow, hid, hat⟩

theorem flatMap_items {pages : List PagedFindCapturesByLinkResponse} {ps : List (List CaptureMetaIdRow)}
    (h : pages.map (·.items) = ps.map (·.map CaptureMetaIdRow.item)) :
    pages.flatMap (·.items) = ps.flatten.map CaptureMetaIdRow.item := by
  rw [List.flatMap_def, h, List.map_flatten]

theorem strict_listings (tables : List CaptureTable) (linkKey : Bytes) :
    ∀ l ∈ tables.map (·.listing linkKey), l.Pairwise (· < ·) := by
  intro l hl
  obtain ⟨table, _, rfl⟩ := List.mem_map.mp hl
  exact table.listing_strict linkKey

/-- The previous token of a later page leads back to the page before it, while the table is unchanged. -/
theorem previous_page_of_unchanged {table : CaptureTable} {ps : List (List CaptureMetaIdRow)} {k : Nat} {ended : Bool}
    (hw : Walk cfg.pageMax none (List.replicate k (table.listing linkKey)) ps ended)
    {pages : List PagedFindCapturesByLinkResponse}
    (hitems : pages.map (·.items) = ps.map (·.map CaptureMetaIdRow.item))
    (hback : ∀ i page, pages[i]? = some page → 0 < i → BackLinked una codec page) {i : Nat}
    {p q : PagedFindCapturesByLinkResponse} (hp : pages[i]? = some p) (hq : pages[i + 1]? = some q) :
    ∃ token page, q.previousPageToken = some token ∧
      findCapturesByLinkPage una codec table.repo cfg linkKey token = .ok page ∧ page.items = p.items := by
  have hget : ∀ {j : Nat} {page : PagedFindCapturesByLinkResponse}, pages[j]? = some page →
      ∃ rows, ps[j]? = some rows ∧ page.items = rows.map CaptureMetaIdRow.item := by
    intro j page hpage
    have hj := congrArg (·[j]?) hitems
    simp only [List.getElem?_map, hpage, Option.map_some] at hj
    obtain ⟨rows, hrows, heq⟩ := Option.map_eq_some_iff.mp hj.symm
    exact ⟨rows, hrows, heq.symm⟩
  obtain ⟨rows, hrows, hpitems⟩ := hget hp
  obtain ⟨rows', hrows', hqitems⟩ := hget hq
  obtain ⟨x, a, b, hhead, hlisting, hlen⟩ := hw.page_before cfg.pageMax_pos (table.listing_strict linkKey) hrows hrows'
  obtain ⟨token, htoken, hcur⟩ := hback (i + 1) q hq (Nat.succ_pos i) x (by rw [hqitems, List.head?_map, hhead]; rfl)
  obtain ⟨next, previous, hfind⟩ := findCapturesByLinkPage_backward una codec cfg hcur hlisting
  refine ⟨token, _, htoken, hfind, ?_⟩
  have htake : (a ++ rows).reverse.take cfg.pageMax = rows.reverse := by
    rw [List.reverse_append, ← hlen, ← List.length_reverse, List.take_left]
  rw [htake, List.reverse_reverse, hpitems]

variable (linkKey)

end Walks
end Webshot.Capture
