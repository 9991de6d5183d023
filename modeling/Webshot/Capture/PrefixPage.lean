import Webshot.Capture.CaptureTable
import Webshot.Capture.PrefixCursor

/-! `Crud::FindCapturesByPrefixPage`: up to N links on a page, up to M captures of each. -/
namespace Webshot.Capture
open Text Storage

/-- `captures_links_per_page_max` and `captures_per_link_max`. -/
structure PagingConfig where
  linksPerPageMax : Nat
  perLinkMax : Nat
  linksPerPageMax_pos : 0 < linksPerPageMax
  perLinkMax_pos : 0 < perLinkMax

inductive CapturePageError where
  | invalidPageToken
  | mismatchedPageToken
  | dbError
  deriving DecidableEq

structure PagedFindCapturesByPrefixResponse where
  items : List UuidWithTimeLink
  nextPageToken : Option Bytes
  previousPageToken : Option Bytes
  deriving DecidableEq

/-- The links a page will show, and whether the range has more of them on either side. -/
structure VisibleLinks where
  links : List Bytes
  hasMorePreviousLinks : Bool
  hasMoreNextLinks : Bool

section Links
variable (repo : CaptureMetaRepo) (cfg : PagingConfig) (normalizedPrefix upper : Bytes)

/-- One link more than fits is a look-ahead and is dropped. -/
def dropLookAhead (links : List Bytes) : VisibleLinks :=
  if cfg.linksPerPageMax < links.length then ⟨links.dropLast, false, true⟩ else ⟨links, false, false⟩

def visibleLinksFirst : Except PgError VisibleLinks := do
  return dropLookAhead cfg (← repo.getDistinctLinksByPrefixFirst normalizedPrefix upper (cfg.linksPerPageMax + 1))

/-- Forward: a cursor within a link keeps the link itself as the first one. -/
def visibleLinksNext (cur : PrefixCursor) : Except PgError VisibleLinks := do
  if cur.createdAt.isSome then
    let more ← repo.getDistinctLinksByPrefixNext normalizedPrefix upper cur.link cfg.linksPerPageMax
    return dropLookAhead cfg (cur.link :: more)
  else
    let more ← repo.getDistinctLinksByPrefixNext normalizedPrefix upper cur.link (cfg.linksPerPageMax + 1)
    return dropLookAhead cfg more

/-- Backward: the cursor's link is shown, last, if rows of it precede the cursor. -/
def visibleLinksPrevious (cur : PrefixCursor) : Except PgError VisibleLinks := do
  let includeCursorLink ←
    match cur.createdAt, cur.id with
    | some createdAt, some id => repo.hasRowsBeforeInLink cur.link createdAt id
    | _, _ => pure false
  let limit := cfg.linksPerPageMax + if includeCursorLink then 0 else 1
  let previousLinks ← repo.getDistinctLinksByPrefixPrev normalizedPrefix upper cur.link limit
  let visibleMax := if includeCursorLink then cfg.linksPerPageMax - 1 else cfg.linksPerPageMax
  return {
    links := (previousLinks.take visibleMax).reverse ++ if includeCursorLink then [cur.link] else []
    hasMorePreviousLinks := visibleMax < previousLinks.length
    hasMoreNextLinks := false
  }

def visibleLinks : Option PrefixCursor → Except PgError VisibleLinks
  | none => visibleLinksFirst repo cfg normalizedPrefix upper
  | some cur =>
    match cur.direction with
    | .previous => visibleLinksPrevious repo cfg normalizedPrefix upper cur
    | .next => visibleLinksNext repo cfg normalizedPrefix upper cur

end Links

section Rows
variable (repo : CaptureMetaRepo) (cfg : PagingConfig)

/-- One row more than fits is fetched. -/
def selectRowsForLink (cur : Option PrefixCursor) (link : Bytes) (idx : Nat) :
    Except PgError (List CaptureMetaIdRow) :=
  let linkLimit := cfg.perLinkMax + 1
  match cur with
  | some ⟨_, cursorLink, direction, some createdAt, some id⟩ =>
    if direction = .previous ∧ link = cursorLink then repo.getCapturesByLinkPrev link linkLimit createdAt id
    else if idx = 0 ∧ direction = .next then repo.getCapturesByLinkNext link linkLimit createdAt id
    else repo.getCapturesByLinkFirst link linkLimit
  | _ => repo.getCapturesByLinkFirst link linkLimit

/-- What the row loop accumulates. -/
structure RowLoop where
  items : List UuidWithTimeLink
  hasPreviousWithinLink : Bool
  hasNextWithinLink : Bool

def isPreviousCursorLink (cur : Option PrefixCursor) (link : Bytes) : Bool :=
  cur.any fun c => c.direction = .previous && c.createdAt.isSome && link = c.link

/-- The body of the loop over the visible links. -/
def rowStep (cur : Option PrefixCursor) (linkCount idx : Nat) (link : Bytes) (acc : RowLoop) :
    Except PgError RowLoop := do
  let rows ← selectRowsForLink repo cfg cur link idx
  let overflow := cfg.perLinkMax < rows.length
  let atCursor := isPreviousCursorLink cur link
  let isLastVisibleLink := idx + 1 = linkCount
  let dbRows := if overflow then rows.dropLast else rows
  let shownRows := if atCursor then dbRows.reverse else dbRows
  return {
    items := acc.items ++ shownRows.map fun r => ⟨r.uuid, r.createdAt, link⟩
    hasPreviousWithinLink := acc.hasPreviousWithinLink || (overflow && atCursor)
    hasNextWithinLink := acc.hasNextWithinLink || (overflow && !atCursor && isLastVisibleLink) ||
      (atCursor && !dbRows.isEmpty)
  }

def rowLoop (cur : Option PrefixCursor) (linkCount : Nat) : Nat → List Bytes → RowLoop → Except PgError RowLoop
  | _, [], acc => .ok acc
  | idx, link :: links, acc => do
    rowLoop cur linkCount (idx + 1) links (← rowStep repo cfg cur linkCount idx link acc)

end Rows

section Tokens
variable (una : UniAlgo) (codec : PrefixCodec) (normalizedPrefix : Bytes)

def previousPageToken (cur : Option PrefixCursor) (visible : VisibleLinks) (loop : RowLoop) : Option (Option Bytes) :=
  match loop.items.head? with
  | none => some none
  | some first =>
    if cur.any (·.direction = .next) || visible.hasMorePreviousLinks || loop.hasPreviousWithinLink then do
      let firstLink ← fromBytes una first.link
      return some (← encodePrefixCursorAt una codec normalizedPrefix firstLink first.createdAt first.uuid .previous)
    else some none

def nextPageToken (cur : Option PrefixCursor) (visible : VisibleLinks) (loop : RowLoop) : Option (Option Bytes) :=
  match loop.items.getLast? with
  | none => some none
  | some last =>
    if cur.any (·.direction = .previous) || loop.hasNextWithinLink || visible.hasMoreNextLinks then do
      let lastLink ← fromBytes una last.link
      if loop.hasNextWithinLink then
        return some (← encodePrefixCursorAt una codec normalizedPrefix lastLink last.createdAt last.uuid .next)
      else
        return some (← encodePrefixCursor una codec normalizedPrefix lastLink .next)
    else some none

end Tokens

/-- An empty token asks for the first page; any other one must decode and be of this prefix. -/
def pageCursor (una : UniAlgo) (codec : PrefixCodec) (normalizedPrefix pageToken : Bytes) :
    Except CapturePageError (Option PrefixCursor) :=
  if pageToken = [] then .ok none
  else
    match decodePrefixCursor una codec pageToken with
    | none => .error .invalidPageToken
    | some cur => if cur.normalizedPrefix = normalizedPrefix then .ok (some cur) else .error .mismatchedPageToken

/-- The links, then the rows of each; every failed query ends the call with the same error. -/
def pageRows (repo : CaptureMetaRepo) (cfg : PagingConfig) (normalizedPrefix : Bytes) (cur : Option PrefixCursor) :
    Except PgError (VisibleLinks × RowLoop) := do
  let visible ← visibleLinks repo cfg normalizedPrefix (upperExclusiveBound normalizedPrefix) cur
  let loop ← rowLoop repo cfg cur visible.links.length 0 visible.links ⟨[], false, false⟩
  return (visible, loop)

def findCapturesByPrefixPage (una : UniAlgo) (codec : PrefixCodec) (repo : CaptureMetaRepo) (cfg : PagingConfig)
    (normalizedPrefix pageToken : Bytes) :
    Except (Failure CapturePageError) PagedFindCapturesByPrefixResponse :=
  match pageCursor una codec normalizedPrefix pageToken with
  | .error e => .error (.error e)
  | .ok cur =>
    match pageRows repo cfg normalizedPrefix cur with
    | .error _ => .error (.error .dbError)
    | .ok (visible, loop) =>
      match nextPageToken una codec normalizedPrefix cur visible loop,
        previousPageToken una codec normalizedPrefix cur visible loop with
      | some next, some previous => .ok ⟨loop.items, next, previous⟩
      | _, _ => .error .aborted

end Webshot.Capture
