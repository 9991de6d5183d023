import Mathlib.Algebra.Order.Ring.Int
import Mathlib.Data.List.Dedup
import Mathlib.Data.Prod.Lex
import Webshot.Foundation.OrderedSelect
import Webshot.Storage.Values

/-! The capture table and the queries that list it by link. -/
namespace Webshot.Capture
open Text Storage Foundation.OrderedSelect

/-- The columns of `capture`. -/
structure CaptureRow where
  id : Uuid
  createdAt : TimePoint
  link : Bytes
  replayUrl : Bytes
  prefixKey : Bytes
  prefixTree : Bytes
  contentSha256 : Sha256
  deriving DecidableEq

/-- The table as the schema and its only writer keep it: `id` is the primary key, Postgres stores
whole microseconds of the clock, and every link is the key of an accepted link. With it the timestamp
that the driver asks for in place of a time point, which is that of the row if there is one. -/
structure CaptureTable where
  rows : List CaptureRow
  ids_nodup : (rows.map CaptureRow.id).Nodup
  created_stored : ∀ r ∈ rows, StoredTime r.createdAt
  links_ascii : ∀ r ∈ rows, IsAscii r.link
  asTimestamp : TimePoint → TimePoint := id
  asTimestamp_stored : ∀ t, StoredTime t → asTimestamp t = t := by intros; rfl

/-- What the listing queries return of a row. -/
structure CaptureMetaIdRow where
  uuid : Uuid
  createdAt : TimePoint
  deriving DecidableEq

namespace CaptureMetaIdRow

/-- `created_at desc, id asc`. -/
def newestFirst (a b : CaptureMetaIdRow) : Prop :=
  b.createdAt < a.createdAt ∨ (a.createdAt = b.createdAt ∧ a.uuid ≤ b.uuid)

/-- `created_at asc, id desc`. -/
def oldestFirst (a b : CaptureMetaIdRow) : Prop :=
  a.createdAt < b.createdAt ∨ (a.createdAt = b.createdAt ∧ b.uuid ≤ a.uuid)

instance : DecidableRel newestFirst := fun a b =>
  inferInstanceAs (Decidable (b.createdAt < a.createdAt ∨ (a.createdAt = b.createdAt ∧ a.uuid ≤ b.uuid)))

instance : DecidableRel oldestFirst := fun a b =>
  inferInstanceAs (Decidable (a.createdAt < b.createdAt ∨ (a.createdAt = b.createdAt ∧ b.uuid ≤ a.uuid)))

/-- `created_at < $3 or (created_at = $3 and id > $4)`. -/
def after (createdAt : TimePoint) (id : Uuid) (r : CaptureMetaIdRow) : Bool :=
  r.createdAt < createdAt || (r.createdAt == createdAt && id < r.uuid)

/-- `created_at > $3 or (created_at = $3 and id < $4)`. -/
def before (createdAt : TimePoint) (id : Uuid) (r : CaptureMetaIdRow) : Bool :=
  createdAt < r.createdAt || (r.createdAt == createdAt && r.uuid < id)

/-- The place of a row in the listing of its link. -/
def place (r : CaptureMetaIdRow) : ℤᵒᵈ ×ₗ Uuid := toLex (OrderDual.toDual r.createdAt, r.uuid)

theorem place_injective : Function.Injective place := by
  intro a b h
  have h' : (OrderDual.toDual a.createdAt, a.uuid) = (OrderDual.toDual b.createdAt, b.uuid) := toLex.injective h
  obtain ⟨hc, hu⟩ := Prod.mk.inj h'
  cases a
  cases b
  simp_all

/-- The listing order: newer rows are smaller, ties are broken by `id`. -/
instance : LinearOrder CaptureMetaIdRow := LinearOrder.lift' place place_injective

theorem newestFirst_iff (a b : CaptureMetaIdRow) : newestFirst a b ↔ a ≤ b := by
  change _ ↔ place a ≤ place b
  rw [place, place, Prod.Lex.toLex_le_toLex]
  rfl

theorem oldestFirst_iff (a b : CaptureMetaIdRow) : oldestFirst a b ↔ b ≤ a := by
  rw [← newestFirst_iff]
  exact or_congr Iff.rfl (and_congr_left' eq_comm)

theorem lt_iff (a b : CaptureMetaIdRow) :
    a < b ↔ b.createdAt < a.createdAt ∨ (a.createdAt = b.createdAt ∧ a.uuid < b.uuid) := by
  change place a < place b ↔ _
  rw [place, place, Prod.Lex.toLex_lt_toLex]
  rfl

theorem after_iff (c r : CaptureMetaIdRow) : after c.createdAt c.uuid r = true ↔ c < r := by
  rw [lt_iff]
  simp only [after, Bool.or_eq_true, Bool.and_eq_true, decide_eq_true_eq, beq_iff_eq]
  exact or_congr Iff.rfl (and_congr_left' eq_comm)

theorem before_iff (c r : CaptureMetaIdRow) : before c.createdAt c.uuid r = true ↔ r < c := by
  rw [lt_iff]
  simp [before]

end CaptureMetaIdRow

/-- The reads of the capture database behind the listings; each may fail. -/
structure CaptureMetaRepo where
  getCapturesByLinkFirst : Bytes → Nat → Except PgError (List CaptureMetaIdRow)
  getCapturesByLinkNext : Bytes → Nat → TimePoint → Uuid → Except PgError (List CaptureMetaIdRow)
  getCapturesByLinkPrev : Bytes → Nat → TimePoint → Uuid → Except PgError (List CaptureMetaIdRow)
  getDistinctLinksByPrefixFirst : Bytes → Bytes → Nat → Except PgError (List Bytes)
  getDistinctLinksByPrefixNext : Bytes → Bytes → Bytes → Nat → Except PgError (List Bytes)
  getDistinctLinksByPrefixPrev : Bytes → Bytes → Bytes → Nat → Except PgError (List Bytes)

/-- The previous-rows query again, with a limit of one. -/
def CaptureMetaRepo.hasRowsBeforeInLink (repo : CaptureMetaRepo) (link : Bytes) (createdAt : TimePoint) (id : Uuid) :
    Except PgError Bool := do
  return !(← repo.getCapturesByLinkPrev link 1 createdAt id).isEmpty

namespace CaptureTable
open CaptureMetaIdRow

/-- `select id, created_at from capture where link = $1`. -/
def rowsOf (table : CaptureTable) (link : Bytes) : List CaptureMetaIdRow :=
  (table.rows.filter (·.link = link)).map fun r => ⟨r.id, r.createdAt⟩

/-- `select link from capture group by link`. -/
def distinctLinks (table : CaptureTable) : List Bytes := (table.rows.map CaptureRow.link).dedup

/-- A database that answers every query from the table. -/
def repo (table : CaptureTable) : CaptureMetaRepo where
  getCapturesByLinkFirst link limit := .ok (select newestFirst (fun _ => true) limit (table.rowsOf link))
  getCapturesByLinkNext link limit createdAt id :=
    .ok (select newestFirst (after (table.asTimestamp createdAt) id) limit (table.rowsOf link))
  getCapturesByLinkPrev link limit createdAt id :=
    .ok (select oldestFirst (before (table.asTimestamp createdAt) id) limit (table.rowsOf link))
  getDistinctLinksByPrefixFirst lower upper limit :=
    .ok (select (· ≤ ·) (fun l => lower ≤ l && l < upper) limit table.distinctLinks)
  getDistinctLinksByPrefixNext lower upper fromLink limit :=
    .ok (select (· ≤ ·) (fun l => lower ≤ l && l < upper && fromLink < l) limit table.distinctLinks)
  getDistinctLinksByPrefixPrev lower upper fromLink limit :=
    .ok (select (· ≥ ·) (fun l => lower ≤ l && l < upper && l < fromLink) limit table.distinctLinks)

/-- The rows of a link in listing order. -/
def listing (table : CaptureTable) (link : Bytes) : List CaptureMetaIdRow :=
  (table.rowsOf link).insertionSort (· ≤ ·)

theorem rowsOf_nodup (table : CaptureTable) (link : Bytes) : (table.rowsOf link).Nodup := by
  have hids : ((table.rowsOf link).map CaptureMetaIdRow.uuid).Nodup := by
    rw [rowsOf, List.map_map]
    exact table.ids_nodup.sublist (List.filter_sublist.map _)
  exact List.Nodup.of_map _ hids

theorem listing_strict (table : CaptureTable) (link : Bytes) : (table.listing link).Pairwise (· < ·) :=
  insertionSort_strict (table.rowsOf_nodup link)

theorem mem_listing {table : CaptureTable} {link : Bytes} {r : CaptureMetaIdRow} :
    r ∈ table.listing link ↔ ∃ row ∈ table.rows, row.link = link ∧ row.id = r.uuid ∧ row.createdAt = r.createdAt := by
  rw [listing, List.mem_insertionSort, rowsOf, List.mem_map]
  constructor
  · rintro ⟨row, hrow, rfl⟩
    obtain ⟨hmem, hlink⟩ := List.mem_filter.mp hrow
    exact ⟨row, hmem, of_decide_eq_true hlink, rfl, rfl⟩
  · rintro ⟨row, hmem, hlink, hid, hat⟩
    refine ⟨row, List.mem_filter.mpr ⟨hmem, decide_eq_true hlink⟩, ?_⟩
    rw [hid, hat]

theorem listing_stored {table : CaptureTable} {link : Bytes} {r : CaptureMetaIdRow} (h : r ∈ table.listing link) :
    StoredTime r.createdAt := by
  obtain ⟨row, hrow, _, _, hat⟩ := mem_listing.mp h
  rw [← hat]
  exact table.created_stored row hrow

/-- A row that the listing has is asked for by its own time. -/
theorem asTimestamp_listing {table : CaptureTable} {link : Bytes} {a b : List CaptureMetaIdRow} {r : CaptureMetaIdRow}
    (h : table.listing link = a ++ r :: b) : table.asTimestamp r.createdAt = r.createdAt := by
  have hlisted : r ∈ table.listing link := by
    rw [h]
    exact List.mem_append_right _ List.mem_cons_self
  exact table.asTimestamp_stored _ (listing_stored hlisted)

theorem listing_ne_nil_iff {table : CaptureTable} {link : Bytes} :
    table.listing link ≠ [] ↔ link ∈ table.distinctLinks := by
  rw [distinctLinks, List.mem_dedup, List.mem_map]
  constructor
  · intro h
    obtain ⟨r, hr⟩ := List.exists_mem_of_ne_nil _ h
    obtain ⟨row, hmem, hlink, _⟩ := mem_listing.mp hr
    exact ⟨row, hmem, hlink⟩
  · rintro ⟨row, hmem, hlink⟩
    exact List.ne_nil_of_mem (mem_listing (r := ⟨row.id, row.createdAt⟩).mpr ⟨row, hmem, hlink, rfl, rfl⟩)

theorem first_eq (table : CaptureTable) (link : Bytes) (limit : Nat) :
    table.repo.getCapturesByLinkFirst link limit = .ok ((table.listing link).take limit) := by
  simp only [repo, select, List.filter_true, insertionSort_congr newestFirst_iff, listing]

theorem next_filter_eq (table : CaptureTable) (link : Bytes) (limit : Nat) (createdAt : TimePoint) (id : Uuid) :
    table.repo.getCapturesByLinkNext link limit createdAt id =
      .ok (((table.listing link).filter (after (table.asTimestamp createdAt) id)).take limit) := by
  simp only [repo, select, insertionSort_congr newestFirst_iff, insertionSort_filter, listing]

theorem prev_filter_eq (table : CaptureTable) (link : Bytes) (limit : Nat) (createdAt : TimePoint) (id : Uuid) :
    table.repo.getCapturesByLinkPrev link limit createdAt id =
      .ok (((table.listing link).filter (before (table.asTimestamp createdAt) id)).reverse.take limit) := by
  simp only [repo, select, insertionSort_ge oldestFirst_iff, insertionSort_filter, listing]

/-- The next-rows query resumes the listing after the row it is given. -/
theorem next_eq {table : CaptureTable} {link : Bytes} {a b : List CaptureMetaIdRow} {r : CaptureMetaIdRow}
    (h : table.listing link = a ++ r :: b) (limit : Nat) :
    table.repo.getCapturesByLinkNext link limit r.createdAt r.uuid = .ok (b.take limit) := by
  have hstrict := table.listing_strict link
  rw [h] at hstrict
  rw [next_filter_eq, asTimestamp_listing h, h, filter_gt_of_strict hstrict (after_iff r)]

/-- The previous-rows query lists the rows before the one it is given, nearest first. -/
theorem prev_eq {table : CaptureTable} {link : Bytes} {a b : List CaptureMetaIdRow} {r : CaptureMetaIdRow}
    (h : table.listing link = a ++ r :: b) (limit : Nat) :
    table.repo.getCapturesByLinkPrev link limit r.createdAt r.uuid = .ok (a.reverse.take limit) := by
  have hstrict := table.listing_strict link
  rw [h] at hstrict
  rw [prev_filter_eq, asTimestamp_listing h, h, filter_lt_of_strict hstrict (before_iff r)]

theorem hasRowsBefore_eq {table : CaptureTable} {link : Bytes} {a b : List CaptureMetaIdRow} {r : CaptureMetaIdRow}
    (h : table.listing link = a ++ r :: b) :
    table.repo.hasRowsBeforeInLink link r.createdAt r.uuid = .ok !a.isEmpty := by
  rw [CaptureMetaRepo.hasRowsBeforeInLink, prev_eq h]
  rcases List.eq_nil_or_concat a with rfl | ⟨a, x, rfl⟩
  · rfl
  · simp [bind, Except.bind, pure, Except.pure]

/-- The distinct links of a byte range, ascending. -/
def linksIn (table : CaptureTable) (lower upper : Bytes) : List Bytes :=
  (table.distinctLinks.filter fun l => lower ≤ l && l < upper).insertionSort (· ≤ ·)

theorem linksIn_strict (table : CaptureTable) (lower upper : Bytes) : (table.linksIn lower upper).Pairwise (· < ·) :=
  insertionSort_strict ((List.nodup_dedup _).filter _)

variable {table : CaptureTable} {lower upper link : Bytes}

theorem mem_linksIn : link ∈ table.linksIn lower upper ↔ link ∈ table.distinctLinks ∧ lower ≤ link ∧ link < upper := by
  rw [linksIn, List.mem_insertionSort, List.mem_filter, Bool.and_eq_true, decide_eq_true_iff, decide_eq_true_iff]

theorem linksFirst_eq (limit : Nat) :
    table.repo.getDistinctLinksByPrefixFirst lower upper limit = .ok ((table.linksIn lower upper).take limit) := rfl

theorem linksNext_filter_eq (fromLink : Bytes) (limit : Nat) :
    table.repo.getDistinctLinksByPrefixNext lower upper fromLink limit =
      .ok (((table.linksIn lower upper).filter (fromLink < ·)).take limit) := by
  have hsplit : (table.distinctLinks.filter fun l => lower ≤ l && l < upper && fromLink < l) =
      (table.distinctLinks.filter fun l => lower ≤ l && l < upper).filter (fromLink < ·) := by
    rw [List.filter_filter]
    exact List.filter_congr fun l _ => Bool.and_comm _ _
  simp only [repo, select, hsplit, insertionSort_filter _ (table.distinctLinks.filter _), linksIn]

theorem linksPrev_filter_eq (fromLink : Bytes) (limit : Nat) :
    table.repo.getDistinctLinksByPrefixPrev lower upper fromLink limit =
      .ok (((table.linksIn lower upper).filter (· < fromLink)).reverse.take limit) := by
  have hsplit : (table.distinctLinks.filter fun l => lower ≤ l && l < upper && l < fromLink) =
      (table.distinctLinks.filter fun l => lower ≤ l && l < upper).filter (· < fromLink) := by
    rw [List.filter_filter]
    exact List.filter_congr fun l _ => Bool.and_comm _ _
  simp only [repo, select, hsplit, insertionSort_ge fun _ _ => Iff.rfl,
    insertionSort_filter _ (table.distinctLinks.filter _), linksIn]

/-- The next-links query resumes the links of the range after the one it is given. -/
theorem linksNext_eq {a b : List Bytes} (h : table.linksIn lower upper = a ++ link :: b) (limit : Nat) :
    table.repo.getDistinctLinksByPrefixNext lower upper link limit = .ok (b.take limit) := by
  have hstrict := table.linksIn_strict lower upper
  rw [h] at hstrict
  rw [linksNext_filter_eq, h, filter_gt_of_strict hstrict fun _ => decide_eq_true_iff]

/-- The previous-links query lists the links of the range before the one it is given, nearest first. -/
theorem linksPrev_eq {a b : List Bytes} (h : table.linksIn lower upper = a ++ link :: b) (limit : Nat) :
    table.repo.getDistinctLinksByPrefixPrev lower upper link limit = .ok (a.reverse.take limit) := by
  have hstrict := table.linksIn_strict lower upper
  rw [h] at hstrict
  rw [linksPrev_filter_eq, h, filter_lt_of_strict hstrict fun _ => decide_eq_true_iff]

end CaptureTable
end Webshot.Capture
