import Webshot.Capture.RemoteStores

/-! `PersistMetadataForContext` under every outcome of its operations: which of them leave an object
without a row, or a row without its object. -/
namespace Webshot.Capture
open Text Storage Access

/-- How each operation of the call goes. -/
structure PersistEvents where
  policy : PolicyRepo
  policyThrew : Bool
  lookup : PgAttempt
  upload : S3Attempt
  insert : PgAttempt
  insertedAt : TimePoint
  compensation : S3Attempt

inductive PersistResult where
  | returned (stored : Option StoredCapture)
  | exception
  deriving DecidableEq

/-- What the call leaves, and how its compensating delete ended if there was one. -/
structure PersistEnd where
  stores : Stores
  compensated : Option Reply
  result : PersistResult

/-- The row the call inserts; `created_at` is the database's `now()`. -/
def CrawlContext.row (una : UniAlgo) (ctx : CrawlContext) (now : TimePoint) : CaptureRow where
  id := ctx.id
  createdAt := now
  link := ctx.linkKey una
  replayUrl := ctx.replayUrl
  prefixKey := ctx.prefixKey una
  prefixTree := ctx.prefixTree una
  contentSha256 := ctx.contentSha256

section Persist
variable (una : UniAlgo) (bucket : Bytes) (events : PersistEvents) (ctx : CrawlContext) (s : Stores)

/-- The insert and, if it returns an error, the compensating delete. -/
def insertOrCompensate : PersistEnd :=
  let inserted := s.insertCapture events.insert (ctx.row una events.insertedAt)
  match inserted.2 with
  | .ok => ⟨inserted.1, none, .returned (some ⟨ctx.id, events.insertedAt⟩)⟩
  | .exception => ⟨inserted.1, none, .exception⟩
  | .error =>
    let deleted := inserted.1.deleteCaptureObject events.compensation (makeCaptureObjectKey bucket ctx.id)
    match deleted.2 with
    | .exception => ⟨deleted.1, some .exception, .exception⟩
    | reply => ⟨deleted.1, some reply, .returned none⟩

def uploadAndInsert : PersistEnd :=
  let uploaded := s.putCaptureObject events.upload (makeCaptureObjectKey bucket ctx.id) ctx.waczBytes
  match uploaded.2 with
  | .ok => insertOrCompensate una bucket events ctx uploaded.1
  | .error => ⟨uploaded.1, none, .returned none⟩
  | .exception => ⟨uploaded.1, none, .exception⟩

/-- A capture of the link with the same content is used in place of a new one. -/
def lookupAndStore : PersistEnd :=
  match events.lookup.catchPg with
  | .error => ⟨s, none, .returned none⟩
  | .exception => ⟨s, none, .exception⟩
  | .ok =>
    match findCaptureByLinkHash s.captures (ctx.linkKey una) ctx.contentSha256 with
    | some row => ⟨s, none, .returned (some ⟨row.uuid, row.createdAt⟩)⟩
    | none => uploadAndInsert una bucket events ctx s

def persistMetadataForContext : PersistEnd :=
  if events.policyThrew then ⟨s, none, .exception⟩
  else
    match events.policy.persistPolicy (ctx.prefixKey una) with
    | .passed => lookupAndStore una bucket events ctx s
    | _ => ⟨s, none, .returned none⟩

end Persist

/-- Without a row no object is left, but for a compensating delete that failed; a row has its object. -/
def PersistEnd.Consistent (e : PersistEnd) (bucket : Bytes) (id : Uuid) : Prop :=
  (¬ e.stores.HasRow id → e.stores.objects (makeCaptureObjectKey bucket id) = none ∨
    ∃ reply, e.compensated = some reply ∧ reply ≠ .ok) ∧
  (e.stores.HasRow id → e.stores.objects (makeCaptureObjectKey bucket id) ≠ none)

namespace PersistEvents
variable (events : PersistEvents)

/-- The policy check passes and no capture with the content is found. -/
def ReachesUpload (una : UniAlgo) (ctx : CrawlContext) (s : Stores) : Prop :=
  events.policyThrew = false ∧ events.policy.persistPolicy (ctx.prefixKey una) = .passed ∧
    events.lookup = .completed ∧ findCaptureByLinkHash s.captures (ctx.linkKey una) ctx.contentSha256 = none

/-- The upload takes effect but fails, or the insert ends with an exception and without effect. -/
def OrphansObject : Prop :=
  (events.upload ≠ .completed ∧ events.upload.applied = true) ∨
    (events.upload = .completed ∧ events.insert = .threw false)

/-- The insert takes effect but reports an error, and the compensating delete takes effect. -/
def StrandsRow : Prop :=
  events.upload = .completed ∧ events.insert = .pgError true ∧ events.compensation.applied = true

end PersistEvents

section Outcomes
variable {una : UniAlgo} {bucket : Bytes} {events : PersistEvents} {ctx : CrawlContext} {s : Stores}

/-- A call that leaves neither a row nor an object is consistent. -/
theorem consistent_of_nothing {e : PersistEnd} {id : Uuid} (hrow : ¬ e.stores.HasRow id)
    (hobject : e.stores.objects (makeCaptureObjectKey bucket id) = none) : e.Consistent bucket id :=
  ⟨fun _ => Or.inl hobject, fun h => absurd h hrow⟩

/-- An insert that returns an error is followed by the compensating delete. -/
theorem insertOrCompensate_of_error (bucket : Bytes)
    (h : (s.insertCapture events.insert (ctx.row una events.insertedAt)).2 = .error) :
    (insertOrCompensate una bucket events ctx s).stores =
        ((s.insertCapture events.insert (ctx.row una events.insertedAt)).1.deleteCaptureObject events.compensation
          (makeCaptureObjectKey bucket ctx.id)).1 ∧
      (insertOrCompensate una bucket events ctx s).compensated = some events.compensation.runS3Operation := by
  simp only [insertOrCompensate, h, Stores.deleteCaptureObject]
  cases events.compensation.runS3Operation with
  | ok => exact ⟨rfl, rfl⟩
  | error => exact ⟨rfl, rfl⟩
  | exception => exact ⟨rfl, rfl⟩

/-- After an upload that completed, what the insert and the compensating delete leave. -/
theorem insertOrCompensate_consistent_iff (hrow : ¬ s.HasRow ctx.id)
    (hobject : s.objects (makeCaptureObjectKey bucket ctx.id) ≠ none) :
    (insertOrCompensate una bucket events ctx s).Consistent bucket ctx.id ↔
      ¬ (events.insert = .threw false ∨ (events.insert = .pgError true ∧ events.compensation.applied = true)) := by
  have hfresh : ¬ s.HasRow (ctx.row una events.insertedAt).id := hrow
  have hadded : (s.addRow (ctx.row una events.insertedAt)).HasRow ctx.id := Stores.addRow_hasRow _ _
  have hkept : (s.addRow (ctx.row una events.insertedAt)).objects = s.objects := Stores.addRow_objects _ _
  cases hinsert : events.insert with
  | completed =>
    have hend : (insertOrCompensate una bucket events ctx s).stores = s.addRow (ctx.row una events.insertedAt) := by
      simp [insertOrCompensate, Stores.insertCapture, hinsert, hfresh, PgAttempt.applied, PgAttempt.catchPg]
    simp [PersistEnd.Consistent, hend, hadded, hkept, hobject]
  | threw applied =>
    have hend : (insertOrCompensate una bucket events ctx s).stores =
        (if applied then s.addRow (ctx.row una events.insertedAt) else s) ∧
        (insertOrCompensate una bucket events ctx s).compensated = none := by
      simp [insertOrCompensate, Stores.insertCapture, hinsert, PgAttempt.applied, PgAttempt.catchPg]
    cases applied with
    | false => simp [PersistEnd.Consistent, hend, hrow, hobject]
    | true => simp [PersistEnd.Consistent, hend, hadded, hkept, hobject]
  | pgError applied =>
    have herror : (s.insertCapture events.insert (ctx.row una events.insertedAt)).2 = .error := by
      simp [Stores.insertCapture, hinsert, PgAttempt.catchPg]
    obtain ⟨hend, hcompensated⟩ := insertOrCompensate_of_error bucket herror
    have hstores : (s.insertCapture events.insert (ctx.row una events.insertedAt)).1 =
        if applied then s.addRow (ctx.row una events.insertedAt) else s := by
      simp [Stores.insertCapture, hinsert, PgAttempt.applied]
    rw [hstores, Stores.deleteCaptureObject] at hend
    cases applied with
    | true =>
      cases hdelete : events.compensation.applied with
      | true => simp [PersistEnd.Consistent, hend, hdelete, Stores.setObject_hasRow, Stores.setObject_objects, hadded]
      | false => simp [PersistEnd.Consistent, hend, hdelete, hadded, hkept, hobject]
    | false =>
      have hreply : events.compensation.applied = true ∨ events.compensation.runS3Operation ≠ .ok := by
        cases events.compensation with
        | completed => exact Or.inl rfl
        | threw _ cancelRequested =>
          cases cancelRequested with
          | true => exact Or.inr nofun
          | false => exact Or.inr nofun
      cases hdelete : events.compensation.applied with
      | true => simp [PersistEnd.Consistent, hend, hdelete, Stores.setObject_hasRow, Stores.setObject_objects, hrow]
      | false =>
        rw [hdelete] at hreply
        simpa [PersistEnd.Consistent, hend, hdelete, hrow, hcompensated, hobject] using hreply

/-- Of an object the call may have uploaded, what is left when it ends. -/
theorem uploadAndInsert_consistent_iff (hrow : ¬ s.HasRow ctx.id)
    (hobject : s.objects (makeCaptureObjectKey bucket ctx.id) = none) :
    (uploadAndInsert una bucket events ctx s).Consistent bucket ctx.id ↔
      ¬ (events.OrphansObject ∨ events.StrandsRow) := by
  cases hupload : events.upload with
  | completed =>
    have hend : uploadAndInsert una bucket events ctx s = insertOrCompensate una bucket events ctx
        (s.setObject (makeCaptureObjectKey bucket ctx.id) (some ctx.waczBytes)) := by
      simp [uploadAndInsert, Stores.putCaptureObject, hupload, S3Attempt.applied, S3Attempt.runS3Operation]
    have hrow' : ¬ (s.setObject (makeCaptureObjectKey bucket ctx.id) (some ctx.waczBytes)).HasRow ctx.id := hrow
    have hobject' : (s.setObject (makeCaptureObjectKey bucket ctx.id) (some ctx.waczBytes)).objects
        (makeCaptureObjectKey bucket ctx.id) ≠ none := by
      simp [Stores.setObject_objects]
    rw [hend, insertOrCompensate_consistent_iff hrow' hobject']
    simp [PersistEvents.OrphansObject, PersistEvents.StrandsRow, hupload]
  | threw applied cancelRequested =>
    have hend : (uploadAndInsert una bucket events ctx s).stores =
        (if applied then s.setObject (makeCaptureObjectKey bucket ctx.id) (some ctx.waczBytes) else s) ∧
        (uploadAndInsert una bucket events ctx s).compensated = none := by
      cases cancelRequested <;>
        simp [uploadAndInsert, Stores.putCaptureObject, hupload, S3Attempt.applied, S3Attempt.runS3Operation]
    cases applied with
    | true =>
      simp [PersistEnd.Consistent, hend, Stores.setObject_hasRow, Stores.setObject_objects, hrow,
        PersistEvents.OrphansObject, PersistEvents.StrandsRow, hupload, S3Attempt.applied]
    | false =>
      simp [PersistEnd.Consistent, hend, hrow, hobject, PersistEvents.OrphansObject, PersistEvents.StrandsRow, hupload,
        S3Attempt.applied]

/-- With a fresh id, the call leaves no object without a row and no row without its object exactly
when it does not come to an upload that fails after taking effect, an insert that ends with an
exception and without effect, or an insert whose error comes after it took effect and is followed
by a delete of the object. -/
theorem persist_consistent_iff (una : UniAlgo) (bucket : Bytes) (events : PersistEvents) (ctx : CrawlContext)
    (s : Stores)
    (hrow : ¬ s.HasRow ctx.id) (hobject : s.objects (makeCaptureObjectKey bucket ctx.id) = none) :
    (persistMetadataForContext una bucket events ctx s).Consistent bucket ctx.id ↔
      ¬ (events.ReachesUpload una ctx s ∧ (events.OrphansObject ∨ events.StrandsRow)) := by
  have hnothing : ∀ result, (PersistEnd.mk s none result).Consistent bucket ctx.id :=
    fun _ => consistent_of_nothing hrow hobject
  unfold persistMetadataForContext
  cases hthrew : events.policyThrew with
  | true => simp [PersistEvents.ReachesUpload, hthrew, hnothing]
  | false =>
    cases hpolicy : events.policy.persistPolicy (ctx.prefixKey una) with
    | denylistedDuringCrawl => simp [PersistEvents.ReachesUpload, hpolicy, hnothing]
    | checkFailed => simp [PersistEvents.ReachesUpload, hpolicy, hnothing]
    | passed =>
      simp only [lookupAndStore, Bool.false_eq_true, if_false]
      cases hlookup : events.lookup with
      | pgError _ => simp [PersistEvents.ReachesUpload, hlookup, PgAttempt.catchPg, hnothing]
      | threw _ => simp [PersistEvents.ReachesUpload, hlookup, PgAttempt.catchPg, hnothing]
      | completed =>
        cases hfind : findCaptureByLinkHash s.captures (ctx.linkKey una) ctx.contentSha256 with
        | some row => simp [PersistEvents.ReachesUpload, hfind, PgAttempt.catchPg, hnothing]
        | none =>
          simp only [PgAttempt.catchPg]
          rw [uploadAndInsert_consistent_iff hrow hobject]
          simp [PersistEvents.ReachesUpload, hthrew, hpolicy, hlookup, hfind]

end Outcomes

/-- Nothing is stored yet. -/
def Stores.empty : Stores := ⟨[], List.nodup_nil, fun _ => none⟩

/-- The policy and the lookup let the sample capture through; its upload, insert and delete go as given. -/
def sampleEvents (upload : S3Attempt) (insert : PgAttempt) (compensation : S3Attempt) : PersistEvents where
  policy := (PolicyTables.mk [] []).repo
  policyThrew := false
  lookup := .completed
  upload := upload
  insert := insert
  insertedAt := 1000
  compensation := compensation

def sampleContext : CrawlContext := sampleSetup.context (smallUuid 1)

/-- The insert fails without effect, and the object it was for is deleted again. -/
theorem persist_consistent_small :
    (persistMetadataForContext asciiUna (ascii "captures")
      (sampleEvents .completed (.pgError false) .completed) sampleContext .empty).Consistent (ascii "captures")
        sampleContext.id := by
  refine (persist_consistent_iff asciiUna (ascii "captures") _ sampleContext .empty ?_ rfl).mpr ?_
  · rintro ⟨r, hr, _⟩
    cases hr
  · rintro ⟨_, (⟨h, _⟩ | ⟨_, h⟩) | ⟨_, h, _⟩⟩
    · exact h rfl
    · cases h
    · cases h

/-- The upload times out after it took effect: its object stays, without a row. Or the insert does:
its row stays, and the object is deleted. -/
theorem persist_leaves_orphan_or_dangling :
    ¬ ((persistMetadataForContext asciiUna (ascii "captures")
        (sampleEvents (.threw true false) .completed .completed) sampleContext .empty).Consistent (ascii "captures")
          sampleContext.id) ∧
      ¬ ((persistMetadataForContext asciiUna (ascii "captures")
        (sampleEvents .completed (.pgError true) .completed) sampleContext .empty).Consistent (ascii "captures")
          sampleContext.id) := by
  constructor
  · intro h
    rcases h.1 (by decide) with hnone | ⟨reply, hreply, _⟩
    · exact absurd hnone (by decide)
    · exact absurd hreply nofun
  · intro h
    exact h.2 (by decide) rfl

end Webshot.Capture
