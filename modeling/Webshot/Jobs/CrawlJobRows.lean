import Mathlib.Data.List.Basic
import Webshot.Storage.Values

/-! The `crawl_job` table: its check constraints, the statements that write it, and what the service
makes of a row. -/
namespace Webshot.Jobs
open Text Storage

/-- The columns of `crawl_job`. -/
structure CrawlJobRow where
  id : Uuid
  link : Bytes
  status : Bytes
  errorCategory : Option Bytes
  errorMessage : Option Bytes
  createdAt : TimePoint
  startedAt : Option TimePoint
  finishedAt : Option TimePoint
  resultCreatedAt : Option TimePoint
  resultCaptureId : Option Uuid
  deriving DecidableEq

inductive JobStatus where
  | pending
  | running
  | succeeded
  | failed
  deriving DecidableEq

inductive JobErrorKind where
  | sizeLimit
  | crawler
  | s3Upload
  | dbInsert
  | internalServer
  deriving DecidableEq

/-- The word the column holds. -/
def JobStatus.text : JobStatus → Bytes
  | .pending => ascii "pending"
  | .running => ascii "running"
  | .succeeded => ascii "succeeded"
  | .failed => ascii "failed"

def JobErrorKind.text : JobErrorKind → Bytes
  | .sizeLimit => ascii "size_limit"
  | .crawler => ascii "crawler_failed"
  | .s3Upload => ascii "s3_upload_failed"
  | .dbInsert => ascii "db_insert_failed"
  | .internalServer => ascii "internal_server_error"

/-- `none` is the failed invariant on an unexpected word. -/
def parseJobStatus (status : Bytes) : Option JobStatus :=
  if status = ascii "pending" then some .pending
  else if status = ascii "running" then some .running
  else if status = ascii "succeeded" then some .succeeded
  else if status = ascii "failed" then some .failed
  else none

/-- The outer `none` is the failed invariant, the inner one a row without a category. -/
def parseJobErrorKind : Option Bytes → Option (Option JobErrorKind)
  | none => some none
  | some category =>
    if category = ascii "size_limit" then some (some .sizeLimit)
    else if category = ascii "crawler_failed" then some (some .crawler)
    else if category = ascii "s3_upload_failed" then some (some .s3Upload)
    else if category = ascii "db_insert_failed" then some (some .dbInsert)
    else if category = ascii "internal_server_error" then some (some .internalServer)
    else none

def publicJobErrorMessage : Option JobErrorKind → Bytes
  | none => ascii "internal server error"
  | some .sizeLimit => ascii "capture exceeded archive size limit"
  | some .crawler => ascii "capture failed"
  | some .s3Upload | some .dbInsert | some .internalServer => ascii "internal server error"

/-- `dto::ErrorEnvelope`, of which only the message is ever set. -/
structure ErrorEnvelope where
  message : Bytes
  deriving DecidableEq

/-- `dto::CaptureJob`; its status enumeration has the same four members as `JobStatus`. -/
structure CaptureJob where
  uuid : Uuid
  link : Bytes
  status : JobStatus
  createdAt : TimePoint
  startedAt : Option TimePoint
  finishedAt : Option TimePoint
  resultCreatedAt : Option TimePoint
  result : Option UuidWithTimeLink
  error : Option ErrorEnvelope
  deriving DecidableEq

/-- The error of a failed job: a public text for its category, never the stored message. -/
def jobError (status : JobStatus) (row : CrawlJobRow) : Option (Option ErrorEnvelope) :=
  if status = .failed then
    (parseJobErrorKind row.errorCategory).map fun kind => some ⟨publicJobErrorMessage kind⟩
  else some none

/-- The result of a succeeded job; without a capture id the invariant fails. -/
def jobResult (status : JobStatus) (row : CrawlJobRow) : Option (Option UuidWithTimeLink) :=
  match status, row.resultCreatedAt with
  | .succeeded, some createdAt => row.resultCaptureId.map fun id => some ⟨id, createdAt, row.link⟩
  | _, _ => some none

/-- `none` is a failed invariant. -/
def makeCaptureJob (row : CrawlJobRow) : Option CaptureJob := do
  let status ← parseJobStatus row.status
  let error ← jobError status row
  let result ← jobResult status row
  return {
    uuid := row.id
    link := row.link
    status := status
    createdAt := row.createdAt
    startedAt := row.startedAt
    finishedAt := row.finishedAt
    resultCreatedAt := row.resultCreatedAt
    result := result
    error := error }

/-- The check constraints of the table. -/
def CrawlJobRow.satisfiesChecks (row : CrawlJobRow) : Bool :=
  [JobStatus.pending, JobStatus.running, JobStatus.succeeded, JobStatus.failed].any (·.text = row.status) &&
  row.errorCategory.all [JobErrorKind.sizeLimit.text, JobErrorKind.crawler.text, JobErrorKind.s3Upload.text,
    JobErrorKind.dbInsert.text, JobErrorKind.internalServer.text].contains &&
  (row.status ≠ JobStatus.succeeded.text || row.resultCreatedAt.isSome && row.resultCaptureId.isSome)

/-- The row of `insert into crawl_job (id, link, status) values ($1, $2, 'pending')`. -/
def newCrawlJob (now : TimePoint) (id : Uuid) (link : Bytes) : CrawlJobRow where
  id := id
  link := link
  status := ascii "pending"
  errorCategory := none
  errorMessage := none
  createdAt := now
  startedAt := none
  finishedAt := none
  resultCreatedAt := none
  resultCaptureId := none

/-- `none` if the id is taken. -/
def insertCrawlJob (rows : List CrawlJobRow) (now : TimePoint) (id : Uuid) (link : Bytes) : Option (List CrawlJobRow) :=
  if rows.any (·.id = id) then none else some (rows ++ [newCrawlJob now id link])

/-- An update statement: the rows it matches are replaced, unless a replacement violates a check. -/
def updateCrawlJobs (rows : List CrawlJobRow) (matching : CrawlJobRow → Bool) (set : CrawlJobRow → CrawlJobRow) :
    Option (List CrawlJobRow) :=
  if rows.all fun r => !matching r || (set r).satisfiesChecks then
    some (rows.map fun r => if matching r then set r else r)
  else none

/-- `where id = $1 and status in (…)`. -/
def CrawlJobRow.isIn (id : Uuid) (statuses : List Bytes) (row : CrawlJobRow) : Bool :=
  row.id = id && statuses.contains row.status

def CrawlJobRow.setRunning (now : TimePoint) (row : CrawlJobRow) : CrawlJobRow :=
  { row with
    status := ascii "running"
    startedAt := some now
    errorCategory := none
    errorMessage := none
    finishedAt := none
    resultCreatedAt := none }

def CrawlJobRow.setSucceeded (now : TimePoint) (createdAt : TimePoint) (captureId : Uuid) (row : CrawlJobRow) :
    CrawlJobRow :=
  { row with
    status := ascii "succeeded"
    finishedAt := some now
    errorCategory := none
    errorMessage := none
    resultCreatedAt := some createdAt
    resultCaptureId := some captureId }

def CrawlJobRow.setFailed (now : TimePoint) (errorCategory errorMessage : Bytes) (row : CrawlJobRow) : CrawlJobRow :=
  { row with
    status := ascii "failed"
    startedAt := some (row.startedAt.getD now)
    finishedAt := some now
    errorCategory := some errorCategory
    errorMessage := some errorMessage }

def updateCrawlJobRunning (rows : List CrawlJobRow) (now : TimePoint) (id : Uuid) : Option (List CrawlJobRow) :=
  updateCrawlJobs rows (·.isIn id [ascii "pending"]) (·.setRunning now)

def updateCrawlJobSucceeded (rows : List CrawlJobRow) (now : TimePoint) (id : Uuid) (createdAt : TimePoint)
    (captureId : Uuid) : Option (List CrawlJobRow) :=
  updateCrawlJobs rows (·.isIn id [ascii "running"]) (·.setSucceeded now createdAt captureId)

def updateCrawlJobFailed (rows : List CrawlJobRow) (now : TimePoint) (id : Uuid) (errorCategory errorMessage : Bytes) :
    Option (List CrawlJobRow) :=
  updateCrawlJobs rows (·.isIn id [ascii "pending", ascii "running"]) (·.setFailed now errorCategory errorMessage)

/-- `delete from crawl_job where created_at < $1`. -/
def deleteCrawlJobsExpired (rows : List CrawlJobRow) (cutoff : TimePoint) : List CrawlJobRow :=
  rows.filter fun r => ¬ r.createdAt < cutoff

theorem JobStatus.text_injective : Function.Injective JobStatus.text := by
  intro a b
  cases a <;> cases b <;> decide

theorem parseJobStatus_text (status : JobStatus) : parseJobStatus status.text = some status := by
  cases status <;> rfl

theorem parseJobErrorKind_text (kind : JobErrorKind) : parseJobErrorKind (some kind.text) = some (some kind) := by
  cases kind <;> rfl

/-- A stored category is one of the words `ParseJobErrorKind` knows. -/
theorem CrawlJobRow.parseJobErrorKind_of_checks {row : CrawlJobRow} (h : row.satisfiesChecks = true) :
    ∃ kind, parseJobErrorKind row.errorCategory = some kind := by
  simp only [satisfiesChecks, Bool.and_eq_true] at h
  cases hc : row.errorCategory with
  | none => exact ⟨none, rfl⟩
  | some category =>
    have hmem := h.1.2
    rw [hc, Option.all_some, List.contains_iff_mem] at hmem
    simp only [List.mem_cons, List.not_mem_nil, or_false] at hmem
    rcases hmem with rfl | rfl | rfl | rfl | rfl
    all_goals exact ⟨_, parseJobErrorKind_text _⟩

end Webshot.Jobs
