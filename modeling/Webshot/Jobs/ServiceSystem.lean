import Webshot.Capture.PersistOutcomes
import Webshot.Capture.PurgeFinality
import Webshot.Jobs.CrawlJobTask

/-! The service on its databases and its object store: tasks that crawl, store and mark their jobs, purges
of denied prefixes and the cleanup of old jobs. Their steps interleave, every operation may fail, and a
failed purge stops the process. -/
namespace Webshot.Jobs
open Text Storage Access Foundation.TransitionRuns
open Capture hiding Reply

/-- How `RunCrawlerForContext` ends. -/
inductive CrawlerOutcome where
  | captured
  | failed (e : CaptureError)
  | threw
  deriving DecidableEq

/-- Which operation of a `crawl_job` task comes next; an `absent` task has not been created. -/
inductive TaskPhase where
  | absent
  | markRunning
  | crawl
  | policyCheck
  | hashLookup
  | upload
  | insertRow
  | compensate
  | markSucceeded (stored : StoredCapture)
  | markFailed (e : CaptureError)
  | handleException
  | ended
  deriving DecidableEq

/-- How the operation a task stands before goes. -/
inductive TaskEvent where
  | marked (execution : Execution)
  | crawled (outcome : CrawlerOutcome)
  | policyAnswered (policy : PolicyRepo)
  | policyThrew
  | lookedUp (attempt : PgAttempt)
  | uploaded (attempt : S3Attempt)
  | inserted (attempt : PgAttempt)
  | compensated (attempt : S3Attempt)
  | caught (cancellation : Option Bytes) (execution : Execution)

/-- How the operation a purge stands before goes. -/
inductive PurgeEvent where
  | selected (attempt : PgAttempt)
  | objectDeleted (attempt : S3Attempt)
  | rowDeleted (attempt : PgAttempt)
  deriving DecidableEq

/-- A purge whose prefix is on the denylist. -/
structure Purge where
  prefixKey : Bytes
  phase : PurgePhase
  deriving DecidableEq

/-- What stays fixed during a run: the bucket, and what each job crawls if its crawl succeeds. -/
structure ServiceSetup where
  una : UniAlgo
  bucket : Bytes
  purgeDeleteBatchSize : Nat
  context : Uuid → CrawlContext
  context_id : ∀ id, (context id).id = id

structure ServiceState where
  stores : Stores
  jobs : List CrawlJobRow
  tasks : Uuid → TaskPhase
  purges : Nat → Option Purge

inductive ServiceAction where
  | create (id : Uuid) (now : TimePoint) (execution : Execution)
  | task (id : Uuid) (now : TimePoint) (event : TaskEvent)
  | denyPrefix (n : Nat) (prefixKey : Bytes)
  | purge (n : Nat) (event : PurgeEvent)
  | cleanup (cutoff : TimePoint) (execution : Execution)
  | stop

/-- `FindCapture`, as its callers show it. -/
def findCapture (stores : Stores) (uuid : Uuid) : Option UuidWithTimeLink :=
  (stores.captures.find? (·.id = uuid)).map fun row => ⟨uuid, row.createdAt, row.link⟩

/-- What an operation of a task leaves, and which operation comes next. -/
structure TaskProgress where
  stores : Stores
  jobs : List CrawlJobRow
  phase : TaskPhase

/-- A persist that returns nothing. -/
def TaskPhase.persistFailed : TaskPhase := .markFailed ⟨.persistMetadataFailed, none⟩

namespace ServiceState

/-- Empty tables, and no task or purge. -/
def initial : ServiceState where
  stores := ⟨[], List.nodup_nil, fun _ => none⟩
  jobs := []
  tasks _ := .absent
  purges _ := none

variable (s : ServiceState)

/-- The process ends and none of its tasks goes on. -/
def stopped : ServiceState :=
  { s with
    tasks := fun id => if s.tasks id = .absent then .absent else .ended
    purges := fun n => (s.purges n).map fun p => { p with phase := .finished } }

/-- After a write that marks the job. -/
def afterMark (write : List CrawlJobRow × Reply) (ok pgError exception : TaskPhase) : TaskProgress where
  stores := s.stores
  jobs := write.1
  phase :=
    match write.2 with
    | .ok => ok
    | .pgError => pgError
    | .exception => exception

/-- After an operation on the captures or their objects. -/
def afterOperation (operation : Stores × Capture.Reply) (ok error : TaskPhase) : TaskProgress where
  stores := operation.1
  jobs := s.jobs
  phase :=
    match operation.2 with
    | .ok => ok
    | .error => error
    | .exception => .handleException

def goTo (phase : TaskPhase) : TaskProgress := ⟨s.stores, s.jobs, phase⟩

def advance (id : Uuid) (progress : TaskProgress) : ServiceState :=
  { s with
    stores := progress.stores
    jobs := progress.jobs
    tasks := Function.update s.tasks id progress.phase }

/-- What a purge does after one of its operations; any but a success stops the process. -/
def purged (n : Nat) (prefixKey : Bytes) (operation : Stores × Capture.Reply) (ok : PurgePhase) :
    ServiceState :=
  match operation.2 with
  | .ok => { s with stores := operation.1, purges := Function.update s.purges n (some ⟨prefixKey, ok⟩) }
  | _ => { s with stores := operation.1 }.stopped

section Phases
variable {s : ServiceState} {P : TaskPhase → Prop} {ok error pgError exception : TaskPhase}

theorem afterMark_phase {write : List CrawlJobRow × Reply} (hok : P ok) (hpgError : P pgError)
    (hexception : P exception) : P (s.afterMark write ok pgError exception).phase := by
  unfold afterMark
  split
  · exact hok
  · exact hpgError
  · exact hexception

theorem afterOperation_phase {operation : Stores × Capture.Reply} (hok : operation.2 = .ok → P ok) (herror : P error)
    (hexception : P .handleException) : P (s.afterOperation operation ok error).phase := by
  unfold afterOperation
  split
  · exact hok ‹_›
  · exact herror
  · exact hexception

end Phases
end ServiceState

namespace ServiceSetup
variable (setup : ServiceSetup)

def linkKey (id : Uuid) : Bytes := (setup.context id).linkKey setup.una

def objectKey (id : Uuid) : Bytes := makeCaptureObjectKey setup.bucket id

def captureRow (id : Uuid) (now : TimePoint) : CaptureRow := (setup.context id).row setup.una now

/-- What the capture a task looked up makes of it: a capture of the link with the same content is used
in place of a new one. -/
def afterLookup (s : ServiceState) (id : Uuid) : TaskPhase :=
  match findCaptureByLinkHash s.stores.captures (setup.linkKey id) (setup.context id).contentSha256 with
  | some row => .markSucceeded ⟨row.uuid, row.createdAt⟩
  | none => .upload

/-- One operation of a task. -/
def taskStep (s : ServiceState) (id : Uuid) (now : TimePoint) : TaskPhase → TaskEvent → Option TaskProgress
  | .markRunning, .marked execution =>
    some (s.afterMark (markCrawlJobRunning execution now id s.jobs) .crawl .ended .handleException)
  | .crawl, .crawled outcome =>
    some (s.goTo
      (match outcome with
      | .captured => .policyCheck
      | .failed e => .markFailed e
      | .threw => .handleException))
  | .policyCheck, .policyThrew => some (s.goTo .handleException)
  | .policyCheck, .policyAnswered policy =>
    some (s.goTo
      (match policy.persistPolicy ((setup.context id).prefixKey setup.una) with
      | .passed => .hashLookup
      | _ => .persistFailed))
  | .hashLookup, .lookedUp attempt =>
    some (s.afterOperation (s.stores, attempt.catchPg) (setup.afterLookup s id) .persistFailed)
  | .upload, .uploaded attempt =>
    some (s.afterOperation (s.stores.putCaptureObject attempt (setup.objectKey id) (setup.context id).waczBytes)
      .insertRow .persistFailed)
  | .insertRow, .inserted attempt =>
    some (s.afterOperation (s.stores.insertCapture attempt (setup.captureRow id now)) (.markSucceeded ⟨id, now⟩)
      .compensate)
  | .compensate, .compensated attempt =>
    some (s.afterOperation (s.stores.deleteCaptureObject attempt (setup.objectKey id)) .persistFailed .persistFailed)
  | .markSucceeded stored, .marked execution =>
    some (s.afterMark (markCrawlJobSucceeded execution now id stored.id stored.createdAt s.jobs) .ended .ended
      .handleException)
  | .markFailed e, .marked execution =>
    some (s.afterMark (markCrawlJobFailed execution now id e.mark.1 e.mark.2 s.jobs) .ended .ended .handleException)
  | .handleException, .caught cancellation execution =>
    some (s.afterMark (markCrawlJobFailed execution now id (exceptionMark cancellation).1 (exceptionMark cancellation).2
      s.jobs) .ended .ended .ended)
  | _, _ => none

/-- What follows a selection. -/
def afterSelect (s : ServiceState) (prefixKey : Bytes) : PurgePhase :=
  match getCaptureIdsByPrefixTree s.stores.captures (makePrefixTree prefixKey) setup.purgeDeleteBatchSize with
  | [] => .finished
  | id :: batch => .deleteObject id batch

/-- One operation of a purge. -/
def purgeStep (s : ServiceState) (n : Nat) (prefixKey : Bytes) : PurgePhase → PurgeEvent → Option ServiceState
  | .selectBatch, .selected attempt =>
    some (s.purged n prefixKey (s.stores, attempt.catchPg) (setup.afterSelect s prefixKey))
  | .deleteObject id batch, .objectDeleted attempt =>
    some (s.purged n prefixKey (s.stores.deleteCaptureObject attempt (setup.objectKey id)) (.deleteRow id batch))
  | .deleteRow id batch, .rowDeleted attempt =>
    some (s.purged n prefixKey (s.stores.deleteCapturesByIds attempt [id]) (Setup.nextOfBatch batch))
  | _, _ => none

/-- One step of the service. Ids of jobs are never used twice. -/
def step (s : ServiceState) : ServiceAction → Option ServiceState
  | .create id now execution =>
    if s.tasks id = .absent then
      some (s.advance id (s.afterMark
        (performWrite execution s.jobs (insertCrawlJob s.jobs now id (setup.linkKey id)) true) .markRunning .ended
        .ended))
    else none
  | .task id now event => (setup.taskStep s id now (s.tasks id) event).map (s.advance id)
  | .denyPrefix n prefixKey =>
    match s.purges n with
    | none => some { s with purges := Function.update s.purges n (some ⟨prefixKey, .selectBatch⟩) }
    | some _ => none
  | .purge n event => (s.purges n).bind fun p => setup.purgeStep s n p.prefixKey p.phase event
  | .cleanup cutoff execution =>
    some { s with jobs := (performWrite execution s.jobs (some (deleteCrawlJobsExpired s.jobs cutoff)) true).1 }
  | .stop => some s.stopped

end ServiceSetup
end Webshot.Jobs
