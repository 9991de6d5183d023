import Mathlib.Data.List.Nodup
import Webshot.Jobs.CrawlJobRows

/-! The detached `crawl_job` task of `MakeCaptureJob`: every way its database writes and the crawl can
go, and the row it leaves behind. -/
namespace Webshot.Jobs
open Text Storage

/-- How the driver carries a statement out. An error or another exception may come before or after
the statement took effect. -/
inductive Execution where
  | normal
  | pgError (applied : Bool)
  | exception (applied : Bool)
  deriving DecidableEq

/-- What the caller of a write sees; the texts of errors and exceptions only reach the log. -/
inductive Reply where
  | ok
  | pgError
  | exception
  deriving DecidableEq

/-- `pgx::Execute`: the statement, and whether its returned rows are what the caller reads. -/
def performWrite (execution : Execution) (rows : List CrawlJobRow) (updated : Option (List CrawlJobRow))
    (readable : Bool) : List CrawlJobRow × Reply :=
  match execution with
  | .normal =>
    match updated with
    | some rows' => (rows', if readable then .ok else .pgError)
    | none => (rows, .pgError)
  | .pgError applied => (if applied then updated.getD rows else rows, .pgError)
  | .exception applied => (if applied then updated.getD rows else rows, .exception)

/-- `AsSingleRow` on the rows an update returns. -/
def returnsSingleRow (rows : List CrawlJobRow) (matching : CrawlJobRow → Bool) : Bool :=
  (rows.filter matching).length = 1

def markCrawlJobRunning (execution : Execution) (now : TimePoint) (id : Uuid) (rows : List CrawlJobRow) :
    List CrawlJobRow × Reply :=
  performWrite execution rows (updateCrawlJobRunning rows now id) true

def markCrawlJobSucceeded (execution : Execution) (now : TimePoint) (id resultCaptureId : Uuid) (createdAt : TimePoint)
    (rows : List CrawlJobRow) : List CrawlJobRow × Reply :=
  performWrite execution rows (updateCrawlJobSucceeded rows now id createdAt resultCaptureId)
    (returnsSingleRow rows (·.isIn id [ascii "running"]))

def markCrawlJobFailed (execution : Execution) (now : TimePoint) (id : Uuid) (errorCategory errorMessage : Bytes)
    (rows : List CrawlJobRow) : List CrawlJobRow × Reply :=
  performWrite execution rows (updateCrawlJobFailed rows now id errorCategory errorMessage)
    (returnsSingleRow rows (·.isIn id [ascii "pending", ascii "running"]))

inductive CaptureErrorKind where
  | crawler
  | sizeLimit
  | persistMetadataFailed
  deriving DecidableEq

structure CaptureError where
  kind : CaptureErrorKind
  detail : Option Bytes
  deriving DecidableEq

/-- How `RunCrawlJob` ends: with what it returns, or with an exception. -/
inductive CrawlOutcome where
  | returned (result : Except CaptureError UuidWithTimeLink)
  | exception

/-- Everything outside the task's control: how each write is carried out and when, how the crawl
ends, and whether the task is cancelled, with which reason, when an exception is caught. -/
structure TaskEvents where
  runningMark : Execution
  runningAt : TimePoint
  crawl : CrawlOutcome
  terminalMark : Execution
  terminalAt : TimePoint
  cancellation : Option Bytes
  handlerMark : Execution
  handlerAt : TimePoint

/-- The table when the task has ended, and whether its last write of a terminal status failed. -/
structure TaskEnd where
  rows : List CrawlJobRow
  terminalMarkFailed : Bool

/-- The category and the message a returned error is stored under. -/
def CaptureError.mark (e : CaptureError) : Bytes × Bytes :=
  match e.kind, e.detail with
  | .sizeLimit, _ => (ascii "size_limit", ascii "capture exceeded archive size limit")
  | .persistMetadataFailed, _ => (ascii "internal_server_error", ascii "internal server error")
  | .crawler, some detail => (ascii "crawler_failed", detail)
  | .crawler, none => (ascii "crawler_failed", ascii "crawler error")

/-- The category and the message a caught exception is stored under. -/
def exceptionMark : Option Bytes → Bytes × Bytes
  | some reason => (ascii "crawler_failed", ascii "crawl job cancelled: " ++ reason)
  | none => (ascii "internal_server_error", ascii "internal server error")

namespace TaskEvents
variable (events : TaskEvents) (id : Uuid) (rows : List CrawlJobRow)

/-- The `catch` block; after a cancellation the exception goes on, and ends the task all the same. -/
def handleException : TaskEnd :=
  let mark := exceptionMark events.cancellation
  let marked := markCrawlJobFailed events.handlerMark events.handlerAt id mark.1 mark.2 rows
  ⟨marked.1, marked.2 ≠ .ok⟩

/-- The mark that follows what `RunCrawlJob` returned. -/
def markResult : Except CaptureError UuidWithTimeLink → List CrawlJobRow × Reply
  | .error e => markCrawlJobFailed events.terminalMark events.terminalAt id e.mark.1 e.mark.2 rows
  | .ok result => markCrawlJobSucceeded events.terminalMark events.terminalAt id result.uuid result.createdAt rows

/-- The `try` block after the job was marked running. -/
def afterRunning : TaskEnd :=
  match events.crawl with
  | .exception => events.handleException id rows
  | .returned result =>
    let marked := events.markResult id rows result
    match marked.2 with
    | .exception => events.handleException id marked.1
    | .ok => ⟨marked.1, false⟩
    | .pgError => ⟨marked.1, true⟩

def crawlJobTask : TaskEnd :=
  let running := markCrawlJobRunning events.runningMark events.runningAt id rows
  match running.2 with
  | .ok => events.afterRunning id running.1
  | .pgError => ⟨running.1, false⟩
  | .exception => events.handleException id running.1

end TaskEvents

def CrawlJobRow.Terminal (r : CrawlJobRow) : Prop := r.status = ascii "succeeded" ∨ r.status = ascii "failed"

/-- The table holds this one row for the job. -/
def IsJobRow (rows : List CrawlJobRow) (id : Uuid) (row : CrawlJobRow) : Prop :=
  row.id = id ∧ ∃ before after, rows = before ++ row :: after ∧ ∀ r ∈ before ++ after, r.id ≠ id

namespace IsJobRow
variable {rows : List CrawlJobRow} {id : Uuid} {row : CrawlJobRow} {words : List Bytes}
  {set : CrawlJobRow → CrawlJobRow}

theorem of_mem (hids : (rows.map CrawlJobRow.id).Nodup) (hrow : row ∈ rows) : IsJobRow rows row.id row := by
  obtain ⟨before, after, rfl⟩ := List.append_of_mem hrow
  refine ⟨rfl, before, after, rfl, fun r hr => ?_⟩
  rw [List.map_append, List.map_cons, List.nodup_middle] at hids
  intro he
  apply (List.nodup_cons.mp hids).1
  rw [← List.map_append, ← he]
  exact List.mem_map_of_mem hr

theorem mem (h : IsJobRow rows id row) : row ∈ rows := by
  obtain ⟨_, before, after, rfl, _⟩ := h
  exact List.mem_append_right _ List.mem_cons_self

theorem unique (h : IsJobRow rows id row) {r : CrawlJobRow} (hr : r ∈ rows) (hid : r.id = id) : r = row := by
  obtain ⟨_, before, after, rfl, hother⟩ := h
  rcases List.mem_append.mp hr with hr | hr
  · exact absurd hid (hother r (List.mem_append_left _ hr))
  · rcases List.mem_cons.mp hr with hr | hr
    · exact hr
    · exact absurd hid (hother r (List.mem_append_right _ hr))

private theorem isIn_false {r : CrawlJobRow} (hid : r.id ≠ id) : r.isIn id words = false := by
  simp [CrawlJobRow.isIn, hid]

/-- Rows the guard does not match stay as they are. -/
private theorem map_of_not_isIn {rest : List CrawlJobRow} (hrest : ∀ r ∈ rest, r.isIn id words = false) :
    rest.map (fun r => if r.isIn id words then set r else r) = rest := by
  refine (List.map_congr_left fun r hr => ?_).trans (List.map_id rest)
  rw [hrest r hr]
  rfl

private theorem filter_of_not_isIn {rest : List CrawlJobRow} (hrest : ∀ r ∈ rest, r.isIn id words = false) :
    rest.filter (·.isIn id words) = [] := by
  rw [List.filter_eq_nil_iff]
  intro r hr
  rw [hrest r hr]
  exact Bool.false_ne_true

/-- An update of this job whose guard the row passes replaces the row and returns it alone. -/
theorem update (h : IsJobRow rows id row) (set : CrawlJobRow → CrawlJobRow) (hin : row.isIn id words = true)
    (hset : (set row).id = row.id) (hchecks : (set row).satisfiesChecks = true) :
    (∃ rows', updateCrawlJobs rows (·.isIn id words) set = some rows' ∧ IsJobRow rows' id (set row)) ∧
      returnsSingleRow rows (·.isIn id words) = true := by
  obtain ⟨hid, before, after, rfl, hother⟩ := h
  have hbefore (r : CrawlJobRow) (hr : r ∈ before) : r.isIn id words = false :=
    isIn_false (hother r (List.mem_append_left _ hr))
  have hafter (r : CrawlJobRow) (hr : r ∈ after) : r.isIn id words = false :=
    isIn_false (hother r (List.mem_append_right _ hr))
  have hall : ((before ++ row :: after).all fun r => !r.isIn id words || (set r).satisfiesChecks) = true := by
    apply List.all_eq_true.mpr
    intro r hr
    rcases List.mem_append.mp hr with hr | hr
    · simp [hbefore r hr]
    · rcases List.mem_cons.mp hr with rfl | hr
      · simp [hchecks]
      · simp [hafter r hr]
  refine ⟨⟨before ++ set row :: after, ?_, hset.trans hid, before, after, rfl, hother⟩, ?_⟩
  · rw [updateCrawlJobs, if_pos hall, List.map_append, List.map_cons, if_pos hin, map_of_not_isIn hbefore,
      map_of_not_isIn hafter]
  · rw [returnsSingleRow, List.filter_append, List.filter_cons_of_pos hin, filter_of_not_isIn hbefore,
      filter_of_not_isIn hafter]
    rfl

/-- An update of this job whose guard the row does not pass changes nothing and returns nothing. -/
theorem update_none (h : IsJobRow rows id row) (set : CrawlJobRow → CrawlJobRow) (hin : row.isIn id words = false) :
    updateCrawlJobs rows (·.isIn id words) set = some rows ∧ returnsSingleRow rows (·.isIn id words) = false := by
  have hnone (r : CrawlJobRow) (hr : r ∈ rows) : r.isIn id words = false := by
    by_cases hid : r.id = id
    · rwa [h.unique hr hid]
    · exact isIn_false hid
  have hall : (rows.all fun r => !r.isIn id words || (set r).satisfiesChecks) = true := by
    apply List.all_eq_true.mpr
    intro r hr
    simp [hnone r hr]
  constructor
  · rw [updateCrawlJobs, if_pos hall, map_of_not_isIn hnone]
  · rw [returnsSingleRow, filter_of_not_isIn hnone]
    rfl

/-- A write that replaces the row by a terminal one, when its guard lets it: the job keeps one row,
and that row is terminal if the write reports no failure. -/
private theorem terminal_of_ok (h : IsJobRow rows id row) (execution : Execution) (hset : (set row).id = row.id)
    (hchecks : (set row).satisfiesChecks = true) (hterminal : (set row).Terminal) {rows' : List CrawlJobRow}
    {reply : Reply}
    (hwrite : performWrite execution rows (updateCrawlJobs rows (·.isIn id words) set)
      (returnsSingleRow rows (·.isIn id words)) = (rows', reply)) :
    ∃ row', IsJobRow rows' id row' ∧ (reply = .ok → row'.Terminal) := by
  cases hin : row.isIn id words with
  | true =>
    obtain ⟨⟨replaced, hupdate, hjob⟩, hsingle⟩ := h.update set hin hset hchecks
    rw [hupdate, hsingle] at hwrite
    cases execution with
    | normal =>
      cases hwrite
      exact ⟨set row, hjob, fun _ => hterminal⟩
    | pgError applied | exception applied =>
      cases applied with
      | false =>
        cases hwrite
        exact ⟨row, h, nofun⟩
      | true =>
        cases hwrite
        exact ⟨set row, hjob, nofun⟩
  | false =>
    obtain ⟨hupdate, hnone⟩ := h.update_none set hin
    rw [hupdate, hnone] at hwrite
    cases execution with
    | normal =>
      cases hwrite
      exact ⟨row, h, nofun⟩
    | pgError applied | exception applied =>
      cases applied <;> cases hwrite <;> exact ⟨row, h, nofun⟩

end IsJobRow

theorem CaptureError.mark_category (e : CaptureError) : ∃ kind : JobErrorKind, e.mark.1 = kind.text := by
  obtain ⟨kind, detail⟩ := e
  cases kind with
  | sizeLimit => exact ⟨.sizeLimit, rfl⟩
  | persistMetadataFailed => exact ⟨.internalServer, rfl⟩
  | crawler => cases detail <;> exact ⟨.crawler, rfl⟩

theorem exceptionMark_category (cancellation : Option Bytes) :
    ∃ kind : JobErrorKind, (exceptionMark cancellation).1 = kind.text := by
  cases cancellation with
  | none => exact ⟨.internalServer, rfl⟩
  | some reason => exact ⟨.crawler, rfl⟩

namespace IsJobRow
variable {rows rows' : List CrawlJobRow} {id : Uuid} {row : CrawlJobRow} {reply : Reply}

theorem markFailed (h : IsJobRow rows id row) (execution : Execution) (now : TimePoint) (kind : JobErrorKind)
    (errorMessage : Bytes) (hmark : markCrawlJobFailed execution now id kind.text errorMessage rows = (rows', reply)) :
    ∃ row', IsJobRow rows' id row' ∧ (reply = .ok → row'.Terminal) := by
  refine h.terminal_of_ok execution ?_ ?_ ?_ hmark
  · rfl
  · cases kind <;> rfl
  · exact Or.inr rfl

theorem markSucceeded (h : IsJobRow rows id row) (execution : Execution) (now : TimePoint) (captureId : Uuid)
    (createdAt : TimePoint) (hmark : markCrawlJobSucceeded execution now id captureId createdAt rows = (rows', reply)) :
    ∃ row', IsJobRow rows' id row' ∧ (reply = .ok → row'.Terminal) := by
  refine h.terminal_of_ok execution ?_ ?_ ?_ hmark
  · rfl
  · rfl
  · exact Or.inl rfl

/-- Marking a pending job running leaves it with a row that is not terminal, and what the caller
sees is up to the driver alone. -/
theorem markRunning (h : IsJobRow rows id row) (hpending : row.status = ascii "pending") (execution : Execution)
    (now : TimePoint) (hmark : markCrawlJobRunning execution now id rows = (rows', reply)) :
    (∃ row', IsJobRow rows' id row' ∧ ¬ row'.Terminal) ∧
      (reply = .pgError ↔ ∃ applied, execution = .pgError applied) := by
  have hin : row.isIn id [ascii "pending"] = true := by simp [CrawlJobRow.isIn, h.1, hpending]
  have hold : ¬ row.Terminal := by
    rw [CrawlJobRow.Terminal, hpending]
    decide
  have hnew : ¬ (row.setRunning now).Terminal := by
    simp only [CrawlJobRow.Terminal, CrawlJobRow.setRunning]
    decide
  obtain ⟨⟨replaced, hupdate, hjob⟩, _⟩ := h.update (·.setRunning now) hin rfl rfl
  rw [markCrawlJobRunning, updateCrawlJobRunning, hupdate] at hmark
  cases execution with
  | normal =>
    cases hmark
    exact ⟨⟨_, hjob, hnew⟩, by simp⟩
  | pgError applied =>
    cases applied with
    | false =>
      cases hmark
      exact ⟨⟨row, h, hold⟩, by simp⟩
    | true =>
      cases hmark
      exact ⟨⟨_, hjob, hnew⟩, by simp⟩
  | exception applied =>
    cases applied with
    | false =>
      cases hmark
      exact ⟨⟨row, h, hold⟩, by simp⟩
    | true =>
      cases hmark
      exact ⟨⟨_, hjob, hnew⟩, by simp⟩

end IsJobRow

/-- The job's row is terminal, unless the last write of a terminal status failed. -/
def TaskEnd.Settled (e : TaskEnd) (id : Uuid) : Prop :=
  (∃ r ∈ e.rows, r.id = id ∧ r.Terminal) ∨ e.terminalMarkFailed = true

namespace TaskEvents
variable (events : TaskEvents) {id : Uuid} {rows : List CrawlJobRow} {row : CrawlJobRow}

private theorem settled_of_reply {rows' : List CrawlJobRow} {reply : Reply} {row' : CrawlJobRow}
    (h : IsJobRow rows' id row') (hok : reply = .ok → row'.Terminal) : (TaskEnd.mk rows' (reply ≠ .ok)).Settled id := by
  by_cases hreply : reply = .ok
  · exact Or.inl ⟨row', h.mem, h.1, hok hreply⟩
  · exact Or.inr (decide_eq_true hreply)

theorem handleException_settled (h : IsJobRow rows id row) : (events.handleException id rows).Settled id := by
  obtain ⟨kind, hkind⟩ := exceptionMark_category events.cancellation
  obtain ⟨row', hrow', hok⟩ := h.markFailed events.handlerMark events.handlerAt kind
    (exceptionMark events.cancellation).2 (Prod.mk.eta).symm
  rw [← hkind] at hrow' hok
  exact settled_of_reply hrow' hok

theorem markResult_row (h : IsJobRow rows id row) (result : Except CaptureError UuidWithTimeLink) :
    ∃ row', IsJobRow (events.markResult id rows result).1 id row' ∧
      ((events.markResult id rows result).2 = .ok → row'.Terminal) := by
  cases result with
  | ok result =>
    exact h.markSucceeded events.terminalMark events.terminalAt result.uuid result.createdAt Prod.mk.eta.symm
  | error e =>
    obtain ⟨kind, hkind⟩ := e.mark_category
    simp only [markResult, hkind]
    exact h.markFailed events.terminalMark events.terminalAt kind e.mark.2 Prod.mk.eta.symm

theorem afterRunning_settled (h : IsJobRow rows id row) : (events.afterRunning id rows).Settled id := by
  unfold afterRunning
  split
  · exact events.handleException_settled h
  · rename_i result _
    obtain ⟨row', hrow', hok⟩ := events.markResult_row h result
    simp only
    split
    · exact events.handleException_settled hrow'
    · rename_i hreply
      exact Or.inl ⟨row', hrow'.mem, hrow'.1, hok hreply⟩
    · exact Or.inr rfl

/-- When the task has ended, the row of its job is succeeded or failed, or the write of the terminal
status failed, exactly when the write that marks the job running did not report a database error. -/
theorem crawlJobTask_settled_iff (hids : (rows.map CrawlJobRow.id).Nodup) (hrow : row ∈ rows)
    (hpending : row.status = ascii "pending") :
    (events.crawlJobTask row.id rows).Settled row.id ↔ ∀ applied, events.runningMark ≠ .pgError applied := by
  have hjob := IsJobRow.of_mem hids hrow
  obtain ⟨⟨row', hrow', hnot⟩, hreply⟩ := hjob.markRunning hpending events.runningMark events.runningAt Prod.mk.eta.symm
  unfold crawlJobTask
  simp only
  split
  · rename_i hok
    refine iff_of_true (events.afterRunning_settled hrow') fun applied he => ?_
    exact absurd (hok.symm.trans (hreply.mpr ⟨applied, he⟩)) (by decide)
  · rename_i hpg
    refine iff_of_false ?_ fun hnone => ?_
    · rintro (⟨r, hr, hid, hterminal⟩ | hfailed)
      · exact hnot (hrow'.unique hr hid ▸ hterminal)
      · cases hfailed
    · obtain ⟨applied, he⟩ := hreply.mp hpg
      exact hnone applied he
  · rename_i hex
    refine iff_of_true (events.handleException_settled hrow') fun applied he => ?_
    exact absurd (hex.symm.trans (hreply.mpr ⟨applied, he⟩)) (by decide)

/-- A job just inserted. -/
def stuckRow : CrawlJobRow := newCrawlJob 0 (smallUuid 1) (ascii "a.b/x")

/-- The crawl succeeds and all writes but the first go through. -/
def stuckEvents (runningMark : Execution) : TaskEvents where
  runningMark := runningMark
  runningAt := 1
  crawl := .returned (.ok ⟨stuckRow.id, 2, ascii "a.b/x"⟩)
  terminalMark := .normal
  terminalAt := 3
  cancellation := none
  handlerMark := .normal
  handlerAt := 3

theorem crawlJobTask_settled_small :
    ([stuckRow].map CrawlJobRow.id).Nodup ∧ stuckRow.status = ascii "pending" ∧
      ((stuckEvents .normal).crawlJobTask stuckRow.id [stuckRow]).Settled stuckRow.id := by
  have hids : ([stuckRow].map CrawlJobRow.id).Nodup := List.nodup_singleton _
  exact ⟨hids, rfl, ((stuckEvents .normal).crawlJobTask_settled_iff hids (List.mem_singleton_self _) rfl).mpr nofun⟩

/-- A failed first write leaves the row pending, with no write of a terminal status attempted. -/
theorem stuck_pending :
    ((stuckEvents (.pgError false)).crawlJobTask stuckRow.id [stuckRow]).rows = [stuckRow] ∧
      stuckRow.status = ascii "pending" ∧
      ¬ ((stuckEvents (.pgError false)).crawlJobTask stuckRow.id [stuckRow]).Settled stuckRow.id := by
  have hrows : ((stuckEvents (.pgError false)).crawlJobTask stuckRow.id [stuckRow]).rows = [stuckRow] := by
    rfl
  refine ⟨hrows, rfl, ?_⟩
  rintro (⟨r, hr, _, hterminal⟩ | hfailed)
  · rw [hrows, List.mem_singleton] at hr
    subst hr
    exact absurd hterminal (by simp only [CrawlJobRow.Terminal]; decide)
  · exact absurd hfailed (by decide)

end TaskEvents
end Webshot.Jobs
