import Mathlib.Data.List.Nodup
import Mathlib.Logic.Relation
import Webshot.Foundation.TransitionRuns
import Webshot.Jobs.CrawlJobRows

/-! The life of a `crawl_job` row under any sequence of the statements that write the table. -/
namespace Webshot.Jobs
open Text Storage Foundation.TransitionRuns

inductive Statement where
  | insert (id : Uuid) (link : Bytes)
  | markRunning (id : Uuid)
  | markSucceeded (id : Uuid) (createdAt : TimePoint) (captureId : Uuid)
  | markFailed (id : Uuid) (errorCategory errorMessage : Bytes)
  | deleteExpired (cutoff : TimePoint)
  deriving DecidableEq

/-- What a statement executed at the given `now()` makes of the table; `none` is an error. -/
def Statement.execute (rows : List CrawlJobRow) (now : TimePoint) : Statement → Option (List CrawlJobRow)
  | .insert id link => insertCrawlJob rows now id link
  | .markRunning id => updateCrawlJobRunning rows now id
  | .markSucceeded id createdAt captureId => updateCrawlJobSucceeded rows now id createdAt captureId
  | .markFailed id errorCategory errorMessage => updateCrawlJobFailed rows now id errorCategory errorMessage
  | .deleteExpired cutoff => some (deleteCrawlJobsExpired rows cutoff)

/-- The table and the last time the database clock was read. -/
structure JobStore where
  rows : List CrawlJobRow
  clock : TimePoint

/-- One statement at a time that is not before the last one; an error leaves the table alone. -/
def JobStore.step (store : JobStore) (a : TimePoint × Statement) : Option JobStore :=
  if store.clock ≤ a.1 then some ⟨(a.2.execute store.rows a.1).getD store.rows, a.1⟩ else none

/-- The moves a status can make. -/
inductive JobStatus.Moves : JobStatus → JobStatus → Prop where
  | start : Moves .pending .running
  | succeed : Moves .running .succeeded
  | fail : Moves .running .failed
  | reject : Moves .pending .failed

namespace CrawlJobRow

/-- Both times are set, in order. -/
def Timed (r : CrawlJobRow) : Prop := ∃ a b, r.startedAt = some a ∧ r.finishedAt = some b ∧ a ≤ b

/-- Which columns a row of the given status has set. -/
def Shape (r : CrawlJobRow) : JobStatus → Prop
  | .pending => r.startedAt = none ∧ r.finishedAt = none ∧ r.resultCreatedAt = none ∧ r.resultCaptureId = none ∧
      r.errorCategory = none ∧ r.errorMessage = none
  | .running => r.startedAt.isSome = true ∧ r.finishedAt = none ∧ r.resultCreatedAt = none ∧ r.resultCaptureId = none ∧
      r.errorCategory = none ∧ r.errorMessage = none
  | .succeeded => r.Timed ∧ r.resultCreatedAt.isSome = true ∧ r.resultCaptureId.isSome = true ∧ r.errorCategory = none
  | .failed => r.Timed ∧ r.errorCategory.isSome = true ∧ r.resultCreatedAt = none ∧ r.resultCaptureId = none

/-- A row as the statements leave it at the given time. -/
structure Sound (clock : TimePoint) (r : CrawlJobRow) (status : JobStatus) : Prop where
  status_eq : r.status = status.text
  shape : r.Shape status
  started : ∀ t ∈ r.startedAt, t ≤ clock
  checks : r.satisfiesChecks = true

namespace Sound
variable {clock now : TimePoint} {r : CrawlJobRow} {status : JobStatus}

theorem later (h : r.Sound clock status) (hle : clock ≤ now) : r.Sound now status :=
  ⟨h.status_eq, h.shape, fun t ht => (h.started t ht).trans hle, h.checks⟩

private theorem status_of_isIn (h : r.Sound clock status) {id : Uuid} {words : List Bytes}
    (hin : r.isIn id words = true) :
    r.id = id ∧ status.text ∈ words := by
  simp only [isIn, Bool.and_eq_true, decide_eq_true_eq, List.contains_iff_mem, h.status_eq] at hin
  exact hin

theorem setRunning (h : r.Sound clock status) {id : Uuid} (hin : r.isIn id [ascii "pending"] = true)
    (hchecks : (r.setRunning now).satisfiesChecks = true) :
    status = .pending ∧ (r.setRunning now).Sound now .running := by
  have hstatus : status = .pending := JobStatus.text_injective (List.mem_singleton.mp (h.status_of_isIn hin).2)
  subst hstatus
  obtain ⟨_, _, _, hcapture, _, _⟩ := h.shape
  refine ⟨rfl, rfl, ⟨rfl, rfl, rfl, hcapture, rfl, rfl⟩, fun t ht => ?_, hchecks⟩
  exact (Option.some.inj ht).ge

theorem setSucceeded (h : r.Sound clock status) (hle : clock ≤ now) {id captureId : Uuid} {createdAt : TimePoint}
    (hin : r.isIn id [ascii "running"] = true)
    (hchecks : (r.setSucceeded now createdAt captureId).satisfiesChecks = true) :
    status = .running ∧ (r.setSucceeded now createdAt captureId).Sound now .succeeded := by
  have hstatus : status = .running := JobStatus.text_injective (List.mem_singleton.mp (h.status_of_isIn hin).2)
  subst hstatus
  obtain ⟨hstarted, _⟩ := h.shape
  obtain ⟨a, ha⟩ := Option.isSome_iff_exists.mp hstarted
  have hle' : a ≤ now := (h.started a ha).trans hle
  exact ⟨rfl, rfl, ⟨⟨a, now, ha, rfl, hle'⟩, rfl, rfl, rfl⟩, fun t ht => (h.started t ht).trans hle, hchecks⟩

theorem setFailed (h : r.Sound clock status) (hle : clock ≤ now) {id : Uuid} {errorCategory errorMessage : Bytes}
    (hin : r.isIn id [ascii "pending", ascii "running"] = true)
    (hchecks : (r.setFailed now errorCategory errorMessage).satisfiesChecks = true) :
    (status = .pending ∨ status = .running) ∧ (r.setFailed now errorCategory errorMessage).Sound now .failed := by
  have hstatus : status = .pending ∨ status = .running := by
    have hmem := (h.status_of_isIn hin).2
    simp only [List.mem_cons, List.not_mem_nil, or_false] at hmem
    exact hmem.imp (fun h0 => JobStatus.text_injective h0) fun h0 => JobStatus.text_injective h0
  have hresult : r.resultCreatedAt = none ∧ r.resultCaptureId = none := by
    rcases hstatus with rfl | rfl
    · exact ⟨h.shape.2.2.1, h.shape.2.2.2.1⟩
    · exact ⟨h.shape.2.2.1, h.shape.2.2.2.1⟩
  have hstart : r.startedAt.getD now ≤ now := by
    cases ha : r.startedAt with
    | none => exact le_refl now
    | some a => exact (h.started a ha).trans hle
  refine ⟨hstatus, rfl, ⟨⟨_, now, rfl, rfl, hstart⟩, rfl, hresult.1, hresult.2⟩, fun t ht => ?_, hchecks⟩
  rw [← Option.some.inj ht]
  exact hstart

private theorem jobError_eq (h : r.Sound clock status) :
    ∃ error, jobError status r = some error ∧ (error.isSome = true ↔ status = .failed) := by
  obtain ⟨kind, hkind⟩ := CrawlJobRow.parseJobErrorKind_of_checks h.checks
  cases status with
  | failed => exact ⟨some ⟨publicJobErrorMessage kind⟩, by simp [jobError, hkind], by simp⟩
  | pending | running | succeeded => exact ⟨none, rfl, by simp⟩

private theorem jobResult_eq (h : r.Sound clock status) :
    ∃ result, jobResult status r = some result ∧ (result.isSome = true ↔ status = .succeeded) := by
  cases status with
  | succeeded =>
    obtain ⟨createdAt, hcreated⟩ := Option.isSome_iff_exists.mp h.shape.2.1
    obtain ⟨captureId, hcapture⟩ := Option.isSome_iff_exists.mp h.shape.2.2.1
    exact ⟨some ⟨captureId, createdAt, r.link⟩, by simp [jobResult, hcreated, hcapture], by simp⟩
  | pending | running | failed => exact ⟨none, rfl, by simp⟩

/-- The conversion of a sound row meets no failed invariant. -/
theorem makeCaptureJob_eq (h : r.Sound clock status) :
    ∃ job, makeCaptureJob r = some job ∧ (job.result.isSome = true ↔ status = .succeeded) ∧
      (job.error.isSome = true ↔ status = .failed) := by
  obtain ⟨error, herror, herr⟩ := h.jobError_eq
  obtain ⟨result, hresult, hres⟩ := h.jobResult_eq
  have hstatus : parseJobStatus r.status = some status := by
    rw [h.status_eq]
    exact parseJobStatus_text status
  refine ⟨⟨r.id, r.link, status, r.createdAt, r.startedAt, r.finishedAt, r.resultCreatedAt, result, error⟩, ?_, hres,
    herr⟩
  simp only [makeCaptureJob, hstatus, herror, hresult, Option.bind_eq_bind, Option.bind_some]
  rfl

end Sound
end CrawlJobRow

/-- A row after an update is a replaced one that passes the checks, or an old one. -/
theorem mem_updateCrawlJobs {rows rows' : List CrawlJobRow} {matching : CrawlJobRow → Bool}
    {set : CrawlJobRow → CrawlJobRow} (h : updateCrawlJobs rows matching set = some rows') {r' : CrawlJobRow}
    (hr' : r' ∈ rows') :
    ∃ r ∈ rows, r' = r ∨ matching r = true ∧ r' = set r ∧ (set r).satisfiesChecks = true := by
  unfold updateCrawlJobs at h
  split at h
  · rename_i hall
    cases h
    obtain ⟨r, hr, rfl⟩ := List.mem_map.mp hr'
    refine ⟨r, hr, ?_⟩
    cases hm : matching r with
    | false => exact Or.inl (by simp)
    | true =>
      have hchecks := List.all_eq_true.mp hall r hr
      rw [hm] at hchecks
      exact Or.inr ⟨rfl, by simp, hchecks⟩
  · cases h

theorem map_id_updateCrawlJobs {rows rows' : List CrawlJobRow} {matching : CrawlJobRow → Bool}
    {set : CrawlJobRow → CrawlJobRow} (hid : ∀ r, (set r).id = r.id)
    (h : updateCrawlJobs rows matching set = some rows') : rows'.map CrawlJobRow.id = rows.map CrawlJobRow.id := by
  unfold updateCrawlJobs at h
  split at h
  · cases h
    rw [List.map_map]
    apply List.map_congr_left
    intro r _
    simp only [Function.comp_apply]
    split
    · exact hid r
    · rfl
  · cases h

namespace JobStore

structure Sound (store : JobStore) : Prop where
  ids_nodup : (store.rows.map CrawlJobRow.id).Nodup
  rows : ∀ r ∈ store.rows, ∃ status, r.Sound store.clock status

/-- How a row of the table after a step came about. -/
def Follows (store : JobStore) (now : TimePoint) (r' : CrawlJobRow) : Prop :=
  (∃ r ∈ store.rows, r.id = r'.id ∧ ∃ status status', r.Sound store.clock status ∧ r'.Sound now status' ∧
      (status' = status ∨ status.Moves status')) ∨
    (∀ r ∈ store.rows, r.id ≠ r'.id) ∧ r'.Sound now .pending

variable {store store' : JobStore} {now : TimePoint} {statement : Statement} {rows' : List CrawlJobRow}
  {r r' : CrawlJobRow}

/-- A row the statement leaves alone. -/
private theorem Sound.follows_self (h : store.Sound) (hle : store.clock ≤ now) (hr : r ∈ store.rows) :
    store.Follows now r := by
  obtain ⟨status, hstatus⟩ := h.rows r hr
  exact Or.inl ⟨r, hr, rfl, status, status, hstatus, hstatus.later hle, Or.inl rfl⟩

private theorem Sound.follows_insert (h : store.Sound) (hle : store.clock ≤ now) {id : Uuid} {link : Bytes}
    (hexec : insertCrawlJob store.rows now id link = some rows') (hr' : r' ∈ rows') : store.Follows now r' := by
  unfold insertCrawlJob at hexec
  split at hexec
  · cases hexec
  · rename_i hnew
    cases hexec
    rcases List.mem_append.mp hr' with hr | hr
    · exact h.follows_self hle hr
    · rw [List.mem_singleton.mp hr]
      refine Or.inr ⟨fun r hr he => hnew (List.any_eq_true.mpr ⟨r, hr, decide_eq_true he⟩), rfl, ?_, ?_, ?_⟩
      · exact ⟨rfl, rfl, rfl, rfl, rfl, rfl⟩
      · exact fun t ht => nomatch ht
      · rfl

theorem Sound.follows (h : store.Sound) (hle : store.clock ≤ now)
    (hexec : statement.execute store.rows now = some rows') (hr' : r' ∈ rows') : store.Follows now r' := by
  cases statement with
  | insert id link => exact h.follows_insert hle hexec hr'
  | markRunning id =>
    obtain ⟨r, hr, rfl | ⟨hin, rfl, hchecks⟩⟩ := mem_updateCrawlJobs hexec hr'
    · exact h.follows_self hle hr
    · obtain ⟨status, hstatus⟩ := h.rows r hr
      obtain ⟨rfl, hset⟩ := hstatus.setRunning hin hchecks
      exact Or.inl ⟨r, hr, rfl, _, _, hstatus, hset, Or.inr .start⟩
  | markSucceeded id createdAt captureId =>
    obtain ⟨r, hr, rfl | ⟨hin, rfl, hchecks⟩⟩ := mem_updateCrawlJobs hexec hr'
    · exact h.follows_self hle hr
    · obtain ⟨status, hstatus⟩ := h.rows r hr
      obtain ⟨rfl, hset⟩ := hstatus.setSucceeded hle hin hchecks
      exact Or.inl ⟨r, hr, rfl, _, _, hstatus, hset, Or.inr .succeed⟩
  | markFailed id errorCategory errorMessage =>
    obtain ⟨r, hr, rfl | ⟨hin, rfl, hchecks⟩⟩ := mem_updateCrawlJobs hexec hr'
    · exact h.follows_self hle hr
    · obtain ⟨status, hstatus⟩ := h.rows r hr
      obtain ⟨hold, hset⟩ := hstatus.setFailed hle hin hchecks
      refine Or.inl ⟨r, hr, rfl, _, _, hstatus, hset, Or.inr ?_⟩
      rcases hold with rfl | rfl
      · exact .reject
      · exact .fail
  | deleteExpired cutoff =>
    cases hexec
    exact h.follows_self hle (List.mem_of_mem_filter hr')

private theorem ids_nodup_of_execute (h : (store.rows.map CrawlJobRow.id).Nodup)
    (hexec : statement.execute store.rows now = some rows') : (rows'.map CrawlJobRow.id).Nodup := by
  cases statement with
  | insert id link =>
    simp only [Statement.execute, insertCrawlJob] at hexec
    split at hexec
    · cases hexec
    · rename_i hnew
      cases hexec
      rw [List.map_append]
      refine List.nodup_append.mpr ⟨h, List.pairwise_singleton _ _, ?_⟩
      intro i hi j hj he
      obtain ⟨r, hr, rfl⟩ := List.mem_map.mp hi
      exact hnew (List.any_eq_true.mpr ⟨r, hr, decide_eq_true (he.trans (List.mem_singleton.mp hj))⟩)
  | markRunning id | markSucceeded id createdAt captureId | markFailed id errorCategory errorMessage =>
    have hids := map_id_updateCrawlJobs (by exact fun _ => rfl) hexec
    rwa [hids]
  | deleteExpired cutoff =>
    cases hexec
    exact h.sublist (List.filter_sublist.map _)

/-- What one step does to a sound table: every row follows from the table before. -/
theorem Sound.step_follows (h : store.Sound) {a : TimePoint × Statement} (hstep : store.step a = some store') :
    store'.Sound ∧ store'.clock = a.1 ∧ ∀ r' ∈ store'.rows, store.Follows store'.clock r' := by
  unfold step at hstep
  split at hstep
  · rename_i hle
    cases hstep
    cases hexec : a.2.execute store.rows a.1 with
    | none =>
      have hself (r : CrawlJobRow) (hr : r ∈ store.rows) : store.Follows a.1 r := h.follows_self hle hr
      refine ⟨⟨h.ids_nodup, fun r hr => ?_⟩, rfl, hself⟩
      obtain ⟨status, hstatus⟩ := h.rows r hr
      exact ⟨status, hstatus.later hle⟩
    | some rows' =>
      have hfollows (r' : CrawlJobRow) (hr' : r' ∈ rows') : store.Follows a.1 r' := h.follows hle hexec hr'
      refine ⟨⟨ids_nodup_of_execute h.ids_nodup hexec, fun r' hr' => ?_⟩, rfl, hfollows⟩
      rcases hfollows r' hr' with ⟨_, _, _, _, status', _, hsound, _⟩ | ⟨_, hsound⟩
      · exact ⟨status', hsound⟩
      · exact ⟨_, hsound⟩
  · cases hstep

theorem Sound.of_run {clock : TimePoint} {actions : List (TimePoint × Statement)}
    (hrun : Run step always ⟨[], clock⟩ actions store) : store.Sound := by
  refine hrun.invariant Sound ⟨List.nodup_nil, fun r hr => nomatch hr⟩ ?_
  exact fun _ _ _ _ hstep h => (h.step_follows hstep).1

/-- The row with the given id is there before each step. -/
def Keeps (id : Uuid) (store : JobStore) (_ : TimePoint × Statement) : Prop := ∃ r ∈ store.rows, r.id = id

private theorem exists_kept {id : Uuid} {actions : List (TimePoint × Statement)}
    (hrun : Run step (Keeps id) store actions store') (hr' : r' ∈ store'.rows) (hrid' : r'.id = id) :
    ∃ r ∈ store.rows, r.id = id := by
  cases hrun with
  | nil => exact ⟨r', hr', hrid'⟩
  | cons hkeep _ _ => exact hkeep

/-- As long as a row is kept its status only moves on. -/
theorem Sound.status_moves {id : Uuid} {actions : List (TimePoint × Statement)} (h : store.Sound)
    (hrun : Run step (Keeps id) store actions store') {status : JobStatus} (hr : r ∈ store.rows)
    (hrid : r.id = id) (hstatus : r.status = status.text) (hr' : r' ∈ store'.rows) (hrid' : r'.id = id) :
    ∃ status', r'.status = status'.text ∧ Relation.ReflTransGen JobStatus.Moves status status' := by
  induction hrun generalizing r status with
  | nil store =>
    have heq : r = r' := List.inj_on_of_nodup_map h.ids_nodup hr hr' (hrid.trans hrid'.symm)
    exact ⟨status, heq ▸ hstatus, .refl⟩
  | cons hkeep hstep hrest ih =>
    obtain ⟨hsound, _, hfollows⟩ := h.step_follows hstep
    obtain ⟨m, hm, hmid⟩ := exists_kept hrest hr' hrid'
    rcases hfollows m hm with ⟨r₂, hr₂, hid, status₂, status', hold, hnew, hmove⟩ | ⟨hfresh, _⟩
    · have heq : r₂ = r := List.inj_on_of_nodup_map h.ids_nodup hr₂ hr ((hid.trans hmid).trans hrid.symm)
      subst heq
      have hsame : status₂ = status := JobStatus.text_injective (hold.status_eq.symm.trans hstatus)
      subst hsame
      obtain ⟨last, hlast, hmoves⟩ := ih hsound hm hmid hnew.status_eq hr'
      refine ⟨last, hlast, ?_⟩
      rcases hmove with rfl | hmove
      · exact hmoves
      · exact .head hmove hmoves
    · exact absurd (hrid.trans hmid.symm) (hfresh r hr)

end JobStore

/-- Every row any sequence of statements can lead to has the columns of its status, is converted
without a failed invariant, with a result exactly when succeeded and an error exactly when failed,
whatever message it stores; and its status makes none but the listed moves. -/
theorem crawl_job_state_machine {clock : TimePoint} {actions : List (TimePoint × Statement)} {store : JobStore}
    (hrun : Run JobStore.step always ⟨[], clock⟩ actions store) :
    (∀ r ∈ store.rows, ∃ status job, r.status = status.text ∧ r.Shape status ∧
      (∀ message, makeCaptureJob { r with errorMessage := message } = some job) ∧
      (job.result.isSome = true ↔ status = .succeeded) ∧ (job.error.isSome = true ↔ status = .failed)) ∧
    (∀ a store', store.step a = some store' → ∀ r' ∈ store'.rows,
      (∃ r ∈ store.rows, r.id = r'.id ∧ ∃ status status' : JobStatus, r.status = status.text ∧ r'.status = status'.text ∧
        (status' = status ∨ status.Moves status')) ∨
      (∀ r ∈ store.rows, r.id ≠ r'.id) ∧ r'.status = JobStatus.pending.text) ∧
    (∀ r ∈ store.rows, ∀ later store', Run JobStore.step (JobStore.Keeps r.id) store later store' →
      ∀ r' ∈ store'.rows, r'.id = r.id → ∃ status status' : JobStatus, r.status = status.text ∧ r'.status = status'.text ∧
        Relation.ReflTransGen JobStatus.Moves status status') := by
  have hsound := JobStore.Sound.of_run hrun
  refine ⟨fun r hr => ?_, fun a store' hstep r' hr' => ?_, fun r hr later store' hlater r' hr' hid => ?_⟩
  · obtain ⟨status, hstatus⟩ := hsound.rows r hr
    obtain ⟨job, hjob, hresult, herror⟩ := hstatus.makeCaptureJob_eq
    exact ⟨status, job, hstatus.status_eq, hstatus.shape, fun _ => hjob, hresult, herror⟩
  · rcases (hsound.step_follows hstep).2.2 r' hr' with ⟨r, hr, hid, status, status', hold, hnew, hmove⟩ | ⟨hfresh, hnew⟩
    · exact Or.inl ⟨r, hr, hid, status, status', hold.status_eq, hnew.status_eq, hmove⟩
    · exact Or.inr ⟨hfresh, hnew.status_eq⟩
  · obtain ⟨status, hstatus⟩ := hsound.rows r hr
    obtain ⟨status', hstatus', hmoves⟩ := hsound.status_moves hlater hr rfl hstatus.status_eq hr' hid
    exact ⟨status, status', hstatus.status_eq, hstatus', hmoves⟩

/-- One job succeeds and another fails before it starts. -/
theorem crawl_job_state_machine_small :
    ∃ actions store, Run JobStore.step always ⟨[], 0⟩ actions store ∧
      store.rows.map CrawlJobRow.status = [ascii "succeeded", ascii "failed"] ∧
      ∀ r ∈ store.rows, ∃ job, makeCaptureJob r = some job := by
  have hexec : (execute JobStore.step ⟨[], 0⟩
      [(1, .insert (smallUuid 1) (ascii "a.b/x")), (2, .markRunning (smallUuid 1)),
        (3, .insert (smallUuid 2) (ascii "a.b/y")), (5, .markSucceeded (smallUuid 1) 4 (smallUuid 1)),
        (6, .markFailed (smallUuid 2) (ascii "internal_server_error") (ascii "internal server error"))]).any
      (fun store => store.rows.map CrawlJobRow.status = [ascii "succeeded", ascii "failed"]) = true := by
    rfl
  obtain ⟨store, hrun, hstatus⟩ := Run.exists_of_execute _ hexec
  refine ⟨_, store, hrun, of_decide_eq_true hstatus, fun r hr => ?_⟩
  obtain ⟨status, job, _, _, hjob, _⟩ := (crawl_job_state_machine hrun).1 r hr
  exact ⟨job, hjob r.errorMessage⟩

end Webshot.Jobs
