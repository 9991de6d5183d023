import Webshot.Jobs.JobLifecycle
import Webshot.Jobs.ServiceSystem

/-! What the result of a succeeded job names, in every run of the service: a capture of the job's link
that is still there, unless a purge of a prefix above it has begun. -/
namespace Webshot.Capture.Stores
variable {s : Stores} {attempt : PgAttempt} {row r : CaptureRow} {ids : List Storage.Uuid}

theorem mem_addRow (h : r ∈ (s.addRow row).captures) : r ∈ s.captures ∨ r = row := by
  unfold addRow at h
  split at h
  · exact Or.inl h
  · exact (List.mem_append.mp h).imp_right List.mem_singleton.mp

theorem addRow_subset (hr : r ∈ s.captures) : r ∈ (s.addRow row).captures := by
  unfold addRow
  split
  · exact hr
  · exact List.mem_append_left _ hr

theorem mem_insertCapture (h : r ∈ (s.insertCapture attempt row).1.captures) : r ∈ s.captures ∨ r = row := by
  unfold insertCapture at h
  split at h
  · exact mem_addRow h
  · exact Or.inl h

theorem insertCapture_subset (hr : r ∈ s.captures) : r ∈ (s.insertCapture attempt row).1.captures := by
  unfold insertCapture
  split
  · exact addRow_subset hr
  · exact hr

/-- An insert that succeeds has put its row into the table. -/
theorem mem_of_insertCapture_ok (h : (s.insertCapture attempt row).2 = .ok) :
    row ∈ (s.insertCapture attempt row).1.captures := by
  cases attempt with
  | pgError applied => cases h
  | threw applied => cases h
  | completed =>
    by_cases hrow : s.HasRow row.id
    · simp [insertCapture, hrow] at h
    · simp [insertCapture, PgAttempt.applied, addRow, hrow]

theorem mem_deleteCapturesByIds (h : r ∈ (s.deleteCapturesByIds attempt ids).1.captures) : r ∈ s.captures := by
  unfold deleteCapturesByIds at h
  split at h
  · exact List.mem_of_mem_filter h
  · exact h

theorem deleteCapturesByIds_keeps (hr : r ∈ s.captures) (hid : r.id ∉ ids) :
    r ∈ (s.deleteCapturesByIds attempt ids).1.captures := by
  unfold deleteCapturesByIds
  split
  · exact List.mem_filter.mpr ⟨hr, decide_eq_true hid⟩
  · exact hr

theorem deleteCaptureObject_objects_of_ne (s : Stores) (attempt : S3Attempt) {key key' : Text.Bytes}
    (hne : key' ≠ key) : (s.deleteCaptureObject attempt key).1.objects key' = s.objects key' := by
  unfold deleteCaptureObject
  split
  · exact setObject_objects_of_ne _ _ _ hne
  · rfl

theorem putCaptureObject_objects_of_ne (s : Stores) (attempt : S3Attempt) (bytes : Text.Bytes)
    {key key' : Text.Bytes} (hne : key' ≠ key) :
    (s.putCaptureObject attempt key bytes).1.objects key' = s.objects key' := by
  unfold putCaptureObject
  split
  · exact setObject_objects_of_ne _ _ _ hne
  · rfl

theorem deleteCaptureObject_captures (s : Stores) (attempt : S3Attempt) (key : Text.Bytes) :
    (s.deleteCaptureObject attempt key).1.captures = s.captures := by
  unfold deleteCaptureObject
  split
  · rfl
  · rfl

theorem putCaptureObject_captures (s : Stores) (attempt : S3Attempt) (key bytes : Text.Bytes) :
    (s.putCaptureObject attempt key bytes).1.captures = s.captures := by
  unfold putCaptureObject
  split
  · rfl
  · rfl

end Webshot.Capture.Stores

namespace Webshot.Jobs
open Text Storage Access Foundation.TransitionRuns
open Capture hiding Reply

/-- What is true of every row of the table, and of every row the statement leaves, is true after a write. -/
theorem forall_performWrite {P : CrawlJobRow → Prop} {execution : Execution} {rows : List CrawlJobRow}
    {updated : Option (List CrawlJobRow)} {readable : Bool} (hrows : ∀ row ∈ rows, P row)
    (hupdated : ∀ rows', updated = some rows' → ∀ row ∈ rows', P row) :
    ∀ row ∈ (performWrite execution rows updated readable).1, P row := by
  have hgetD : ∀ row ∈ updated.getD rows, P row := by
    cases updated with
    | none => exact hrows
    | some rows' => exact hupdated rows' rfl
  cases execution with
  | normal =>
    cases updated with
    | none => exact hrows
    | some rows' => exact hupdated rows' rfl
  | pgError applied | exception applied =>
    cases applied with
    | false => exact hrows
    | true => exact hgetD

namespace ServiceSetup
variable (setup : ServiceSetup)

/-- The prefix is that of the job's link or above it. -/
def Covers (prefixKey : Bytes) (id : Uuid) : Prop :=
  ltreeAncestor (makePrefixTree prefixKey) ((setup.context id).prefixTree setup.una) = true

/-- A purge of a prefix above the job's link has begun. -/
def Purging (s : ServiceState) (id : Uuid) : Prop := ∃ n p, s.purges n = some p ∧ setup.Covers p.prefixKey id

/-- A capture of the link and of the content the job crawled, kept unless it is being purged. -/
structure Known (s : ServiceState) (id : Uuid) (stored : StoredCapture) : Prop where
  link : setup.linkKey stored.id = setup.linkKey id
  content : (setup.context stored.id).contentSha256 = (setup.context id).contentSha256
  kept : setup.captureRow stored.id stored.createdAt ∈ s.stores.captures ∨ setup.Purging s stored.id

/-- The job's row is about the link it was created for, and its result is known. -/
structure SoundJob (s : ServiceState) (row : CrawlJobRow) : Prop where
  link : row.link = setup.linkKey row.id
  result : row.status = ascii "succeeded" → ∃ stored : StoredCapture, row.resultCaptureId = some stored.id ∧
    row.resultCreatedAt = some stored.createdAt ∧ setup.Known s row.id stored

/-- What every run of the service keeps. -/
structure ServiceInvariant (s : ServiceState) : Prop where
  rows : ∀ r ∈ s.stores.captures, r = setup.captureRow r.id r.createdAt
  jobs : ∀ row ∈ s.jobs, setup.SoundJob s row
  tasks : ∀ id stored, s.tasks id = .markSucceeded stored → setup.Known s id stored
  pending : ∀ n p, s.purges n = some p → ∀ i ∈ p.phase.pending, setup.Covers p.prefixKey i

/-- No row is lost but to a purge, and no purge is forgotten. -/
structure Later (s t : ServiceState) : Prop where
  rows : ∀ id createdAt, setup.captureRow id createdAt ∈ s.stores.captures →
    setup.captureRow id createdAt ∈ t.stores.captures ∨ setup.Purging t id
  purging : ∀ id, setup.Purging s id → setup.Purging t id

variable {setup} {s t : ServiceState} {id : Uuid} {stored : StoredCapture} {row : CrawlJobRow}

theorem captureRow_id (setup : ServiceSetup) (id : Uuid) (now : TimePoint) : (setup.captureRow id now).id = id :=
  setup.context_id id

/-- A process that stops has forgotten no purge. -/
theorem Purging.stopped (h : setup.Purging s id) : setup.Purging s.stopped id := by
  obtain ⟨n, p, hp, hcovers⟩ := h
  exact ⟨n, { p with phase := .finished }, by simp [ServiceState.stopped, hp], hcovers⟩

/-- A purge that begins or moves on keeps its prefix. -/
theorem Purging.update (h : setup.Purging s id) {n : Nat} {p : Purge}
    (hold : ∀ q, s.purges n = some q → q.prefixKey = p.prefixKey) :
    setup.Purging { s with purges := Function.update s.purges n (some p) } id := by
  obtain ⟨m, q, hq, hcovers⟩ := h
  by_cases hm : m = n
  · subst hm
    exact ⟨m, p, Function.update_self _ _ _, hold q hq ▸ hcovers⟩
  · exact ⟨m, q, (Function.update_of_ne hm _ _).trans hq, hcovers⟩

theorem Known.later (h : setup.Known s id stored) (hlater : setup.Later s t) : setup.Known t id stored where
  link := h.link
  content := h.content
  kept := by
    rcases h.kept with hrow | hpurging
    · exact hlater.rows _ _ hrow
    · exact Or.inr (hlater.purging _ hpurging)

theorem SoundJob.later (h : setup.SoundJob s row) (hlater : setup.Later s t) : setup.SoundJob t row where
  link := h.link
  result hstatus := by
    obtain ⟨stored, hid, hcreated, hknown⟩ := h.result hstatus
    exact ⟨stored, hid, hcreated, hknown.later hlater⟩

/-- The captures only grew, and the purges stay. -/
theorem Later.of_subset (hpurges : t.purges = s.purges)
    (hrows : ∀ r ∈ s.stores.captures, r ∈ t.stores.captures) : setup.Later s t where
  rows _ _ hr := Or.inl (hrows _ hr)
  purging id h := by
    rw [Purging, hpurges]
    exact h

section Jobs
variable {now : TimePoint} {execution : Execution} {readable : Bool}

private theorem SoundJob.update (h : ∀ row ∈ s.jobs, setup.SoundJob s row) {matching : CrawlJobRow → Bool}
    {set : CrawlJobRow → CrawlJobRow}
    (hset : ∀ row, matching row = true → setup.SoundJob s row → setup.SoundJob s (set row)) :
    ∀ row ∈ (performWrite execution s.jobs (updateCrawlJobs s.jobs matching set) readable).1,
      setup.SoundJob s row := by
  refine forall_performWrite h fun rows' hrows row hrow => ?_
  obtain ⟨r, hr, rfl | ⟨hmatching, rfl, _⟩⟩ := mem_updateCrawlJobs hrows hrow
  · exact h _ hr
  · exact hset r hmatching (h r hr)

theorem SoundJob.markRunning (h : ∀ row ∈ s.jobs, setup.SoundJob s row) :
    ∀ row ∈ (markCrawlJobRunning execution now id s.jobs).1, setup.SoundJob s row := by
  refine SoundJob.update h fun row _ hrow => ⟨hrow.link, fun hstatus => ?_⟩
  exact absurd hstatus (by simp only [CrawlJobRow.setRunning]; decide)

theorem SoundJob.markFailed (h : ∀ row ∈ s.jobs, setup.SoundJob s row) (mark : Bytes × Bytes) :
    ∀ row ∈ (markCrawlJobFailed execution now id mark.1 mark.2 s.jobs).1, setup.SoundJob s row := by
  refine SoundJob.update h fun row _ hrow => ⟨hrow.link, fun hstatus => ?_⟩
  exact absurd hstatus (by simp only [CrawlJobRow.setFailed]; decide)

theorem SoundJob.markSucceeded (h : ∀ row ∈ s.jobs, setup.SoundJob s row) (hknown : setup.Known s id stored) :
    ∀ row ∈ (markCrawlJobSucceeded execution now id stored.id stored.createdAt s.jobs).1, setup.SoundJob s row := by
  refine SoundJob.update h fun row hin hrow => ⟨hrow.link, fun _ => ⟨stored, rfl, rfl, ?_⟩⟩
  simp only [CrawlJobRow.isIn, Bool.and_eq_true, decide_eq_true_eq] at hin
  simp only [CrawlJobRow.setSucceeded, hin.1]
  exact hknown

theorem SoundJob.insert (h : ∀ row ∈ s.jobs, setup.SoundJob s row) :
    ∀ row ∈ (performWrite execution s.jobs (insertCrawlJob s.jobs now id (setup.linkKey id)) readable).1,
      setup.SoundJob s row := by
  refine forall_performWrite h fun rows' hrows row hrow => ?_
  unfold insertCrawlJob at hrows
  split at hrows
  · cases hrows
  · cases hrows
    rcases List.mem_append.mp hrow with hrow | hrow
    · exact h row hrow
    · rw [List.mem_singleton.mp hrow]
      exact ⟨rfl, fun hstatus => absurd hstatus (by simp only [newCrawlJob]; decide)⟩

theorem SoundJob.cleanup (h : ∀ row ∈ s.jobs, setup.SoundJob s row) (cutoff : TimePoint) :
    ∀ row ∈ (performWrite execution s.jobs (some (deleteCrawlJobsExpired s.jobs cutoff)) readable).1,
      setup.SoundJob s row := by
  refine forall_performWrite h fun rows' hrows row hrow => ?_
  cases hrows
  exact h row (List.mem_of_mem_filter hrow)

end Jobs

theorem findCaptureByLinkHash_mem {captures : List CaptureRow} {linkKey : Bytes} {contentSha256 : Sha256}
    {found : CaptureMetaIdRow} (h : findCaptureByLinkHash captures linkKey contentSha256 = some found) :
    ∃ r ∈ captures, r.link = linkKey ∧ r.contentSha256 = contentSha256 ∧ r.id = found.uuid ∧
      r.createdAt = found.createdAt := by
  obtain ⟨r, hr, rfl⟩ := List.mem_map.mp (Foundation.OrderedSelect.mem_of_mem_select (List.mem_of_mem_head? h)).1
  obtain ⟨hr, hfound⟩ := List.mem_filter.mp hr
  simp only [Bool.and_eq_true, decide_eq_true_eq] at hfound
  exact ⟨r, hr, hfound.1, hfound.2, rfl, rfl⟩

namespace ServiceInvariant
variable {now : TimePoint} {event : TaskEvent} {progress : TaskProgress}

theorem initial (setup : ServiceSetup) : setup.ServiceInvariant .initial where
  rows _ hr := nomatch hr
  jobs _ hrow := nomatch hrow
  tasks _ _ h := nomatch h
  pending _ _ h := nomatch h

/-- A task that moves on, without a row lost. -/
theorem advance (h : setup.ServiceInvariant s)
    (hrows : ∀ r ∈ progress.stores.captures, r ∈ s.stores.captures ∨ r = setup.captureRow r.id r.createdAt)
    (hkept : ∀ r ∈ s.stores.captures, r ∈ progress.stores.captures)
    (hjobs : ∀ row ∈ progress.jobs, setup.SoundJob s row)
    (hphase : ∀ stored, progress.phase = .markSucceeded stored → setup.Known (s.advance id progress) id stored) :
    setup.ServiceInvariant (s.advance id progress) := by
  have hlater : setup.Later s (s.advance id progress) := .of_subset rfl hkept
  refine ⟨fun r hr => ?_, fun row hrow => (hjobs row hrow).later hlater, fun i stored hi => ?_, h.pending⟩
  · rcases hrows r hr with hold | hnew
    · exact h.rows r hold
    · exact hnew
  · rcases update_cases hi with ⟨rfl, hnew⟩ | ⟨_, hold⟩
    · exact hphase stored hnew
    · exact (h.tasks i stored hold).later hlater

/-- A task that wrote nothing but its job's row. -/
private theorem afterMark (h : setup.ServiceInvariant s) {write : List CrawlJobRow × Reply}
    {ok pgError exception : TaskPhase} (hjobs : ∀ row ∈ write.1, setup.SoundJob s row)
    (hok : ∀ stored, ok ≠ .markSucceeded stored) (hpg : ∀ stored, pgError ≠ .markSucceeded stored)
    (hexception : ∀ stored, exception ≠ .markSucceeded stored) :
    setup.ServiceInvariant (s.advance id (s.afterMark write ok pgError exception)) := by
  refine h.advance (fun _ hr => Or.inl hr) (fun _ hr => hr) hjobs fun stored hphase => ?_
  refine absurd hphase (ServiceState.afterMark_phase (P := (· ≠ .markSucceeded stored)) ?_ ?_ ?_)
  · exact hok stored
  · exact hpg stored
  · exact hexception stored

/-- A task that wrote no row. -/
private theorem goTo (h : setup.ServiceInvariant s) {phase : TaskPhase}
    (hphase : ∀ stored, phase = .markSucceeded stored → setup.Known s id stored) :
    setup.ServiceInvariant (s.advance id (s.goTo phase)) :=
  h.advance (fun _ hr => Or.inl hr) (fun _ hr => hr) h.jobs fun stored he =>
    (hphase stored he).later (.of_subset rfl fun _ hr => hr)

/-- A task that wrote no row of its job. -/
private theorem afterOperation (h : setup.ServiceInvariant s) {operation : Stores × Capture.Reply}
    {ok error : TaskPhase}
    (hrows : ∀ r ∈ operation.1.captures, r ∈ s.stores.captures ∨ r = setup.captureRow r.id r.createdAt)
    (hkept : ∀ r ∈ s.stores.captures, r ∈ operation.1.captures)
    (hok : ∀ stored, operation.2 = .ok → ok = .markSucceeded stored →
      setup.Known (s.advance id (s.afterOperation operation ok error)) id stored)
    (herror : ∀ stored, error ≠ .markSucceeded stored) :
    setup.ServiceInvariant (s.advance id (s.afterOperation operation ok error)) := by
  refine h.advance hrows hkept h.jobs fun stored => ?_
  exact ServiceState.afterOperation_phase (P := (· = .markSucceeded stored → _)) (hok stored)
    (fun he => absurd he (herror stored)) nofun

private theorem known_of_lookup (h : setup.ServiceInvariant s) (he : setup.afterLookup s id = .markSucceeded stored) :
    setup.Known s id stored := by
  unfold afterLookup at he
  split at he
  · rename_i found hfound
    cases he
    obtain ⟨r, hr, hlink, hcontent, hid, hcreated⟩ := findCaptureByLinkHash_mem hfound
    have hrow := h.rows r hr
    rw [← hid, ← hcreated]
    exact ⟨(congrArg CaptureRow.link hrow).symm.trans hlink,
      (congrArg CaptureRow.contentSha256 hrow).symm.trans hcontent, Or.inl (hrow ▸ hr)⟩
  · cases he

/-- Whatever happens to the operation a task stands before. -/
theorem task (h : setup.ServiceInvariant s) (hstep : setup.taskStep s id now (s.tasks id) event = some progress) :
    setup.ServiceInvariant (s.advance id progress) := by
  generalize hphase : s.tasks id = phase at hstep
  unfold taskStep at hstep
  split at hstep <;> cases hstep
  case h_1 => exact h.afterMark (SoundJob.markRunning h.jobs) nofun nofun nofun
  case h_2 outcome =>
    refine h.goTo fun stored he => ?_
    cases outcome <;> cases he
  case h_3 => exact h.goTo nofun
  case h_4 =>
    refine h.goTo fun stored he => ?_
    split at he <;> cases he
  case h_5 =>
    refine h.afterOperation (fun _ hr => Or.inl hr) (fun _ hr => hr) (fun stored _ he => ?_) nofun
    exact (h.known_of_lookup he).later (.of_subset rfl fun _ hr => hr)
  case h_6 => 
    refine h.afterOperation (fun r hr => ?_) (fun r hr => ?_) nofun nofun
    · exact Or.inl (Stores.putCaptureObject_captures _ _ _ _ ▸ hr)
    · exact Stores.putCaptureObject_captures s.stores _ _ _ ▸ hr
  case h_7 => 
    refine h.afterOperation (fun r hr => ?_) (fun r hr => Stores.insertCapture_subset hr) (fun stored hok he => ?_) nofun
    · refine (Stores.mem_insertCapture hr).imp_right fun hnew => ?_
      rw [hnew, captureRow_id]
      rfl
    · cases he
      exact ⟨rfl, rfl, Or.inl (Stores.mem_of_insertCapture_ok hok)⟩
  case h_8 =>
    refine h.afterOperation (fun r hr => ?_) (fun r hr => ?_) nofun nofun
    · exact Or.inl (Stores.deleteCaptureObject_captures _ _ _ ▸ hr)
    · exact Stores.deleteCaptureObject_captures s.stores _ _ ▸ hr
  case h_9 stored _ => exact h.afterMark (SoundJob.markSucceeded h.jobs (h.tasks id stored hphase)) nofun nofun nofun
  case h_10 e _ => exact h.afterMark (SoundJob.markFailed h.jobs e.mark) nofun nofun nofun
  case h_11 cancellation _ => exact h.afterMark (SoundJob.markFailed h.jobs (exceptionMark cancellation)) nofun nofun nofun

theorem stopped (h : setup.ServiceInvariant s) : setup.ServiceInvariant s.stopped := by
  have hlater : setup.Later s s.stopped := ⟨fun _ _ hr => Or.inl hr, fun _ hpurging => hpurging.stopped⟩
  refine ⟨h.rows, fun row hrow => (h.jobs row hrow).later hlater, fun id stored hid => ?_, fun n p hp i hi => ?_⟩
  · simp only [ServiceState.stopped] at hid
    split at hid <;> cases hid
  · obtain ⟨q, _, rfl⟩ := Option.map_eq_some_iff.mp hp
    cases hi

/-- A purge has deleted nothing but captures under its prefix. -/
private theorem shrink (h : setup.ServiceInvariant s) {n : Nat} {p : Purge} (hp : s.purges n = some p) {stores : Stores}
    (hrows : ∀ r ∈ stores.captures, r ∈ s.stores.captures)
    (hkept : ∀ r ∈ s.stores.captures, r ∈ stores.captures ∨ setup.Covers p.prefixKey r.id) :
    setup.ServiceInvariant { s with stores := stores } := by
  have hlater : setup.Later s { s with stores := stores } := by
    refine ⟨fun id createdAt hr => (hkept _ hr).imp_right fun hcovers => ⟨n, p, hp, ?_⟩, fun _ hpurging => hpurging⟩
    rwa [captureRow_id] at hcovers
  exact ⟨fun r hr => h.rows r (hrows r hr), fun row hrow => (h.jobs row hrow).later hlater,
    fun id stored hid => (h.tasks id stored hid).later hlater, h.pending⟩

/-- A purge begins, or moves on. -/
private theorem setPurge (h : setup.ServiceInvariant s) {n : Nat} {p : Purge}
    (hold : ∀ q, s.purges n = some q → q.prefixKey = p.prefixKey)
    (hpending : ∀ i ∈ p.phase.pending, setup.Covers p.prefixKey i) :
    setup.ServiceInvariant { s with purges := Function.update s.purges n (some p) } := by
  have hlater : setup.Later s { s with purges := Function.update s.purges n (some p) } :=
    ⟨fun _ _ hr => Or.inl hr, fun _ hpurging => hpurging.update hold⟩
  refine ⟨h.rows, fun row hrow => (h.jobs row hrow).later hlater,
    fun id stored hid => (h.tasks id stored hid).later hlater, fun m q hq => ?_⟩
  rcases update_cases hq with ⟨_, hnew⟩ | ⟨_, hq⟩
  · cases hnew
    exact hpending
  · exact h.pending m q hq

private theorem purged (h : setup.ServiceInvariant s) {n : Nat} {p : Purge} (hp : s.purges n = some p)
    {operation : Stores × Capture.Reply} {ok : PurgePhase}
    (hrows : ∀ r ∈ operation.1.captures, r ∈ s.stores.captures)
    (hkept : ∀ r ∈ s.stores.captures, r ∈ operation.1.captures ∨ setup.Covers p.prefixKey r.id)
    (hpending : ∀ i ∈ ok.pending, setup.Covers p.prefixKey i) :
    setup.ServiceInvariant (s.purged n p.prefixKey operation ok) := by
  have hshrunk := h.shrink hp hrows hkept
  unfold ServiceState.purged
  split
  · have hold (q : Purge) (hq : s.purges n = some q) : q.prefixKey = p.prefixKey :=
      congrArg Purge.prefixKey (Option.some.inj (hq.symm.trans hp))
    exact hshrunk.setPurge (p := ⟨p.prefixKey, ok⟩) hold hpending
  · exact hshrunk.stopped

/-- What a purge selects is under its prefix. -/
private theorem afterSelect_covers (h : setup.ServiceInvariant s) (prefixKey : Bytes) :
    ∀ i ∈ (setup.afterSelect s prefixKey).pending, setup.Covers prefixKey i := by
  intro i hi
  unfold afterSelect at hi
  split at hi
  · cases hi
  · rename_i id batch hids
    have hmem : i ∈ getCaptureIdsByPrefixTree s.stores.captures (makePrefixTree prefixKey) setup.purgeDeleteBatchSize :=
      hids ▸ hi
    obtain ⟨r, hr, rfl, htree⟩ := mem_getCaptureIdsByPrefixTree hmem
    rwa [congrArg CaptureRow.prefixTree (h.rows r hr)] at htree

theorem pending_nextOfBatch (batch : List Uuid) : (Setup.nextOfBatch batch).pending = batch := by
  cases batch <;> rfl

theorem purge (h : setup.ServiceInvariant s) {n : Nat} {p : Purge} (hp : s.purges n = some p) {event : PurgeEvent}
    (hstep : setup.purgeStep s n p.prefixKey p.phase event = some t) : setup.ServiceInvariant t := by
  have hcovers := h.pending n p hp
  generalize p.phase = phase at hstep hcovers
  unfold purgeStep at hstep
  split at hstep <;> cases hstep
  case h_1 => exact h.purged hp (fun _ hr => hr) (fun _ hr => Or.inl hr) (h.afterSelect_covers p.prefixKey)
  case h_2 =>
    refine h.purged hp (fun r hr => ?_) (fun r hr => Or.inl ?_) hcovers
    · exact Stores.deleteCaptureObject_captures s.stores _ _ ▸ hr
    · exact Stores.deleteCaptureObject_captures s.stores _ _ ▸ hr
  case h_3 id batch _ =>
    refine h.purged hp (fun r hr => Stores.mem_deleteCapturesByIds hr) (fun r hr => ?_) ?_
    · by_cases hid : r.id = id
      · exact Or.inr (hid ▸ hcovers id List.mem_cons_self)
      · exact Or.inl (Stores.deleteCapturesByIds_keeps hr (mt List.mem_singleton.mp hid))
    · rw [pending_nextOfBatch]
      exact fun i hi => hcovers i (List.mem_cons_of_mem _ hi)

/-- One step of the service, however its operation goes. -/
theorem step {action : ServiceAction} (h : setup.ServiceInvariant s) (hstep : setup.step s action = some t) :
    setup.ServiceInvariant t := by
  cases action with
  | create id now execution =>
    simp only [ServiceSetup.step] at hstep
    split at hstep
    · cases hstep
      exact h.afterMark (SoundJob.insert h.jobs) nofun nofun nofun
    · cases hstep
  | task id now event =>
    obtain ⟨progress, hprogress, rfl⟩ := Option.map_eq_some_iff.mp hstep
    exact h.task hprogress
  | denyPrefix n prefixKey =>
    simp only [ServiceSetup.step] at hstep
    split at hstep
    · rename_i hnone
      cases hstep
      refine h.setPurge (p := ⟨prefixKey, .selectBatch⟩) (fun q hq => ?_) nofun
      cases hnone.symm.trans hq
    · cases hstep
  | purge n event =>
    obtain ⟨p, hp, hpurge⟩ := Option.bind_eq_some_iff.mp hstep
    exact h.purge hp hpurge
  | cleanup cutoff execution =>
    cases hstep
    have hlater : setup.Later s { s with
        jobs := (performWrite execution s.jobs (some (deleteCrawlJobsExpired s.jobs cutoff)) true).1 } :=
      .of_subset rfl fun _ hr => hr
    exact ⟨h.rows, fun row hrow => (SoundJob.cleanup h.jobs cutoff row hrow).later hlater,
      fun id stored hid => (h.tasks id stored hid).later hlater, h.pending⟩
  | stop =>
    cases hstep
    exact h.stopped

end ServiceInvariant

/-- A capture in the table is what a lookup of its id finds. -/
theorem findCapture_captureRow {stores : Stores} {createdAt : TimePoint}
    (h : setup.captureRow id createdAt ∈ stores.captures) :
    findCapture stores id = some ⟨id, createdAt, setup.linkKey id⟩ := by
  have hid := setup.captureRow_id id createdAt
  have hfound : stores.captures.find? (·.id = id) = some (setup.captureRow id createdAt) := by
    cases hfind : stores.captures.find? (·.id = id) with
    | none => exact absurd (decide_eq_true hid) (List.find?_eq_none.mp hfind _ h)
    | some r =>
      have hr : r.id = id := by simpa using List.find?_some hfind
      rw [stores.eq_of_id (List.mem_of_find?_eq_some hfind) h (hr.trans hid.symm)]
  rw [findCapture, hfound]
  rfl

private theorem status_of_parse {status : Bytes} (h : parseJobStatus status = some .succeeded) :
    status = ascii "succeeded" := by
  unfold parseJobStatus at h
  split_ifs at h with hpending hrunning hsucceeded
  · cases h
  · cases h
  · exact hsucceeded
  · cases h

private theorem of_jobResult {status : JobStatus} {result : UuidWithTimeLink}
    (h : jobResult status row = some (some result)) :
    status = .succeeded ∧ row.resultCaptureId = some result.uuid ∧ row.resultCreatedAt = some result.createdAt ∧
      row.link = result.link := by
  unfold jobResult at h
  split at h
  · rename_i createdAt hcreated
    obtain ⟨captureId, hcapture, he⟩ := Option.map_eq_some_iff.mp h
    cases he
    exact ⟨rfl, hcapture, hcreated, rfl⟩
  · cases h

/-- A job is shown with a result only if its row is a succeeded one with that result. -/
theorem makeCaptureJob_result {job : CaptureJob} {result : UuidWithTimeLink} (hjob : makeCaptureJob row = some job)
    (hresult : job.result = some result) :
    row.status = ascii "succeeded" ∧ row.resultCaptureId = some result.uuid ∧
      row.resultCreatedAt = some result.createdAt ∧ row.link = result.link := by
  obtain ⟨status, hstatus, hjob⟩ := Option.bind_eq_some_iff.mp hjob
  obtain ⟨error, _, hjob⟩ := Option.bind_eq_some_iff.mp hjob
  obtain ⟨shown, hshown, hjob⟩ := Option.bind_eq_some_iff.mp hjob
  cases hjob
  subst hresult
  obtain ⟨rfl, hcolumns⟩ := of_jobResult hshown
  exact ⟨status_of_parse hstatus, hcolumns⟩

theorem ServiceInvariant.of_run {ok : ServiceState → ServiceAction → Prop} {actions : List ServiceAction}
    (hrun : Run setup.step ok .initial actions s) : setup.ServiceInvariant s :=
  hrun.invariant setup.ServiceInvariant (.initial setup) fun _ _ _ _ hstep h => h.step hstep

/-- What the API shows as the result of a job. -/
theorem ServiceInvariant.shown_known (h : setup.ServiceInvariant s) (hrow : row ∈ s.jobs) {job : CaptureJob}
    (hjob : makeCaptureJob row = some job) {result : UuidWithTimeLink} (hresult : job.result = some result) :
    ∃ stored : StoredCapture, setup.Known s row.id stored ∧
      result = ⟨stored.id, stored.createdAt, setup.linkKey stored.id⟩ := by
  obtain ⟨hstatus, hcapture, hcreated, hlink⟩ := makeCaptureJob_result hjob hresult
  have hsound := h.jobs row hrow
  obtain ⟨stored, hid, hat, hknown⟩ := hsound.result hstatus
  refine ⟨stored, hknown, ?_⟩
  rw [hknown.link, ← hsound.link, hlink, Option.some.inj (hid.symm.trans hcapture),
    Option.some.inj (hat.symm.trans hcreated)]

end ServiceSetup

open ServiceSetup in
/-- In every run of the service, however its operations fail, what the API shows as the result of a job
is the capture a lookup of its id finds, with the same time and link and with the content that job
crawled, unless a purge of a prefix above the link has begun. -/
theorem job_result_found {setup : ServiceSetup} {actions : List ServiceAction} {s : ServiceState}
    (hrun : Run setup.step always .initial actions s) {row : CrawlJobRow} (hrow : row ∈ s.jobs) {job : CaptureJob}
    (hjob : makeCaptureJob row = some job) {result : UuidWithTimeLink} (hresult : job.result = some result) :
    result.link = setup.linkKey row.id ∧
      (setup.context result.uuid).contentSha256 = (setup.context row.id).contentSha256 ∧
      (findCapture s.stores result.uuid = some result ∨ setup.Purging s result.uuid) := by
  obtain ⟨stored, hknown, rfl⟩ := (ServiceInvariant.of_run hrun).shown_known hrow hjob hresult
  exact ⟨hknown.link, hknown.content, hknown.kept.imp_left findCapture_captureRow⟩

/-- Every job crawls the same content of `http://a.b/x`. -/
def sampleService : ServiceSetup where
  una := sampleSetup.una
  bucket := sampleSetup.bucket
  purgeDeleteBatchSize := 2
  context := sampleSetup.context
  context_id := sampleSetup.context_id

/-- A job is created and crawled, and passes the policy check of an empty denylist. -/
def sampleCrawl (id : Uuid) (createdAt : TimePoint) : List ServiceAction :=
  [.create id createdAt .normal, .task id createdAt (.marked .normal), .task id createdAt (.crawled .captured),
    .task id createdAt (.policyAnswered (PolicyTables.repo ⟨[], []⟩)), .task id createdAt (.lookedUp .completed)]

/-- The first job stores a capture, and the second finds it. -/
def sampleActions : List ServiceAction :=
  sampleCrawl (smallUuid 1) 1000 ++
  [.task (smallUuid 1) 2000 (.uploaded .completed), .task (smallUuid 1) 3000 (.inserted .completed),
    .task (smallUuid 1) 4000 (.marked .normal)] ++
  sampleCrawl (smallUuid 2) 5000 ++ [.task (smallUuid 2) 6000 (.marked .normal)]

/-- The second job shows the capture of the first. -/
theorem sampleActions_reuse :
    ∃ s row job, Run sampleService.step always .initial sampleActions s ∧ row ∈ s.jobs ∧ row.id = smallUuid 2 ∧
      makeCaptureJob row = some job ∧ job.result = some ⟨smallUuid 1, 3000, ascii "a.b/x"⟩ := by
  have hexec : (execute sampleService.step .initial sampleActions).any (fun s => s.jobs.any fun row =>
      row.id = smallUuid 2 && (makeCaptureJob row).bind (·.result) = some ⟨smallUuid 1, 3000, ascii "a.b/x"⟩) =
        true := by
    decide +kernel
  obtain ⟨s, hrun, hany⟩ := Run.exists_of_execute _ hexec
  obtain ⟨row, hrow, htest⟩ := List.any_eq_true.mp hany
  simp only [Bool.and_eq_true, decide_eq_true_eq] at htest
  obtain ⟨job, hjob, hresult⟩ := Option.bind_eq_some_iff.mp htest.2
  exact ⟨s, row, job, hrun, hrow, htest.1, hjob, hresult⟩

theorem job_result_found_reused :
    ∃ s row job, Run sampleService.step always .initial sampleActions s ∧ row ∈ s.jobs ∧ row.id = smallUuid 2 ∧
      makeCaptureJob row = some job ∧ job.result = some ⟨smallUuid 1, 3000, ascii "a.b/x"⟩ ∧
      (findCapture s.stores (smallUuid 1) = some ⟨smallUuid 1, 3000, ascii "a.b/x"⟩ ∨
        sampleService.Purging s (smallUuid 1)) := by
  obtain ⟨s, row, job, hrun, hrow, hid, hjob, hresult⟩ := sampleActions_reuse
  exact ⟨s, row, job, hrun, hrow, hid, hjob, hresult, (job_result_found hrun hrow hjob hresult).2.2⟩

end Webshot.Jobs
