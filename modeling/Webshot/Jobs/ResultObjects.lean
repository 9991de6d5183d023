import Webshot.Jobs.JobResults

/-! When the capture a job names can be downloaded: its object is in the bucket as long as no insert of
a capture reports an error after it took effect. -/
namespace Webshot.Jobs
open Text Storage Access Foundation.TransitionRuns
open Capture hiding Reply

/-- The task has not come past its insert, and its capture has no row. -/
def TaskPhase.Unstored : TaskPhase → Prop
  | .absent | .markRunning | .crawl | .policyCheck | .hashLookup | .upload | .insertRow | .compensate => True
  | .markSucceeded _ | .markFailed _ | .handleException | .ended => False

/-- No insert of a capture reports an error after it took effect. -/
def HonestInserts (_ : ServiceState) (action : ServiceAction) : Prop :=
  ∀ id now, action ≠ .task id now (.inserted (.pgError true))

namespace ServiceSetup
variable (setup : ServiceSetup)

def waczBytes (id : Uuid) : Bytes := (setup.context id).waczBytes

/-- The object of a capture is in the bucket from before its insert until a purge deletes it. -/
structure ObjectInvariant (s : ServiceState) : Prop where
  unstored : ∀ id, (s.tasks id).Unstored → ¬ s.stores.HasRow id
  uploaded : ∀ id, s.tasks id = .insertRow → s.stores.objects (setup.objectKey id) = some (setup.waczBytes id)
  pending : ∀ n p, s.purges n = some p → ∀ i ∈ p.phase.pending, ¬ (s.tasks i).Unstored
  objects : ∀ r ∈ s.stores.captures,
    s.stores.objects (setup.objectKey r.id) = some (setup.waczBytes r.id) ∨ setup.Purging s r.id

/-- What an operation of a task may do to the captures and their objects. -/
structure OwnCapture (s : ServiceState) (id : Uuid) (progress : TaskProgress) : Prop where
  rows : ∀ r ∈ progress.stores.captures, r.id ≠ id → r ∈ s.stores.captures
  objects : ∀ i, i ≠ id → progress.stores.objects (setup.objectKey i) = s.stores.objects (setup.objectKey i)
  forward : progress.phase.Unstored → (s.tasks id).Unstored ∧ ¬ progress.stores.HasRow id
  uploaded : progress.phase = .insertRow →
    progress.stores.objects (setup.objectKey id) = some (setup.waczBytes id)
  stored : progress.stores.HasRow id →
    progress.stores.objects (setup.objectKey id) = some (setup.waczBytes id) ∨ setup.Purging s id

variable {setup} {s t : ServiceState} {id : Uuid} {now : TimePoint} {event : TaskEvent} {progress : TaskProgress}

theorem objectKey_injective (setup : ServiceSetup) : Function.Injective setup.objectKey :=
  makeCaptureObjectKey_injective setup.bucket

namespace ObjectInvariant

theorem initial (setup : ServiceSetup) : setup.ObjectInvariant .initial where
  unstored _ _ := by
    rintro ⟨r, hr, _⟩
    cases hr
  uploaded _ h := nomatch h
  pending _ _ h := nomatch h
  objects _ hr := nomatch hr

theorem advance (h : setup.ObjectInvariant s) (hown : setup.OwnCapture s id progress) :
    setup.ObjectInvariant (s.advance id progress) where
  unstored i hi := by
    rintro ⟨r, hr, rfl⟩
    rcases update_cases (y := Function.update s.tasks id progress.phase r.id) rfl with ⟨he, hnew⟩ | ⟨hne, hold⟩
    · exact (hown.forward (hnew ▸ hi)).2 ⟨r, hr, he⟩
    · exact h.unstored r.id (hold ▸ hi) ⟨r, hown.rows r hr hne, rfl⟩
  uploaded i hi := by
    rcases update_cases hi with ⟨rfl, hnew⟩ | ⟨hne, hold⟩
    · exact hown.uploaded hnew
    · exact (hown.objects i hne).trans (h.uploaded i hold)
  pending n p hp i hi hunstored :=
    h.pending n p hp i hi (of_update TaskPhase.Unstored (fun hnew => (hown.forward hnew).1) hunstored)
  objects r hr := by
    by_cases hid : r.id = id
    · rw [hid]
      exact hown.stored ⟨r, hr, hid⟩
    · rw [ServiceState.advance, hown.objects r.id hid]
      exact h.objects r (hown.rows r hr hid)

/-- An operation that leaves the captures and their objects alone. -/
private theorem own_of_stores_eq (h : setup.ObjectInvariant s) (hstores : progress.stores = s.stores)
    (hforward : progress.phase.Unstored → (s.tasks id).Unstored) (huploaded : progress.phase ≠ .insertRow) :
    setup.OwnCapture s id progress where
  rows r hr _ := hstores ▸ hr
  objects _ _ := by rw [hstores]
  forward hphase := by
    rw [hstores]
    exact ⟨hforward hphase, h.unstored id (hforward hphase)⟩
  uploaded hphase := absurd hphase huploaded
  stored hrow := by
    rw [hstores] at hrow ⊢
    obtain ⟨r, hr, rfl⟩ := hrow
    exact h.objects r hr

private theorem own_upload (h : setup.ObjectInvariant s) (hphase : s.tasks id = .upload) (attempt : S3Attempt) :
    setup.OwnCapture s id (s.afterOperation
      (s.stores.putCaptureObject attempt (setup.objectKey id) (setup.waczBytes id)) .insertRow .persistFailed) := by
  have hold : (s.tasks id).Unstored := hphase ▸ trivial
  have hcaptures := Stores.putCaptureObject_captures s.stores attempt (setup.objectKey id) (setup.waczBytes id)
  have hrow : ¬ (s.stores.putCaptureObject attempt (setup.objectKey id) (setup.waczBytes id)).1.HasRow id := by
    rw [Stores.HasRow, hcaptures]
    exact h.unstored id hold
  refine ⟨fun r hr _ => hcaptures ▸ hr, fun i hi => ?_, fun _ => ⟨hold, hrow⟩, fun hnew => ?_, fun hr => absurd hr hrow⟩
  · exact Stores.putCaptureObject_objects_of_ne _ _ _ fun he => hi (setup.objectKey_injective he)
  · cases attempt with
    | completed => exact Stores.setObject_objects _ _ _
    | threw applied cancelRequested => cases cancelRequested <;> cases hnew

private theorem own_compensate (h : setup.ObjectInvariant s) (hphase : s.tasks id = .compensate) (attempt : S3Attempt) :
    setup.OwnCapture s id (s.afterOperation (s.stores.deleteCaptureObject attempt (setup.objectKey id)) .persistFailed
      .persistFailed) := by
  have hold : (s.tasks id).Unstored := hphase ▸ trivial
  have hcaptures := Stores.deleteCaptureObject_captures s.stores attempt (setup.objectKey id)
  have hrow : ¬ (s.stores.deleteCaptureObject attempt (setup.objectKey id)).1.HasRow id := by
    rw [Stores.HasRow, hcaptures]
    exact h.unstored id hold
  refine ⟨fun r hr _ => hcaptures ▸ hr, fun i hi => ?_, fun _ => ⟨hold, hrow⟩, fun hnew => ?_, fun hr => absurd hr hrow⟩
  · exact Stores.deleteCaptureObject_objects_of_ne _ _ fun he => hi (setup.objectKey_injective he)
  · simp only [ServiceState.afterOperation] at hnew
    split at hnew <;> cases hnew

/-- After an insert that reports an error there is no row, as the insert took no effect; after any
other there may be one, and its object was uploaded before. -/
private theorem own_insert (h : setup.ObjectInvariant s) (hphase : s.tasks id = .insertRow) {attempt : PgAttempt}
    (hhonest : attempt ≠ .pgError true) :
    setup.OwnCapture s id (s.afterOperation (s.stores.insertCapture attempt (setup.captureRow id now))
      (.markSucceeded ⟨id, now⟩) .compensate) := by
  have hold : (s.tasks id).Unstored := hphase ▸ trivial
  have hobjects : (s.stores.insertCapture attempt (setup.captureRow id now)).1.objects = s.stores.objects := by
    unfold Stores.insertCapture
    split
    · exact Stores.addRow_objects _ _
    · rfl
  have huploaded : (s.stores.insertCapture attempt (setup.captureRow id now)).1.objects (setup.objectKey id) =
      some (setup.waczBytes id) := by
    rw [hobjects]
    exact h.uploaded id hphase
  refine ⟨fun r hr hid => ?_, fun i _ => congrFun hobjects _, fun hnew => ⟨hold, ?_⟩, fun _ => huploaded,
    fun _ => Or.inl huploaded⟩
  · refine (Stores.mem_insertCapture hr).resolve_right fun he => hid ?_
    rw [he, captureRow_id]
  · have hfresh : ¬ s.stores.HasRow (setup.captureRow id now).id := by
      rw [captureRow_id]
      exact h.unstored id hold
    cases attempt with
    | completed => simp [ServiceState.afterOperation, Stores.insertCapture, hfresh, PgAttempt.catchPg, TaskPhase.Unstored] at hnew
    | threw applied => cases hnew
    | pgError applied =>
      cases applied with
      | false => exact h.unstored id hold
      | true => exact absurd rfl hhonest

theorem task (h : setup.ObjectInvariant s) (hhonest : event ≠ .inserted (.pgError true))
    (hstep : setup.taskStep s id now (s.tasks id) event = some progress) :
    setup.ObjectInvariant (s.advance id progress) := by
  apply h.advance
  generalize hphase : s.tasks id = phase at hstep
  unfold taskStep at hstep
  split at hstep <;> cases hstep
  case h_1 =>
    refine h.own_of_stores_eq rfl (fun _ => hphase ▸ trivial) ?_
    exact ServiceState.afterMark_phase (P := (· ≠ .insertRow)) nofun nofun nofun
  case h_2 outcome =>
    refine h.own_of_stores_eq rfl (fun _ => hphase ▸ trivial) ?_
    cases outcome <;> exact nofun
  case h_3 => exact h.own_of_stores_eq rfl (fun _ => hphase ▸ trivial) nofun
  case h_4 =>
    refine h.own_of_stores_eq rfl (fun _ => hphase ▸ trivial) ?_
    simp only [ServiceState.goTo]
    split <;> exact nofun
  case h_5 =>
    refine h.own_of_stores_eq rfl (fun _ => hphase ▸ trivial) ?_
    refine ServiceState.afterOperation_phase (P := (· ≠ .insertRow)) (fun _ => ?_) nofun nofun
    unfold afterLookup
    split <;> exact nofun
  case h_6 => exact h.own_upload hphase _
  case h_7 => exact h.own_insert hphase fun he => hhonest (congrArg TaskEvent.inserted he)
  case h_8 => exact h.own_compensate hphase _
  all_goals
    refine h.own_of_stores_eq rfl (fun hnew => absurd hnew ?_) ?_
    · exact ServiceState.afterMark_phase (P := (¬ ·.Unstored)) nofun nofun nofun
    · exact ServiceState.afterMark_phase (P := (· ≠ .insertRow)) nofun nofun nofun

theorem stopped (h : setup.ObjectInvariant s) : setup.ObjectInvariant s.stopped := by
  have hold {i : Uuid} (hi : (s.stopped.tasks i).Unstored) : s.tasks i = .absent := by
    by_contra hne
    simp only [ServiceState.stopped, if_neg hne] at hi
    exact hi
  refine ⟨fun i hi => ?_, fun i hi => ?_, fun n p hp i hi => ?_, fun r hr => ?_⟩
  · have habsent := hold hi
    exact h.unstored i (habsent ▸ trivial)
  · simp only [ServiceState.stopped] at hi
    split at hi <;> cases hi
  · obtain ⟨q, _, rfl⟩ := Option.map_eq_some_iff.mp hp
    cases hi
  · exact (h.objects r hr).imp_right Purging.stopped

/-- A purge has deleted nothing but captures under its prefix and objects of captures it selected. -/
private theorem shrink (h : setup.ObjectInvariant s) {n : Nat} {p : Purge} (hp : s.purges n = some p) {stores : Stores}
    (hrows : ∀ r ∈ stores.captures, r ∈ s.stores.captures)
    (hobjects : ∀ i, stores.objects (setup.objectKey i) = s.stores.objects (setup.objectKey i) ∨
      i ∈ p.phase.pending ∧ setup.Covers p.prefixKey i) :
    setup.ObjectInvariant { s with stores := stores } where
  unstored i hi := by
    rintro ⟨r, hr, hid⟩
    exact h.unstored i hi ⟨r, hrows r hr, hid⟩
  uploaded i hi := by
    rcases hobjects i with heq | ⟨hpending, _⟩
    · exact heq.trans (h.uploaded i hi)
    · have hi' : s.tasks i = .insertRow := hi
      exact absurd (by rw [hi']; trivial) (h.pending n p hp i hpending)
  pending := h.pending
  objects r hr := by
    rcases hobjects r.id with heq | ⟨_, hcovers⟩
    · rw [heq]
      exact h.objects r (hrows r hr)
    · exact Or.inr ⟨n, p, hp, hcovers⟩

private theorem setPurge (h : setup.ObjectInvariant s) {n : Nat} {p : Purge}
    (hold : ∀ q, s.purges n = some q → q.prefixKey = p.prefixKey)
    (hpending : ∀ i ∈ p.phase.pending, ¬ (s.tasks i).Unstored) :
    setup.ObjectInvariant { s with purges := Function.update s.purges n (some p) } where
  unstored := h.unstored
  uploaded := h.uploaded
  pending m q hq := by
    rcases update_cases hq with ⟨_, hnew⟩ | ⟨_, hq⟩
    · cases hnew
      exact hpending
    · exact h.pending m q hq
  objects r hr := (h.objects r hr).imp_right fun hpurging => hpurging.update hold

private theorem purged (h : setup.ObjectInvariant s) {n : Nat} {p : Purge} (hp : s.purges n = some p)
    {operation : Stores × Capture.Reply} {ok : PurgePhase}
    (hrows : ∀ r ∈ operation.1.captures, r ∈ s.stores.captures)
    (hobjects : ∀ i, operation.1.objects (setup.objectKey i) = s.stores.objects (setup.objectKey i) ∨
      i ∈ p.phase.pending ∧ setup.Covers p.prefixKey i)
    (hpending : ∀ i ∈ ok.pending, ¬ (s.tasks i).Unstored) :
    setup.ObjectInvariant (s.purged n p.prefixKey operation ok) := by
  have hshrunk := h.shrink hp hrows hobjects
  unfold ServiceState.purged
  split
  · have hold (q : Purge) (hq : s.purges n = some q) : q.prefixKey = p.prefixKey :=
      congrArg Purge.prefixKey (Option.some.inj (hq.symm.trans hp))
    exact hshrunk.setPurge (p := ⟨p.prefixKey, ok⟩) hold hpending
  · exact hshrunk.stopped

/-- What a purge selects has a row, and so is past its insert. -/
private theorem afterSelect_stored (h : setup.ObjectInvariant s) (prefixKey : Bytes) :
    ∀ i ∈ (setup.afterSelect s prefixKey).pending, ¬ (s.tasks i).Unstored := by
  intro i hi hunstored
  unfold afterSelect at hi
  split at hi
  · cases hi
  · rename_i id batch hids
    have hmem : i ∈ getCaptureIdsByPrefixTree s.stores.captures (makePrefixTree prefixKey) setup.purgeDeleteBatchSize :=
      hids ▸ hi
    obtain ⟨r, hr, hid, _⟩ := mem_getCaptureIdsByPrefixTree hmem
    exact h.unstored i hunstored ⟨r, hr, hid⟩

theorem purge (h : setup.ObjectInvariant s) (hcovers : setup.ServiceInvariant s) {n : Nat} {p : Purge}
    (hp : s.purges n = some p) {purgeEvent : PurgeEvent}
    (hstep : setup.purgeStep s n p.prefixKey p.phase purgeEvent = some t) : setup.ObjectInvariant t := by
  have hpending := h.pending n p hp
  have hcovered := hcovers.pending n p hp
  generalize hphase : p.phase = phase at hstep hpending hcovered
  unfold purgeStep at hstep
  split at hstep <;> cases hstep
  case h_1 => exact h.purged hp (fun _ hr => hr) (fun _ => Or.inl rfl) (h.afterSelect_stored p.prefixKey)
  case h_2 id batch _ =>
    refine h.purged hp (fun r hr => ?_) (fun i => ?_) hpending
    · exact Stores.deleteCaptureObject_captures s.stores _ _ ▸ hr
    · by_cases hi : i = id
      · subst hi
        exact Or.inr ⟨hphase ▸ List.mem_cons_self, hcovered i List.mem_cons_self⟩
      · exact Or.inl (Stores.deleteCaptureObject_objects_of_ne _ _ fun he => hi (setup.objectKey_injective he))
  case h_3 id batch _ =>
    refine h.purged hp (fun r hr => Stores.mem_deleteCapturesByIds hr) (fun i => Or.inl ?_) ?_
    · unfold Stores.deleteCapturesByIds
      split <;> rfl
    · rw [ServiceInvariant.pending_nextOfBatch]
      exact fun i hi => hpending i (List.mem_cons_of_mem _ hi)

theorem step {action : ServiceAction} (h : setup.ObjectInvariant s) (hservice : setup.ServiceInvariant s)
    (hhonest : HonestInserts s action) (hstep : setup.step s action = some t) : setup.ObjectInvariant t := by
  cases action with
  | create id now execution =>
    simp only [ServiceSetup.step] at hstep
    split at hstep
    · rename_i habsent
      cases hstep
      apply h.advance
      refine h.own_of_stores_eq rfl (fun _ => habsent ▸ trivial) ?_
      exact ServiceState.afterMark_phase (P := (· ≠ .insertRow)) (by simp) (by simp) (by simp)
    · cases hstep
  | task id now event =>
    obtain ⟨progress, hprogress, rfl⟩ := Option.map_eq_some_iff.mp hstep
    exact h.task (fun he => hhonest id now (congrArg (ServiceAction.task id now) he)) hprogress
  | denyPrefix n prefixKey =>
    simp only [ServiceSetup.step] at hstep
    split at hstep
    · rename_i hnone
      cases hstep
      refine h.setPurge (p := ⟨prefixKey, .selectBatch⟩) (fun q hq => ?_) (List.forall_mem_nil _)
      cases hnone.symm.trans hq
    · cases hstep
  | purge n event =>
    obtain ⟨p, hp, hpurge⟩ := Option.bind_eq_some_iff.mp hstep
    exact h.purge hservice hp hpurge
  | cleanup cutoff execution =>
    cases hstep
    exact ⟨h.unstored, h.uploaded, h.pending, h.objects⟩
  | stop =>
    cases hstep
    exact h.stopped

end ObjectInvariant
end ServiceSetup

open ServiceSetup in
/-- In every run in which no insert of a capture reports an error after it took effect, the capture a job
shows as its result is found and can be downloaded, unless a purge of a prefix above its link has begun. -/
theorem job_result_downloadable {setup : ServiceSetup} {actions : List ServiceAction} {s : ServiceState}
    (hrun : Run setup.step HonestInserts .initial actions s) {row : CrawlJobRow} (hrow : row ∈ s.jobs)
    {job : CaptureJob} (hjob : makeCaptureJob row = some job) {result : UuidWithTimeLink}
    (hresult : job.result = some result) :
    (findCapture s.stores result.uuid = some result ∧
      s.stores.objects (setup.objectKey result.uuid) = some (setup.waczBytes result.uuid)) ∨
      setup.Purging s result.uuid := by
  have hinv : setup.ServiceInvariant s ∧ setup.ObjectInvariant s :=
    hrun.invariant (fun s => setup.ServiceInvariant s ∧ setup.ObjectInvariant s) ⟨.initial setup, .initial setup⟩
      fun _ _ _ hhonest hstep h => ⟨h.1.step hstep, h.2.step h.1 hhonest hstep⟩
  obtain ⟨stored, hknown, rfl⟩ := hinv.1.shown_known hrow hjob hresult
  rcases hknown.kept with hkept | hpurging
  · have hobject := hinv.2.objects _ hkept
    rw [captureRow_id] at hobject
    exact hobject.imp_left fun hobject => ⟨findCapture_captureRow hkept, hobject⟩
  · exact Or.inr hpurging

/-- The second of two jobs shows the capture of the first. -/
theorem job_result_downloadable_reused :
    ∃ s row job, Run sampleService.step HonestInserts .initial sampleActions s ∧ row ∈ s.jobs ∧
      row.id = smallUuid 2 ∧ makeCaptureJob row = some job ∧
      job.result = some ⟨smallUuid 1, 3000, ascii "a.b/x"⟩ ∧
      ((findCapture s.stores (smallUuid 1) = some ⟨smallUuid 1, 3000, ascii "a.b/x"⟩ ∧
        s.stores.objects (sampleService.objectKey (smallUuid 1)) = some (sampleService.waczBytes (smallUuid 1))) ∨
        sampleService.Purging s (smallUuid 1)) := by
  obtain ⟨s, row, job, hrun, hrow, hid, hjob, hresult⟩ := sampleActions_reuse
  have hhonest : ∀ a ∈ sampleActions, ∀ s, HonestInserts s a := by
    intro a ha s id now he
    subst he
    simp [sampleActions, sampleCrawl] at ha
  have hrun := hrun.of_allowed hhonest
  exact ⟨s, row, job, hrun, hrow, hid, hjob, hresult, job_result_downloadable hrun hrow hjob hresult⟩

end Webshot.Jobs
