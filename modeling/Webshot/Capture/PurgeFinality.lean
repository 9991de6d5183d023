import Webshot.Capture.PersistAndPurge

/-! Deny-and-purge: when the purged prefix stays empty of captures and of their objects. -/
namespace Webshot.Capture
open Text Storage Access Foundation.TransitionRuns

def PersistPhase.Done (phase : PersistPhase) : Prop := ∃ stored, phase = .finished stored

/-- The ids a purge has selected and not deleted yet. -/
def PurgePhase.pending : PurgePhase → List Uuid
  | .deleteObject id batch | .deleteRow id batch => id :: batch
  | _ => []

namespace Setup
variable (setup : Setup)

/-- The purge ends its loop only while no job under the prefix stands between its policy check and
the end of its call. -/
def ClosesAlone (s : System) (a : Action) : Prop :=
  a = .purge → s.purge = .selectBatch → (∀ r ∈ s.world.captures, ¬ setup.Purged r.prefixTree) →
    ∀ id, setup.Purged ((setup.context id).prefixTree setup.una) → ¬ (s.jobs id).InFlight

/-- No row under the prefix is left, and no object of a capture that was there at the start or that
some job made. -/
structure Clean (s₀ s : System) : Prop where
  rows : ∀ r ∈ s.world.captures, ¬ setup.Purged r.prefixTree
  old_objects : ∀ r ∈ s₀.world.captures, setup.Purged r.prefixTree → s.world.objects (setup.objectKey r.id) = none
  job_objects : ∀ id, s₀.jobs id = .policyCheck → setup.Purged ((setup.context id).prefixTree setup.una) →
    s.world.objects (setup.objectKey id) = none

/-- Where the rows come from, and that no job works on what the purge has selected. -/
structure Origins (s₀ s : System) : Prop where
  active : ∀ id, ¬ (s.jobs id).Done → s₀.jobs id = .policyCheck
  row_done : ∀ r ∈ s.world.captures, (s.jobs r.id).Done
  row_origin : ∀ r ∈ s.world.captures, r ∈ s₀.world.captures ∨
    s₀.jobs r.id = .policyCheck ∧ r.prefixTree = (setup.context r.id).prefixTree setup.una
  pending_done : ∀ id ∈ s.purge.pending, (s.jobs id).Done

/-- An object is there only between its upload and the deletion of its row. -/
structure Owned (s₀ s : System) : Prop where
  deleted : ∀ id batch, s.purge = .deleteRow id batch → s.world.objects (setup.objectKey id) = none
  owner : ∀ id, s₀.jobs id = .policyCheck ∨ (∃ r ∈ s₀.world.captures, r.id = id) →
    s.world.objects (setup.objectKey id) ≠ none → s.jobs id = .insertRow ∨ ∃ r ∈ s.world.captures, r.id = id

/-- Once the prefix is denied no job under it passes, and after the end of the loop none is left. -/
structure Closed (s : System) : Prop where
  denylist_tree : ∀ r ∈ s.world.policy.denylist, r.prefixTree = makePrefixTree r.prefixKey
  denied : s.purge ≠ .insertPrefix → ∃ r ∈ s.world.policy.denylist, r.prefixTree = setup.purgedTree
  no_row : s.purge = .finished → ∀ r ∈ s.world.captures, ¬ setup.Purged r.prefixTree
  no_job : s.purge = .finished → ∀ id, setup.Purged ((setup.context id).prefixTree setup.una) → ¬ (s.jobs id).InFlight

end Setup

variable {setup : Setup} {s₀ s t : System} {a : Action}

theorem Setup.objectKey_injective (setup : Setup) : Function.Injective setup.objectKey :=
  makeCaptureObjectKey_injective setup.bucket

namespace Setup.Step

private theorem ne_of_done {id i : Uuid} {phase : PersistPhase} (hphase : s.jobs id = phase) (hnot : ¬ phase.Done)
    (hi : (s.jobs i).Done) : i ≠ id := by
  intro he
  subst he
  exact hnot (hphase ▸ hi)

/-- A job that is done takes no more steps. -/
theorem jobs_of_done (h : setup.Step s a t) {i : Uuid} (hi : (s.jobs i).Done) : t.jobs i = s.jobs i := by
  cases h with
  | pass hphase _ | refuse hphase _ | reuse hphase _ | miss hphase _ | put hphase | insert hphase =>
    refine Function.update_of_ne (ne_of_done hphase ?_ hi) _ _
    rintro ⟨stored, hst⟩
    cases hst
  | deny _ | selectNone _ _ | selectSome _ _ | deleteObject _ | deleteRow _ => rfl

/-- A row after a step was there before, or a job has just inserted it. -/
theorem row_before (h : setup.Step s a t) {r : CaptureRow} (hr : r ∈ t.world.captures) :
    r ∈ s.world.captures ∨
      s.jobs r.id = .insertRow ∧ (t.jobs r.id).Done ∧ r.prefixTree = (setup.context r.id).prefixTree setup.una := by
  cases h with
  | pass _ _ | refuse _ _ | reuse _ _ | miss _ _ | put _ | deny _ | selectNone _ _ | selectSome _ _ | deleteObject _ =>
    exact Or.inl hr
  | deleteRow _ => exact Or.inl (List.mem_of_mem_filter hr)
  | insert hphase =>
    rename_i id now
    rcases List.mem_append.mp hr with hr | hr
    · exact Or.inl hr
    · have hid : r.id = id := by
        rw [List.mem_singleton.mp hr]
        exact setup.context_id id
      refine Or.inr ⟨hid ▸ hphase, ⟨some ⟨(setup.context id).id, now⟩, ?_⟩, ?_⟩
      · rw [hid]
        exact Function.update_self _ _ _
      · rw [hid, List.mem_singleton.mp hr]
        rfl

/-- What the purge works on was selected before, or has a row. -/
theorem pending_before (h : setup.Step s a t) {i : Uuid} (hi : i ∈ t.purge.pending) :
    i ∈ s.purge.pending ∨ ∃ r ∈ s.world.captures, r.id = i := by
  cases h with
  | pass _ _ | refuse _ _ | reuse _ _ | miss _ _ | put _ | insert _ => exact Or.inl hi
  | deny _ | selectNone _ _ => cases hi
  | selectSome _ hids =>
    have hmem : i ∈ getCaptureIdsByPrefixTree s.world.captures setup.purgedTree setup.purgeDeleteBatchSize := by
      rw [hids]
      exact hi
    obtain ⟨r, hr, hid, _⟩ := mem_getCaptureIdsByPrefixTree hmem
    exact Or.inr ⟨r, hr, hid⟩
  | deleteObject hphase =>
    rw [hphase]
    exact Or.inl hi
  | deleteRow hphase =>
    rename_i id batch
    rw [hphase]
    cases batch with
    | nil => cases hi
    | cons j batch => exact Or.inl (List.mem_cons_of_mem _ hi)

end Setup.Step

namespace Setup.Origins

theorem start (hinit : Initial setup s₀) : setup.Origins s₀ s₀ where
  active id hid := (hinit.jobs_eq id).resolve_right fun h => hid ⟨none, h⟩
  row_done r hr := by
    rcases hinit.jobs_eq r.id with h | h
    · exact absurd rfl (hinit.fresh_row r.id h r hr)
    · exact ⟨none, h⟩
  row_origin r hr := Or.inl hr
  pending_done id hid := by
    rw [hinit.purge_eq] at hid
    cases hid

theorem step (h : setup.Origins s₀ s) (hstep : setup.Step s a t) : setup.Origins s₀ t := by
  have hdone {i : Uuid} (hi : (s.jobs i).Done) : (t.jobs i).Done := by
    rwa [hstep.jobs_of_done hi]
  refine ⟨fun id hid => h.active id fun hd => hid (hdone hd), ?_, ?_, ?_⟩
  · intro r hr
    rcases hstep.row_before hr with hr | ⟨_, hd, _⟩
    · exact hdone (h.row_done r hr)
    · exact hd
  · intro r hr
    rcases hstep.row_before hr with hr | ⟨hphase, _, htree⟩
    · exact h.row_origin r hr
    · refine Or.inr ⟨h.active r.id ?_, htree⟩
      rw [hphase]
      rintro ⟨stored, hst⟩
      cases hst
  · intro id hid
    rcases hstep.pending_before hid with hid | ⟨r, hr, rfl⟩
    · exact hdone (h.pending_done id hid)
    · exact hdone (h.row_done r hr)

end Setup.Origins

namespace Setup.Owned

theorem start (hinit : Initial setup s₀) : setup.Owned s₀ s₀ where
  deleted id batch hpurge := by
    rw [hinit.purge_eq] at hpurge
    cases hpurge
  owner id hid hobj := by
    rcases hid with hid | hid
    · exact absurd (hinit.fresh_object id hid) hobj
    · exact Or.inr hid

/-- The owner stays what it was while only jobs in other phases move. -/
private theorem owner_of_move (h : setup.Owned s₀ s) {id : Uuid} {phase : PersistPhase}
    (hphase : s.jobs id ≠ .insertRow) :
    ∀ i, s₀.jobs i = .policyCheck ∨ (∃ r ∈ s₀.world.captures, r.id = i) →
      s.world.objects (setup.objectKey i) ≠ none →
      Function.update s.jobs id phase i = .insertRow ∨ ∃ r ∈ s.world.captures, r.id = i := by
  intro i hi hobj
  refine (h.owner i hi hobj).imp_left fun hins => ?_
  rwa [Function.update_of_ne]
  intro he
  exact hphase (he ▸ hins)

theorem step (h : setup.Owned s₀ s) (horigins : setup.Origins s₀ s) (hstep : setup.Step s a t) : setup.Owned s₀ t := by
  cases hstep with
  | pass hphase _ | refuse hphase _ | reuse hphase _ | miss hphase _ =>
    exact ⟨h.deleted, h.owner_of_move (by simp [hphase])⟩
  | put hphase =>
    rename_i id now
    refine ⟨fun i batch hpurge => ?_, fun i hi hobj => ?_⟩
    · have hdone : (s.jobs i).Done := horigins.pending_done i (by rw [hpurge]; exact List.mem_cons_self)
      have hne : i ≠ id := by
        intro he
        obtain ⟨stored, hst⟩ := hdone
        rw [he, hphase] at hst
        cases hst
      exact (Function.update_of_ne (setup.objectKey_injective.ne hne) _ _).trans (h.deleted i batch hpurge)
    · by_cases he : i = id
      · subst he
        exact Or.inl (Function.update_self _ _ _)
      · refine h.owner_of_move (by simp [hphase]) i hi fun hnone => hobj ?_
        exact (Function.update_of_ne (setup.objectKey_injective.ne he) _ _).trans hnone
  | insert hphase =>
    rename_i id now
    refine ⟨h.deleted, fun i hi hobj => ?_⟩
    by_cases he : i = id
    · subst he
      exact Or.inr ⟨setup.captureRow i now, List.mem_append_right _ (List.mem_singleton_self _), setup.context_id i⟩
    · rcases h.owner i hi hobj with hins | ⟨r, hr, hid⟩
      · exact Or.inl ((Function.update_of_ne he _ _).trans hins)
      · exact Or.inr ⟨r, List.mem_append_left _ hr, hid⟩
  | deny _ | selectNone _ _ | selectSome _ _ => exact ⟨nofun, h.owner⟩
  | deleteObject hphase =>
    rename_i id batch
    refine ⟨fun i batch' hpurge => ?_, fun i hi hobj => h.owner i hi fun hnone => hobj ?_⟩
    · cases hpurge
      exact Function.update_self _ _ _
    · by_cases he : i = id
      · subst he
        exact Function.update_self _ _ _
      · exact (Function.update_of_ne (setup.objectKey_injective.ne he) _ _).trans hnone
  | deleteRow hphase =>
    rename_i id batch
    refine ⟨fun i batch' hpurge => ?_, fun i hi hobj => ?_⟩
    · cases batch <;> cases hpurge
    · refine (h.owner i hi hobj).imp_right fun ⟨r, hr, hid⟩ => ⟨r, List.mem_filter.mpr ⟨hr, ?_⟩, hid⟩
      refine decide_eq_true fun he => hobj ?_
      rw [← hid, he]
      exact h.deleted id batch hphase

end Setup.Owned

namespace Setup.Closed

theorem start (hinit : Initial setup s₀) : setup.Closed s₀ where
  denylist_tree := hinit.denylist_tree
  denied hpurge := absurd hinit.purge_eq hpurge
  no_row hpurge := by
    rw [hinit.purge_eq] at hpurge
    cases hpurge
  no_job hpurge := by
    rw [hinit.purge_eq] at hpurge
    cases hpurge

/-- A job that does not start its flight leaves the others as they were. -/
private theorem no_job_of_move (h : setup.Closed s) {id : Uuid} {phase : PersistPhase}
    (hphase : phase.InFlight → (s.jobs id).InFlight) (hpurge : s.purge = .finished) :
    ∀ i, setup.Purged ((setup.context i).prefixTree setup.una) → ¬ (Function.update s.jobs id phase i).InFlight := by
  intro i hi hflight
  exact h.no_job hpurge i hi (of_update PersistPhase.InFlight hphase hflight)

/-- Under a denied prefix the policy check refuses. -/
private theorem denied_of_purged (h : setup.Closed s) (hpurge : s.purge ≠ .insertPrefix) {id : Uuid}
    (hid : setup.Purged ((setup.context id).prefixTree setup.una)) :
    s.world.policy.Denied ((setup.context id).prefixKey setup.una) := by
  obtain ⟨r, hr, htree⟩ := h.denied hpurge
  refine ⟨r, hr, ?_⟩
  rw [htree]
  exact hid

private theorem mem_insertDenylistPrefix (denylist : List PolicyRow) (key reason : Bytes)
    (htree : ∀ r ∈ denylist, r.prefixTree = makePrefixTree r.prefixKey) :
    (∀ r ∈ insertDenylistPrefix denylist key reason, r.prefixTree = makePrefixTree r.prefixKey) ∧
      ∃ r ∈ insertDenylistPrefix denylist key reason, r.prefixTree = makePrefixTree key := by
  unfold insertDenylistPrefix
  split
  · rename_i hany
    obtain ⟨r, hr, hkey⟩ := List.any_eq_true.mp hany
    refine ⟨htree, r, hr, ?_⟩
    rw [htree r hr, of_decide_eq_true hkey]
  · refine ⟨fun r hr => ?_, _, List.mem_append_right _ (List.mem_singleton_self _), rfl⟩
    rcases List.mem_append.mp hr with hr | hr
    · exact htree r hr
    · rw [List.mem_singleton.mp hr]

theorem step (h : setup.Closed s) (hok : setup.ClosesAlone s a) (hstep : setup.Step s a t) : setup.Closed t := by
  cases hstep with
  | pass hphase hpass =>
    refine ⟨h.denylist_tree, h.denied, h.no_row, fun hpurge i hi hflight => ?_⟩
    rename_i id now
    by_cases he : i = id
    · subst he
      exact hpass (h.denied_of_purged (by rw [hpurge]; exact nofun) hi)
    · have hflight : (Function.update s.jobs id .hashLookup i).InFlight := hflight
      rw [Function.update_of_ne he] at hflight
      exact h.no_job hpurge i hi hflight
  | refuse _ _ | reuse _ _ =>
    exact ⟨h.denylist_tree, h.denied, h.no_row, h.no_job_of_move (by simp [PersistPhase.InFlight])⟩
  | miss hphase _ | put hphase =>
    exact ⟨h.denylist_tree, h.denied, h.no_row, h.no_job_of_move (by simp [hphase, PersistPhase.InFlight])⟩
  | insert hphase =>
    rename_i id now
    refine ⟨h.denylist_tree, h.denied, fun hpurge r hr => ?_, h.no_job_of_move (by simp [PersistPhase.InFlight])⟩
    rcases List.mem_append.mp hr with hr | hr
    · exact h.no_row hpurge r hr
    · rw [List.mem_singleton.mp hr]
      exact fun hi => h.no_job hpurge id hi (by simp [hphase, PersistPhase.InFlight])
  | deny _ =>
    obtain ⟨htree, hrow⟩ := mem_insertDenylistPrefix s.world.policy.denylist setup.purgedPrefix (ascii "deny_and_purge")
      h.denylist_tree
    exact ⟨htree, fun _ => hrow, nofun, nofun⟩
  | selectNone hphase hnone =>
    exact ⟨h.denylist_tree, fun _ => h.denied (by simp [hphase]), fun _ => hnone, fun _ => hok rfl hphase hnone⟩
  | selectSome hphase _ | deleteObject hphase =>
    exact ⟨h.denylist_tree, fun _ => h.denied (by simp [hphase]), nofun, nofun⟩
  | deleteRow hphase =>
    rename_i id batch
    refine ⟨h.denylist_tree, fun _ => h.denied (by simp [hphase]), fun hpurge => ?_, fun hpurge => ?_⟩
    · cases batch <;> cases hpurge
    · cases batch <;> cases hpurge

end Setup.Closed

/-- In every run in which the purge ends its loop only while no job under the prefix is in flight:
once the purge has finished and no job is under way, nothing of the prefix is left. -/
theorem purge_final_of_closes_alone (setup : Setup) {s₀ s : System} {actions : List Action} (hinit : Initial setup s₀)
    (hrun : Run setup.step setup.ClosesAlone s₀ actions s) (hpurge : s.purge = .finished)
    (hidle : ∀ id, ¬ (s.jobs id).InFlight) : setup.Clean s₀ s := by
  have hinv : setup.Origins s₀ s ∧ setup.Owned s₀ s ∧ setup.Closed s := by
    refine hrun.invariant (fun s => setup.Origins s₀ s ∧ setup.Owned s₀ s ∧ setup.Closed s)
      ⟨.start hinit, .start hinit, .start hinit⟩ fun s a t hok hstep ⟨ho, hw, hc⟩ => ?_
    have hstep := Setup.step_eq_some_iff.mp hstep
    exact ⟨ho.step hstep, hw.step ho hstep, hc.step hok hstep⟩
  obtain ⟨horigins, howned, hclosed⟩ := hinv
  have hrow (id : Uuid) (hid : s₀.jobs id = .policyCheck ∨ ∃ r ∈ s₀.world.captures, r.id = id)
      (hobj : s.world.objects (setup.objectKey id) ≠ none) :
      ∃ r ∈ s.world.captures, r.id = id ∧ ¬ setup.Purged r.prefixTree := by
    rcases howned.owner id hid hobj with hins | ⟨r, hr, rfl⟩
    · exact absurd (Or.inr (Or.inr hins)) (hidle id)
    · exact ⟨r, hr, rfl, hclosed.no_row hpurge r hr⟩
  refine ⟨hclosed.no_row hpurge, fun r hr htree => ?_, fun id hid htree => ?_⟩
  · by_contra hobj
    obtain ⟨r', hr', hid, hnot⟩ := hrow r.id (Or.inr ⟨r, hr, rfl⟩) hobj
    rcases horigins.row_origin r' hr' with hold | ⟨hjob, _⟩
    · rw [List.inj_on_of_nodup_map hinit.ids_nodup hold hr hid] at hnot
      exact hnot htree
    · exact hinit.fresh_row r'.id hjob r hr hid.symm
  · by_contra hobj
    obtain ⟨r', hr', rfl, hnot⟩ := hrow id (Or.inl hid) hobj
    rcases horigins.row_origin r' hr' with hold | ⟨_, heq⟩
    · exact hinit.fresh_row r'.id hid r' hold rfl
    · exact hnot (heq ▸ htree)

private theorem closesAlone_of_idle (h : ∀ id, ¬ (s.jobs id).InFlight) : setup.ClosesAlone s a :=
  fun _ _ _ id _ => h id

private theorem closesAlone_of_job {id : Uuid} {now : TimePoint} : setup.ClosesAlone s (.job id now) := nofun

private theorem sampleStart_idle (id : Uuid) : ¬ (sampleStart.jobs id).InFlight := by
  rcases sampleStart_initial.jobs_eq id with h | h <;> simp [h, PersistPhase.InFlight]

private theorem sample_idle_update {phase : PersistPhase} (id : Uuid) (hphase : ¬ phase.InFlight) :
    ∀ i, ¬ (Function.update sampleStart.jobs id phase i).InFlight :=
  forall_jobs_update (P := (¬ ·.InFlight)) sampleStart_idle id hphase

/-- A stored capture is purged, and the job that comes after it is refused. -/
theorem purge_final_small :
    ∃ actions s, Run sampleSetup.step sampleSetup.ClosesAlone sampleStart actions s ∧
      s.jobs (smallUuid 1) = .finished (some ⟨smallUuid 1, 3⟩) ∧ s.jobs (smallUuid 2) = .finished none ∧
      sampleSetup.Clean sampleStart s := by
  have hpass := sampleStart_not_denied ((sampleSetup.context (smallUuid 1)).prefixKey sampleSetup.una)
  have hids : getCaptureIdsByPrefixTree [sampleSetup.captureRow (smallUuid 1) 3] sampleSetup.purgedTree
      sampleSetup.purgeDeleteBatchSize = [smallUuid 1] := by
    decide +kernel
  have hempty : [sampleSetup.captureRow (smallUuid 1) 3].filter (·.id ≠ smallUuid 1) = [] := by
    rfl
  have hdenied : (PolicyTables.mk (insertDenylistPrefix [] sampleSetup.purgedPrefix (ascii "deny_and_purge")) []).Denied
      ((sampleSetup.context (smallUuid 2)).prefixKey sampleSetup.una) :=
    ⟨_, List.mem_singleton_self _, by decide +kernel⟩
  have hrun : ∃ s, Run sampleSetup.step sampleSetup.ClosesAlone sampleStart
      [.job (smallUuid 1) 0, .job (smallUuid 1) 1, .job (smallUuid 1) 2, .job (smallUuid 1) 3, .purge, .purge, .purge,
        .purge, .purge, .job (smallUuid 2) 4] s ∧
      s.purge = .finished ∧ s.jobs = Function.update (Function.update sampleStart.jobs (smallUuid 1)
        (.finished (some ⟨smallUuid 1, 3⟩))) (smallUuid 2) (.finished none) := by
    refine ⟨_, .cons closesAlone_of_job (Setup.step_eq_some_iff.mpr (.pass rfl hpass)) <|
      .cons closesAlone_of_job (Setup.step_eq_some_iff.mpr (.miss rfl fun _ hr => nomatch hr)) <|
      .cons closesAlone_of_job (Setup.step_eq_some_iff.mpr (.put rfl)) <|
      .cons closesAlone_of_job (Setup.step_eq_some_iff.mpr (.insert rfl)) <|
      .cons (closesAlone_of_idle ?_) (Setup.step_eq_some_iff.mpr (.deny rfl)) <|
      .cons (closesAlone_of_idle ?_) (Setup.step_eq_some_iff.mpr (.selectSome rfl hids)) <|
      .cons (closesAlone_of_idle ?_) (Setup.step_eq_some_iff.mpr (.deleteObject rfl)) <|
      .cons (closesAlone_of_idle ?_) (Setup.step_eq_some_iff.mpr (.deleteRow rfl)) <|
      .cons (closesAlone_of_idle ?_) (Setup.step_eq_some_iff.mpr (.selectNone rfl ?_)) <|
      .cons closesAlone_of_job (Setup.step_eq_some_iff.mpr (.refuse rfl hdenied)) <|
      .nil _, rfl, ?_⟩
    case refine_6 => exact fun r hr => absurd (hempty ▸ hr : r ∈ []) List.not_mem_nil
    case refine_7 =>
      simp only [Function.update_idem]
      rfl
    all_goals
      simp only [Function.update_idem]
      exact sample_idle_update _ (by simp [PersistPhase.InFlight])
  obtain ⟨s, hrun, hpurge, hjobs⟩ := hrun
  refine ⟨_, s, hrun, ?_, ?_, purge_final_of_closes_alone sampleSetup sampleStart_initial hrun hpurge ?_⟩
  · rw [hjobs]
    rfl
  · rw [hjobs]
    rfl
  · rw [hjobs]
    refine forall_jobs_update (P := (¬ ·.InFlight)) (sample_idle_update _ ?_) _ ?_
    · simp [PersistPhase.InFlight]
    · simp [PersistPhase.InFlight]

/-- A job that passed its check before the prefix was denied stores after the purge has finished. -/
theorem stored_after_purge :
    Initial sampleSetup sampleStart ∧ ∃ actions s, Run sampleSetup.step always sampleStart actions s ∧
      s.purge = .finished ∧ (∀ id, ¬ (s.jobs id).InFlight) ∧ (∃ r ∈ s.world.captures, sampleSetup.Purged r.prefixTree) ∧
      s.world.objects (sampleSetup.objectKey (smallUuid 1)) ≠ none := by
  have hpass := sampleStart_not_denied ((sampleSetup.context (smallUuid 1)).prefixKey sampleSetup.una)
  refine ⟨sampleStart_initial,
    [.job (smallUuid 1) 0, .purge, .purge, .job (smallUuid 1) 1, .job (smallUuid 1) 2, .job (smallUuid 1) 3], _,
    .cons trivial (Setup.step_eq_some_iff.mpr (.pass rfl hpass)) <|
      .cons trivial (Setup.step_eq_some_iff.mpr (.deny rfl)) <|
      .cons trivial (Setup.step_eq_some_iff.mpr (.selectNone rfl fun _ hr => nomatch hr)) <|
      .cons trivial (Setup.step_eq_some_iff.mpr (.miss rfl fun _ hr => nomatch hr)) <|
      .cons trivial (Setup.step_eq_some_iff.mpr (.put rfl)) <|
      .cons trivial (Setup.step_eq_some_iff.mpr (.insert rfl)) <| .nil _, rfl, ?_, ?_, ?_⟩
  · simp only [Function.update_idem]
    exact sample_idle_update _ (by simp [PersistPhase.InFlight])
  · refine ⟨sampleSetup.captureRow (smallUuid 1) 3, List.mem_singleton_self _, ?_⟩
    show ltreeAncestor _ _ = true
    decide +kernel
  · decide

end Webshot.Capture
