import Webshot.Capture.PersistAndPurge

/-! Content de-duplication: when concurrent jobs cannot store the same content of a link twice. -/
namespace Webshot.Capture
open Text Storage Access Foundation.TransitionRuns

/-- Two rows hold the same content of the same link. -/
def CaptureRow.SameContent (a b : CaptureRow) : Prop := a.link = b.link ∧ a.contentSha256 = b.contentSha256

instance (a b : CaptureRow) : Decidable (a.SameContent b) := inferInstanceAs (Decidable (_ ∧ _))

def NoDuplicates (captures : List CaptureRow) : Prop := captures.Pairwise fun a b => ¬ a.SameContent b

instance (captures : List CaptureRow) : Decidable (NoDuplicates captures) :=
  inferInstanceAs (Decidable (captures.Pairwise _))

namespace Setup
variable (setup : Setup)

/-- Two jobs carry the same content of the same link. -/
def SameContent (id id' : Uuid) : Prop :=
  (setup.context id).linkKey setup.una = (setup.context id').linkKey setup.una ∧
    (setup.context id).contentSha256 = (setup.context id').contentSha256

/-- A job looks its content up only while no other job with the same content is storing. -/
def LookupAlone (s : System) (a : Action) : Prop :=
  ∀ id now, a = .job id now → s.jobs id = .hashLookup →
    ∀ id', id' ≠ id → setup.SameContent id id' → ¬ (s.jobs id').Storing

/-- The rows are distinct, no job that is storing has its content in the table, and no two of them
have the same. -/
structure DedupInvariant (s : System) : Prop where
  rows : NoDuplicates s.world.captures
  missing : ∀ id, (s.jobs id).Storing → ∀ r ∈ s.world.captures,
    ¬ (r.link = (setup.context id).linkKey setup.una ∧ r.contentSha256 = (setup.context id).contentSha256)
  alone : ∀ id id', id ≠ id' → (s.jobs id).Storing → (s.jobs id').Storing → ¬ setup.SameContent id id'

end Setup

theorem Setup.SameContent.symm {setup : Setup} {id id' : Uuid} (h : setup.SameContent id id') :
    setup.SameContent id' id :=
  ⟨h.1.symm, h.2.symm⟩

theorem Initial.not_storing {setup : Setup} {s : System} (h : Initial setup s) (id : Uuid) : ¬ (s.jobs id).Storing := by
  rcases h.jobs_eq id with hid | hid <;> simp [hid, PersistPhase.Storing]

namespace Setup.DedupInvariant
variable {setup : Setup} {s t : System} {a : Action}

private theorem not_storing_finished {stored : Option StoredCapture} : ¬ (PersistPhase.finished stored).Storing := by
  simp [PersistPhase.Storing]

private theorem storing_of_ne {id i : Uuid} {phase : PersistPhase} (hid : i ≠ id)
    (hi : (Function.update s.jobs id phase i).Storing) : (s.jobs i).Storing := by
  rwa [Function.update_of_ne hid] at hi

/-- After a move of one job, the others store as before, and the job itself only if the move lets it. -/
private theorem storing_update {id i : Uuid} {phase : PersistPhase} (hphase : phase.Storing → (s.jobs id).Storing)
    (hi : (Function.update s.jobs id phase i).Storing) : (s.jobs i).Storing :=
  of_update PersistPhase.Storing hphase hi

/-- A move that starts no storing keeps the invariant. -/
private theorem move (h : setup.DedupInvariant s) (id : Uuid) {phase : PersistPhase}
    (hphase : phase.Storing → (s.jobs id).Storing) (objects : Bytes → Option Bytes) :
    setup.DedupInvariant { s with world.objects := objects, jobs := Function.update s.jobs id phase } where
  rows := h.rows
  missing i hi := h.missing i (storing_update hphase hi)
  alone i j hne hi hj := h.alone i j hne (storing_update hphase hi) (storing_update hphase hj)

/-- A lookup that finds nothing, with no other job of the same content storing. -/
private theorem start (h : setup.DedupInvariant s) {id : Uuid}
    (hmiss : ∀ r ∈ s.world.captures, ¬ (r.link = (setup.context id).linkKey setup.una ∧
      r.contentSha256 = (setup.context id).contentSha256))
    (hother : ∀ id', id' ≠ id → setup.SameContent id id' → ¬ (s.jobs id').Storing) :
    setup.DedupInvariant { s with jobs := Function.update s.jobs id .upload } where
  rows := h.rows
  missing i hi := by
    by_cases hid : i = id
    · subst hid
      exact hmiss
    · exact h.missing i (storing_of_ne hid hi)
  alone i j hne hi hj := by
    by_cases hid : i = id
    · subst hid
      exact fun hsame => hother j hne.symm hsame (storing_of_ne hne.symm hj)
    · by_cases hjd : j = id
      · subst hjd
        exact fun hsame => hother i hne hsame.symm (storing_of_ne hid hi)
      · exact h.alone i j hne (storing_of_ne hid hi) (storing_of_ne hjd hj)

/-- The row inserted is new, and no other job that is storing has its content. -/
private theorem insertRow (h : setup.DedupInvariant s) {id : Uuid} (hphase : s.jobs id = .insertRow) (now : TimePoint)
    (stored : Option StoredCapture) :
    setup.DedupInvariant { s with
      world.captures := s.world.captures ++ [setup.captureRow id now]
      jobs := Function.update s.jobs id (.finished stored) } where
  rows := by
    refine List.pairwise_append.mpr ⟨h.rows, List.pairwise_singleton _ _, ?_⟩
    intro r hr r' hr' hsame
    rw [List.mem_singleton.mp hr'] at hsame
    exact h.missing id (Or.inr hphase) r hr hsame
  missing i hi r hr := by
    have hold : (s.jobs i).Storing := storing_update (fun h0 => absurd h0 not_storing_finished) hi
    have hid : i ≠ id := by
      rintro rfl
      have hnot : (Function.update s.jobs i (.finished stored) i).Storing := hi
      rw [Function.update_self] at hnot
      exact not_storing_finished hnot
    rcases List.mem_append.mp hr with hr | hr
    · exact h.missing i hold r hr
    · rw [List.mem_singleton.mp hr]
      exact fun hsame => h.alone id i hid.symm (Or.inr hphase) hold hsame
  alone i j hne hi hj :=
    h.alone i j hne (storing_update (fun h0 => absurd h0 not_storing_finished) hi)
      (storing_update (fun h0 => absurd h0 not_storing_finished) hj)

theorem step (hok : setup.LookupAlone s a) (hstep : setup.step s a = some t) (h : setup.DedupInvariant s) :
    setup.DedupInvariant t := by
  cases Setup.step_eq_some_iff.mp hstep with
  | pass _ _ => exact h.move _ (by simp [PersistPhase.Storing]) s.world.objects
  | refuse _ _ => exact h.move _ (fun h0 => absurd h0 not_storing_finished) s.world.objects
  | reuse _ _ => exact h.move _ (fun h0 => absurd h0 not_storing_finished) s.world.objects
  | miss hphase hmiss => exact h.start hmiss (hok _ _ rfl hphase)
  | put hphase => exact h.move _ (fun _ => Or.inl hphase) _
  | insert hphase => exact h.insertRow hphase _ _
  | deny _ => exact ⟨h.rows, h.missing, h.alone⟩
  | selectNone _ _ => exact ⟨h.rows, h.missing, h.alone⟩
  | selectSome _ _ => exact ⟨h.rows, h.missing, h.alone⟩
  | deleteObject _ => exact ⟨h.rows, h.missing, h.alone⟩
  | deleteRow _ =>
    exact ⟨h.rows.sublist List.filter_sublist, fun i hi r hr => h.missing i hi r (List.mem_of_mem_filter hr), h.alone⟩

end Setup.DedupInvariant

/-- From a table without duplicates, in every run in which each lookup is made while no other job
with the same content is storing, no two rows ever hold the same content of the same link. -/
theorem no_duplicates_of_lookups_alone (setup : Setup) {s₀ s : System} {actions : List Action}
    (hinit : Initial setup s₀) (hrows : NoDuplicates s₀.world.captures)
    (hrun : Run setup.step setup.LookupAlone s₀ actions s) :
    NoDuplicates s.world.captures := by
  have hstart : setup.DedupInvariant s₀ :=
    ⟨hrows, fun id h => absurd h (hinit.not_storing id), fun id _ _ h => absurd h (hinit.not_storing id)⟩
  exact (hrun.invariant setup.DedupInvariant hstart fun _ _ _ hok hstep h => Setup.DedupInvariant.step hok hstep h).rows

/-- A lookup while no job at all is storing. -/
private theorem lookupAlone_of_idle {setup : Setup} {s : System} {a : Action} (h : ∀ id, ¬ (s.jobs id).Storing) :
    setup.LookupAlone s a :=
  fun _ _ _ _ id' _ _ => h id'

/-- A step that is no lookup. -/
private theorem lookupAlone_of_ne {setup : Setup} {s : System} {id : Uuid} {now : TimePoint}
    (h : s.jobs id ≠ .hashLookup) : setup.LookupAlone s (.job id now) := by
  intro id' now' ha hphase
  cases ha
  exact absurd hphase h

/-- One job stores its content, and the other then finds it. -/
theorem no_duplicates_small :
    ∃ actions s, Run sampleSetup.step sampleSetup.LookupAlone sampleStart actions s ∧
      s.jobs (smallUuid 2) = .finished (some ⟨smallUuid 1, 3⟩) ∧ NoDuplicates s.world.captures := by
  have hidle := sampleStart_initial.not_storing
  have hdenied := sampleStart_not_denied ((sampleSetup.context (smallUuid 1)).prefixKey sampleSetup.una)
  have hfind : findCaptureByLinkHash [sampleSetup.captureRow (smallUuid 1) 3]
      ((sampleSetup.context (smallUuid 2)).linkKey sampleSetup.una) (sampleSetup.context (smallUuid 2)).contentSha256 =
        some ⟨smallUuid 1, 3⟩ := by
    decide +kernel
  have hrun : ∃ s, Run sampleSetup.step sampleSetup.LookupAlone sampleStart
      [.job (smallUuid 1) 0, .job (smallUuid 1) 1, .job (smallUuid 1) 2, .job (smallUuid 1) 3, .job (smallUuid 2) 4,
        .job (smallUuid 2) 5] s ∧
      s.jobs (smallUuid 2) = .finished (some ⟨smallUuid 1, 3⟩) := by
    refine ⟨_, .cons (lookupAlone_of_idle hidle) (Setup.step_eq_some_iff.mpr (.pass rfl hdenied)) <|
      .cons (lookupAlone_of_idle ?_) (Setup.step_eq_some_iff.mpr (.miss rfl fun _ hr => nomatch hr)) <|
      .cons (lookupAlone_of_ne (by decide)) (Setup.step_eq_some_iff.mpr (.put rfl)) <|
      .cons (lookupAlone_of_ne (by decide)) (Setup.step_eq_some_iff.mpr (.insert rfl)) <|
      .cons (lookupAlone_of_ne (by decide)) (Setup.step_eq_some_iff.mpr (.pass rfl hdenied)) <|
      .cons (lookupAlone_of_idle ?_) (Setup.step_eq_some_iff.mpr (.reuse rfl hfind)) <|
      .nil _, ?_⟩
    · exact forall_jobs_update (P := (¬ ·.Storing)) hidle _ (by simp [PersistPhase.Storing])
    · simp only [Function.update_idem]
      refine forall_jobs_update (P := (¬ ·.Storing)) (forall_jobs_update (P := (¬ ·.Storing)) hidle _ ?_) _ ?_
      · simp [PersistPhase.Storing]
      · simp [PersistPhase.Storing]
    · rfl
  obtain ⟨s, hrun, hlen⟩ := hrun
  exact ⟨_, s, hrun, hlen, no_duplicates_of_lookups_alone sampleSetup sampleStart_initial List.Pairwise.nil hrun⟩

/-- Both jobs look before either inserts. -/
theorem same_content_stored_twice :
    Initial sampleSetup sampleStart ∧ NoDuplicates sampleStart.world.captures ∧
      ∃ actions s, Run sampleSetup.step always sampleStart actions s ∧ ¬ NoDuplicates s.world.captures := by
  have hrace : (execute sampleSetup.step sampleStart
      [.job (smallUuid 1) 0, .job (smallUuid 2) 0, .job (smallUuid 1) 1, .job (smallUuid 2) 1, .job (smallUuid 1) 2,
        .job (smallUuid 2) 2, .job (smallUuid 1) 3, .job (smallUuid 2) 4]).any
      (fun s => !decide (NoDuplicates s.world.captures)) = true := by
    decide +kernel
  obtain ⟨s, hrun, hdup⟩ := Run.exists_of_execute _ hrace
  exact ⟨sampleStart_initial, List.Pairwise.nil, _, s, hrun, by simpa using hdup⟩

end Webshot.Capture
