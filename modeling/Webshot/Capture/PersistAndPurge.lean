import Webshot.Access.PolicyDecisions
import Webshot.Capture.CaptureTable
import Webshot.Foundation.TransitionRuns
import Webshot.Storage.UuidText

/-! Crawl jobs that store their captures while a denied prefix is purged: every database and
object store operation is one atomic step, and the steps of all parties interleave. -/
namespace Webshot.Capture
open Text Storage Access Foundation.OrderedSelect

def makeCaptureObjectKey (bucket : Bytes) (id : Uuid) : Bytes :=
  bucket ++ ascii "/" ++ uuidText id ++ ascii ".wacz"

theorem makeCaptureObjectKey_injective (bucket : Bytes) : Function.Injective (makeCaptureObjectKey bucket) := by
  intro id id' h
  have h' := List.append_left_injective _ h
  rw [List.append_assoc, List.append_assoc] at h'
  exact uuidText_injective (List.append_right_injective _ (List.append_right_injective _ h'))

/-- What a finished crawl hands to `PersistMetadataForContext`. -/
structure CrawlContext where
  id : Uuid
  link : Link
  contentSha256 : Sha256
  waczBytes : Bytes
  replayUrl : Bytes

namespace CrawlContext
variable (una : UniAlgo) (ctx : CrawlContext)

def linkKey : Bytes := (ctx.link.toKey una).getD []
def prefixKey : Bytes := (makePrefixKey una ctx.link).getD []
def prefixTree : Bytes := makePrefixTree (ctx.prefixKey una)

end CrawlContext

/-- The two databases and the object store. -/
structure World where
  policy : PolicyTables
  captures : List CaptureRow
  objects : Bytes → Option Bytes

/-- `select … where link = $1 and content_sha256 = $2 order by created_at desc, id asc limit 1`. -/
def findCaptureByLinkHash (captures : List CaptureRow) (linkKey : Bytes) (contentSha256 : Sha256) :
    Option CaptureMetaIdRow :=
  (select CaptureMetaIdRow.newestFirst (fun _ => true) 1
    ((captures.filter fun r => r.link = linkKey && r.contentSha256 = contentSha256).map
      fun r => ⟨r.id, r.createdAt⟩)).head?

/-- `select id … where prefix_tree <@ text2ltree($1) order by created_at desc, id asc limit $2`. -/
def getCaptureIdsByPrefixTree (captures : List CaptureRow) (tree : Bytes) (limit : Nat) : List Uuid :=
  (select CaptureMetaIdRow.newestFirst (fun _ => true) limit
    ((captures.filter fun r => ltreeAncestor tree r.prefixTree).map fun r => ⟨r.id, r.createdAt⟩)).map (·.uuid)

/-- `insert … on conflict (prefix_key) do nothing`. -/
def insertDenylistPrefix (denylist : List PolicyRow) (prefixKey reason : Bytes) : List PolicyRow :=
  if denylist.any (·.prefixKey = prefixKey) then denylist
  else denylist ++ [⟨prefixKey, makePrefixTree prefixKey, reason⟩]

structure StoredCapture where
  id : Uuid
  createdAt : TimePoint
  deriving DecidableEq

/-- Which operation of `PersistMetadataForContext` comes next. -/
inductive PersistPhase where
  | policyCheck
  | hashLookup
  | upload
  | insertRow
  | finished (stored : Option StoredCapture)
  deriving DecidableEq

/-- Which operation of `DenyPrefixAndPurge` comes next; a batch is worked off one id at a time. -/
inductive PurgePhase where
  | insertPrefix
  | selectBatch
  | deleteObject (id : Uuid) (batch : List Uuid)
  | deleteRow (id : Uuid) (batch : List Uuid)
  | finished
  deriving DecidableEq

/-- What stays fixed during a run: the bucket, the purged prefix, and a context for every job id. -/
structure Setup where
  una : UniAlgo
  bucket : Bytes
  purgedPrefix : Bytes
  purgeDeleteBatchSize : Nat
  purgeDeleteBatchSize_pos : 0 < purgeDeleteBatchSize
  context : Uuid → CrawlContext
  context_id : ∀ id, (context id).id = id

namespace Setup
variable (setup : Setup)

def objectKey (id : Uuid) : Bytes := makeCaptureObjectKey setup.bucket id

def purgedTree : Bytes := makePrefixTree setup.purgedPrefix

/-- A prefix tree is the purged one or below it. -/
def Purged (tree : Bytes) : Prop := ltreeAncestor setup.purgedTree tree = true

/-- The row a job inserts; `created_at` is the database's `now()`. -/
def captureRow (id : Uuid) (now : TimePoint) : CaptureRow where
  id := (setup.context id).id
  createdAt := now
  link := (setup.context id).linkKey setup.una
  replayUrl := (setup.context id).replayUrl
  prefixKey := (setup.context id).prefixKey setup.una
  prefixTree := (setup.context id).prefixTree setup.una
  contentSha256 := (setup.context id).contentSha256

/-- One operation of `PersistMetadataForContext`, with every operation succeeding. -/
def persistStep (id : Uuid) (now : TimePoint) (w : World) : PersistPhase → Option (World × PersistPhase)
  | .policyCheck =>
    match w.policy.repo.persistPolicy ((setup.context id).prefixKey setup.una) with
    | .passed => some (w, .hashLookup)
    | _ => some (w, .finished none)
  | .hashLookup =>
    match findCaptureByLinkHash w.captures ((setup.context id).linkKey setup.una) (setup.context id).contentSha256 with
    | some row => some (w, .finished (some ⟨row.uuid, row.createdAt⟩))
    | none => some (w, .upload)
  | .upload =>
    some ({ w with objects := Function.update w.objects (setup.objectKey id) (some (setup.context id).waczBytes) },
      .insertRow)
  | .insertRow =>
    some ({ w with captures := w.captures ++ [setup.captureRow id now] }, .finished (some ⟨(setup.context id).id, now⟩))
  | .finished _ => none

/-- What follows a selected or partly deleted batch: its next id, or another selection. -/
def nextOfBatch : List Uuid → PurgePhase
  | [] => .selectBatch
  | id :: batch => .deleteObject id batch

/-- One operation of `DenyPrefixAndPurge`, with every operation succeeding. -/
def purgeStep (w : World) : PurgePhase → Option (World × PurgePhase)
  | .insertPrefix =>
    some ({ w with
      policy.denylist := insertDenylistPrefix w.policy.denylist setup.purgedPrefix (ascii "deny_and_purge") },
      .selectBatch)
  | .selectBatch =>
    match getCaptureIdsByPrefixTree w.captures setup.purgedTree setup.purgeDeleteBatchSize with
    | [] => some (w, .finished)
    | id :: batch => some (w, .deleteObject id batch)
  | .deleteObject id batch =>
    some ({ w with objects := Function.update w.objects (setup.objectKey id) none }, .deleteRow id batch)
  | .deleteRow id batch => some ({ w with captures := w.captures.filter (·.id ≠ id) }, nextOfBatch batch)
  | .finished => none

end Setup

structure System where
  world : World
  jobs : Uuid → PersistPhase
  purge : PurgePhase

inductive Action where
  | job (id : Uuid) (now : TimePoint)
  | purge
  deriving DecidableEq

/-- One atomic step of one party. -/
def Setup.step (setup : Setup) (s : System) : Action → Option System
  | .job id now =>
    (setup.persistStep id now s.world (s.jobs id)).map fun r =>
      { s with world := r.1, jobs := Function.update s.jobs id r.2 }
  | .purge => (setup.purgeStep s.world s.purge).map fun r => { s with world := r.1, purge := r.2 }

/-- What the parties can do, one constructor for each outcome of an operation. -/
inductive Setup.Step (setup : Setup) : System → Action → System → Prop where
  | pass {s : System} {id : Uuid} {now : TimePoint} : s.jobs id = .policyCheck →
      ¬ s.world.policy.Denied ((setup.context id).prefixKey setup.una) →
      Step setup s (.job id now) { s with jobs := Function.update s.jobs id .hashLookup }
  | refuse {s : System} {id : Uuid} {now : TimePoint} : s.jobs id = .policyCheck →
      s.world.policy.Denied ((setup.context id).prefixKey setup.una) →
      Step setup s (.job id now) { s with jobs := Function.update s.jobs id (.finished none) }
  | reuse {s : System} {id : Uuid} {now : TimePoint} {row : CaptureMetaIdRow} : s.jobs id = .hashLookup →
      findCaptureByLinkHash s.world.captures ((setup.context id).linkKey setup.una) (setup.context id).contentSha256 =
        some row →
      Step setup s (.job id now) { s with
        jobs := Function.update s.jobs id (.finished (some ⟨row.uuid, row.createdAt⟩)) }
  | miss {s : System} {id : Uuid} {now : TimePoint} : s.jobs id = .hashLookup →
      (∀ r ∈ s.world.captures, ¬ (r.link = (setup.context id).linkKey setup.una ∧
        r.contentSha256 = (setup.context id).contentSha256)) →
      Step setup s (.job id now) { s with jobs := Function.update s.jobs id .upload }
  | put {s : System} {id : Uuid} {now : TimePoint} : s.jobs id = .upload →
      Step setup s (.job id now) { s with
        world.objects := Function.update s.world.objects (setup.objectKey id) (some (setup.context id).waczBytes)
        jobs := Function.update s.jobs id .insertRow }
  | insert {s : System} {id : Uuid} {now : TimePoint} : s.jobs id = .insertRow →
      Step setup s (.job id now) { s with
        world.captures := s.world.captures ++ [setup.captureRow id now]
        jobs := Function.update s.jobs id (.finished (some ⟨(setup.context id).id, now⟩)) }
  | deny {s : System} : s.purge = .insertPrefix →
      Step setup s .purge { s with
        world.policy.denylist :=
          insertDenylistPrefix s.world.policy.denylist setup.purgedPrefix (ascii "deny_and_purge")
        purge := .selectBatch }
  | selectNone {s : System} : s.purge = .selectBatch → (∀ r ∈ s.world.captures, ¬ setup.Purged r.prefixTree) →
      Step setup s .purge { s with purge := .finished }
  | selectSome {s : System} {id : Uuid} {batch : List Uuid} : s.purge = .selectBatch →
      getCaptureIdsByPrefixTree s.world.captures setup.purgedTree setup.purgeDeleteBatchSize = id :: batch →
      Step setup s .purge { s with purge := .deleteObject id batch }
  | deleteObject {s : System} {id : Uuid} {batch : List Uuid} : s.purge = .deleteObject id batch →
      Step setup s .purge { s with
        world.objects := Function.update s.world.objects (setup.objectKey id) none
        purge := .deleteRow id batch }
  | deleteRow {s : System} {id : Uuid} {batch : List Uuid} : s.purge = .deleteRow id batch →
      Step setup s .purge { s with
        world.captures := s.world.captures.filter (·.id ≠ id)
        purge := Setup.nextOfBatch batch }

theorem findCaptureByLinkHash_eq_none_iff (captures : List CaptureRow) (linkKey : Bytes) (contentSha256 : Sha256) :
    findCaptureByLinkHash captures linkKey contentSha256 = none ↔
      ∀ r ∈ captures, ¬ (r.link = linkKey ∧ r.contentSha256 = contentSha256) := by
  rw [findCaptureByLinkHash, List.head?_eq_none_iff, select_eq_nil_iff, List.forall_mem_map]
  simp

theorem mem_getCaptureIdsByPrefixTree {captures : List CaptureRow} {tree : Bytes} {limit : Nat} {id : Uuid}
    (h : id ∈ getCaptureIdsByPrefixTree captures tree limit) :
    ∃ r ∈ captures, r.id = id ∧ ltreeAncestor tree r.prefixTree = true := by
  obtain ⟨m, hm, rfl⟩ := List.mem_map.mp h
  obtain ⟨r, hr, rfl⟩ := List.mem_map.mp (mem_of_mem_select hm).1
  obtain ⟨hr, htree⟩ := List.mem_filter.mp hr
  exact ⟨r, hr, rfl, htree⟩

theorem getCaptureIdsByPrefixTree_eq_nil_iff (captures : List CaptureRow) (tree : Bytes) {limit : Nat}
    (hlimit : 0 < limit) :
    getCaptureIdsByPrefixTree captures tree limit = [] ↔
      ∀ r ∈ captures, ¬ ltreeAncestor tree r.prefixTree = true := by
  rw [getCaptureIdsByPrefixTree, List.map_eq_nil_iff, select_eq_nil_iff, List.forall_mem_map]
  simp [hlimit.ne']

private theorem job_spec {setup : Setup} {s : System} {id : Uuid} {now : TimePoint} {w : World} {phase : PersistPhase}
    (h : setup.persistStep id now s.world (s.jobs id) = some (w, phase)) :
    setup.Step s (.job id now) { s with world := w, jobs := Function.update s.jobs id phase } := by
  cases hphase : s.jobs id with
  | policyCheck =>
    have hiff := PolicyTables.persistPolicy_passed_iff s.world.policy ((setup.context id).prefixKey setup.una)
    simp only [Setup.persistStep, hphase] at h
    split at h
    · rename_i hpass
      cases h
      exact .pass hphase (hiff.mp hpass)
    · rename_i hpass
      cases h
      refine .refuse hphase (not_not.mp fun hd => hpass (hiff.mpr hd))
  | hashLookup =>
    simp only [Setup.persistStep, hphase] at h
    split at h
    · rename_i row hrow
      cases h
      exact .reuse hphase hrow
    · rename_i hnone
      cases h
      exact .miss hphase ((findCaptureByLinkHash_eq_none_iff _ _ _).mp hnone)
  | upload =>
    simp only [Setup.persistStep, hphase] at h
    cases h
    exact .put hphase
  | insertRow =>
    simp only [Setup.persistStep, hphase] at h
    cases h
    exact .insert hphase
  | finished stored =>
    simp only [Setup.persistStep, hphase] at h
    cases h

private theorem purge_spec {setup : Setup} {s : System} {w : World} {phase : PurgePhase}
    (h : setup.purgeStep s.world s.purge = some (w, phase)) :
    setup.Step s .purge { s with world := w, purge := phase } := by
  cases hphase : s.purge with
  | insertPrefix =>
    simp only [Setup.purgeStep, hphase] at h
    cases h
    exact .deny hphase
  | selectBatch =>
    simp only [Setup.purgeStep, hphase] at h
    split at h
    · rename_i hnil
      cases h
      exact .selectNone hphase ((getCaptureIdsByPrefixTree_eq_nil_iff _ _ setup.purgeDeleteBatchSize_pos).mp hnil)
    · rename_i id batch hids
      cases h
      exact .selectSome hphase hids
  | deleteObject id batch =>
    simp only [Setup.purgeStep, hphase] at h
    cases h
    exact .deleteObject hphase
  | deleteRow id batch =>
    simp only [Setup.purgeStep, hphase] at h
    cases h
    exact .deleteRow hphase
  | finished =>
    simp only [Setup.purgeStep, hphase] at h
    cases h

/-- The step function does what the constructors say, and nothing else. -/
theorem Setup.step_eq_some_iff {setup : Setup} {s t : System} {a : Action} :
    setup.step s a = some t ↔ setup.Step s a t := by
  constructor
  · intro h
    cases a with
    | job id now =>
      obtain ⟨⟨w, phase⟩, hstep, rfl⟩ := Option.map_eq_some_iff.mp h
      exact job_spec hstep
    | purge =>
      obtain ⟨⟨w, phase⟩, hstep, rfl⟩ := Option.map_eq_some_iff.mp h
      exact purge_spec hstep
  · intro h
    cases h with
    | pass hphase hpass =>
      have hpolicy := (PolicyTables.persistPolicy_passed_iff _ _).mpr hpass
      simp only [Setup.step, hphase, Setup.persistStep, hpolicy, Option.map_some]
    | refuse hphase hdenied =>
      have hpolicy := fun h => (PolicyTables.persistPolicy_passed_iff _ _).mp h hdenied
      simp only [Setup.step, hphase, Setup.persistStep, Option.map_some]
    | reuse hphase hrow => simp only [Setup.step, hphase, Setup.persistStep, hrow, Option.map_some]
    | miss hphase hmiss =>
      have hnone := (findCaptureByLinkHash_eq_none_iff _ _ _).mpr hmiss
      simp only [Setup.step, hphase, Setup.persistStep, hnone, Option.map_some]
    | selectNone hphase hnone =>
      have hnil := (getCaptureIdsByPrefixTree_eq_nil_iff _ _ setup.purgeDeleteBatchSize_pos).mpr hnone
      simp only [Setup.step, hphase, Setup.purgeStep, hnil, Option.map_some]
    | selectSome hphase hids => simp only [Setup.step, hphase, Setup.purgeStep, hids, Option.map_some]
    | put hphase | insert hphase => simp only [Setup.step, hphase, Setup.persistStep, Option.map_some]
    | deny hphase | deleteObject hphase | deleteRow hphase =>
      simp only [Setup.step, hphase, Setup.purgeStep, Option.map_some]

/-- Before the run: no job has begun, the ids of those that may begin are not in use, and every
denylist row carries the tree of its key. -/
structure Initial (setup : Setup) (s : System) : Prop where
  purge_eq : s.purge = .insertPrefix
  jobs_eq : ∀ id, s.jobs id = .policyCheck ∨ s.jobs id = .finished none
  ids_nodup : (s.world.captures.map CaptureRow.id).Nodup
  fresh_row : ∀ id, s.jobs id = .policyCheck → ∀ r ∈ s.world.captures, r.id ≠ id
  fresh_object : ∀ id, s.jobs id = .policyCheck → s.world.objects (setup.objectKey id) = none
  denylist_tree : ∀ r ∈ s.world.policy.denylist, r.prefixTree = makePrefixTree r.prefixKey

/-- What holds of the phase of every job still does after one of them moved to a phase it holds of. -/
theorem forall_jobs_update {P : PersistPhase → Prop} {jobs : Uuid → PersistPhase} (h : ∀ i, P (jobs i)) (id : Uuid)
    {phase : PersistPhase} (hphase : P phase) : ∀ i, P (Function.update jobs id phase i) :=
  (Function.forall_update_iff jobs fun _ phase => P phase).mpr ⟨hphase, fun i _ => h i⟩

/-- A job stands between its passed policy check and the end of its call. -/
def PersistPhase.InFlight (phase : PersistPhase) : Prop :=
  phase = .hashLookup ∨ phase = .upload ∨ phase = .insertRow

/-- A job has found no capture with its content and has not inserted its own yet. -/
def PersistPhase.Storing (phase : PersistPhase) : Prop := phase = .upload ∨ phase = .insertRow

/-- Every job crawled the same content of `http://a.b/x`, a page of the purged site. -/
def sampleSetup : Setup where
  una := asciiUna
  bucket := ascii "captures"
  purgedPrefix := ascii "b.a"
  purgeDeleteBatchSize := 2
  purgeDeleteBatchSize_pos := by decide
  context id := ⟨id, PolicyTables.overriddenLink, ⟨List.replicate 32 7, by simp⟩, ascii "wacz", ascii "replay"⟩
  context_id _ := rfl

/-- Two jobs are about to store, into an empty table. -/
def sampleStart : System where
  world := ⟨⟨[], []⟩, [], fun _ => none⟩
  jobs id := if id = smallUuid 1 ∨ id = smallUuid 2 then .policyCheck else .finished none
  purge := .insertPrefix

theorem sampleStart_initial : Initial sampleSetup sampleStart where
  purge_eq := rfl
  jobs_eq id := by
    simp only [sampleStart]
    split
    · exact Or.inl rfl
    · exact Or.inr rfl
  ids_nodup := List.nodup_nil
  fresh_row _ _ _ hr := nomatch hr
  fresh_object _ _ := rfl
  denylist_tree _ hr := nomatch hr

theorem sampleStart_not_denied (key : Bytes) : ¬ sampleStart.world.policy.Denied key := by
  rintro ⟨row, hrow, _⟩
  cases hrow

end Webshot.Capture
