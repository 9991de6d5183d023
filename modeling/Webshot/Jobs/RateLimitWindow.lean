import Webshot.Foundation.OrderedSelect
import Webshot.Foundation.TransitionRuns
import Webshot.Jobs.CrawlJobRows

/-! Concurrent `MakeOrReuseCrawlJobLocked` transactions and cleanup passes over one `crawl_job` table,
with every clock reading, lock acquisition, statement and commit a step of its own. -/
namespace Webshot.Jobs
open Text Storage Foundation.OrderedSelect Foundation.TransitionRuns

/-- `created_at desc, id desc`. -/
def CrawlJobRow.latestFirst (a b : CrawlJobRow) : Prop :=
  b.createdAt < a.createdAt ∨ (a.createdAt = b.createdAt ∧ b.id ≤ a.id)

instance : DecidableRel CrawlJobRow.latestFirst := fun a b =>
  inferInstanceAs (Decidable (b.createdAt < a.createdAt ∨ (a.createdAt = b.createdAt ∧ b.id ≤ a.id)))

/-- `select … where link = $1 order by created_at desc, id desc limit 1`. -/
def selectLatestCrawlJobByLink (rows : List CrawlJobRow) (link : Bytes) : Option CrawlJobRow :=
  (select CrawlJobRow.latestFirst (fun r => r.link = link) 1 rows).head?

instance : Std.Total CrawlJobRow.latestFirst :=
  ⟨fun a b => by
    rcases lt_trichotomy a.createdAt b.createdAt with h | h | h
    · exact Or.inr (Or.inl h)
    · rcases le_total a.id b.id with hid | hid
      · exact Or.inr (Or.inr ⟨h.symm, hid⟩)
      · exact Or.inl (Or.inr ⟨h, hid⟩)
    · exact Or.inl (Or.inl h)⟩

instance : IsTrans CrawlJobRow CrawlJobRow.latestFirst :=
  ⟨fun a b c hab hbc => by
    rcases hab with hab | ⟨hab, hid⟩
    · rcases hbc with hbc | ⟨hbc, _⟩
      · exact Or.inl (hbc.trans hab)
      · exact Or.inl (hbc ▸ hab)
    · rcases hbc with hbc | ⟨hbc, hid'⟩
      · exact Or.inl (hab ▸ hbc)
      · exact Or.inr ⟨hab.trans hbc, hid'.trans hid⟩⟩

/-- The latest job of a link is one of its jobs. -/
theorem selectLatestCrawlJobByLink_link {rows : List CrawlJobRow} {link : Bytes} {job : CrawlJobRow}
    (h : selectLatestCrawlJobByLink rows link = some job) : job.link = link :=
  of_decide_eq_true (mem_of_mem_select (List.mem_of_mem_head? h)).2

/-- A job of the link makes the query find one that was not created before it. -/
theorem le_selectLatestCrawlJobByLink {rows : List CrawlJobRow} {r : CrawlJobRow} (hr : r ∈ rows) :
    ∃ job, selectLatestCrawlJobByLink rows r.link = some job ∧ r.createdAt ≤ job.createdAt := by
  obtain ⟨job, hjob, horder⟩ := exists_head_select (r := CrawlJobRow.latestFirst) (p := fun x => x.link = r.link) hr
    (decide_eq_true rfl)
  refine ⟨job, hjob, ?_⟩
  rcases horder with h | ⟨h, _⟩
  · exact h.le
  · exact h.ge

/-- The configuration, and the hash behind the advisory lock. `Crud` refuses to start with a retention
below the rate limit. -/
structure WindowConfig where
  linkRatelimit : Int
  crawlJobRetention : Int
  linkRatelimit_pos : 0 < linkRatelimit
  retention_ge : linkRatelimit ≤ crawlJobRetention
  hashTextExtended : Bytes → Int

def WindowConfig.lockKey (cfg : WindowConfig) (link : Bytes) : Int := cfg.hashTextExtended (ascii "link:" ++ link)

/-- How far an open transaction is. -/
inductive Stage where
  | begun
  | locked
  | read (latest : Option CrawlJobRow)
  | inserting
  | inserted (row : CrawlJobRow)
  | reusing (job : CrawlJobRow) (checkedAt : TimePoint)
  deriving DecidableEq

/-- An open transaction; `now()` in all its statements is `startedAt`. -/
structure OpenTransaction where
  link : Bytes
  startedAt : TimePoint
  stage : Stage
  deriving DecidableEq

inductive Transaction where
  | idle
  | active (tx : OpenTransaction)
  | created (job : CrawlJobRow)
  | reused (link : Bytes) (job : CrawlJobRow) (checkedAt : TimePoint)
  | aborted
  deriving DecidableEq

/-- The committed rows with the locks and clocks around them; `history` lists all rows ever committed. -/
structure WindowState where
  clock : TimePoint
  rows : List CrawlJobRow
  history : List CrawlJobRow
  locks : Int → Option Nat
  transactions : Nat → Transaction
  passes : Nat → Option TimePoint

inductive WindowAction where
  | tick (t : TimePoint)
  | start (n : Nat) (link : Bytes)
  | advance (n : Nat) (id : Uuid)
  | abort (n : Nat)
  | cleanupReads (pass : Nat)
  | cleanupDeletes (pass : Nat)
  deriving DecidableEq

def WindowState.initial (clock : TimePoint) : WindowState where
  clock := clock
  rows := []
  history := []
  locks _ := none
  transactions _ := .idle
  passes _ := none

def WindowState.setStage (s : WindowState) (n : Nat) (tx : OpenTransaction) (stage : Stage) : WindowState :=
  { s with transactions := Function.update s.transactions n (.active { tx with stage := stage }) }

/-- The end of a transaction, which also releases its lock. -/
def WindowState.finish (s : WindowState) (n : Nat) (key : Int) (outcome : Transaction) : WindowState :=
  { s with
    locks := Function.update s.locks key none
    transactions := Function.update s.transactions n outcome }

namespace WindowConfig
variable (cfg : WindowConfig)

/-- The comparison of the latest job with the service clock. -/
def decide (now : TimePoint) : Option CrawlJobRow → Stage
  | some job => if now < job.createdAt + cfg.linkRatelimit then .reusing job now else .inserting
  | none => .inserting

/-- The next operation of an open transaction; `id` is the fresh id of a row it may insert. -/
def advance (s : WindowState) (n : Nat) (id : Uuid) (tx : OpenTransaction) : Option WindowState :=
  match tx.stage with
  | .begun =>
    if s.locks (cfg.lockKey tx.link) = none then
      some { s.setStage n tx .locked with locks := Function.update s.locks (cfg.lockKey tx.link) (some n) }
    else none
  | .locked => some (s.setStage n tx (.read (selectLatestCrawlJobByLink s.rows tx.link)))
  | .read latest => some (s.setStage n tx (cfg.decide s.clock latest))
  | .inserting =>
    if s.rows.any (·.id = id) then none else some (s.setStage n tx (.inserted (newCrawlJob tx.startedAt id tx.link)))
  | .inserted row =>
    some { s.finish n (cfg.lockKey tx.link) (.created row) with rows := s.rows ++ [row], history := s.history ++ [row] }
  | .reusing job checkedAt => some (s.finish n (cfg.lockKey tx.link) (.reused tx.link job checkedAt))

/-- An open transaction may fail at any point. -/
def abort (s : WindowState) (n : Nat) (tx : OpenTransaction) : WindowState :=
  match tx.stage with
  | .begun => { s with transactions := Function.update s.transactions n .aborted }
  | _ => s.finish n (cfg.lockKey tx.link) .aborted

def step (s : WindowState) : WindowAction → Option WindowState
  | .tick t => if s.clock ≤ t then some { s with clock := t } else none
  | .start n link =>
    match s.transactions n with
    | .idle => some { s with transactions := Function.update s.transactions n (.active ⟨link, s.clock, .begun⟩) }
    | _ => none
  | .advance n id =>
    match s.transactions n with
    | .active tx => cfg.advance s n id tx
    | _ => none
  | .abort n =>
    match s.transactions n with
    | .active tx => some (cfg.abort s n tx)
    | _ => none
  | .cleanupReads pass => some { s with passes := Function.update s.passes pass (some s.clock) }
  | .cleanupDeletes pass =>
    (s.passes pass).map fun readAt =>
      { s with
        rows := deleteCrawlJobsExpired s.rows (readAt - cfg.crawlJobRetention)
        passes := Function.update s.passes pass none }

/-- What the parties can do, one constructor for each outcome of an operation. -/
inductive Step : WindowState → WindowAction → WindowState → Prop where
  | tick {s : WindowState} {t : TimePoint} : s.clock ≤ t → Step s (.tick t) { s with clock := t }
  | start {s : WindowState} {n : Nat} {link : Bytes} : s.transactions n = .idle →
      Step s (.start n link) { s with
        transactions := Function.update s.transactions n (.active ⟨link, s.clock, .begun⟩) }
  | lock {s : WindowState} {n : Nat} {id : Uuid} {tx : OpenTransaction} : s.transactions n = .active tx →
      tx.stage = .begun → s.locks (cfg.lockKey tx.link) = none →
      Step s (.advance n id) { s.setStage n tx .locked with
        locks := Function.update s.locks (cfg.lockKey tx.link) (some n) }
  | read {s : WindowState} {n : Nat} {id : Uuid} {tx : OpenTransaction} : s.transactions n = .active tx →
      tx.stage = .locked → Step s (.advance n id) (s.setStage n tx (.read (selectLatestCrawlJobByLink s.rows tx.link)))
  | reuse {s : WindowState} {n : Nat} {id : Uuid} {tx : OpenTransaction} {job : CrawlJobRow} :
      s.transactions n = .active tx → tx.stage = .read (some job) → s.clock < job.createdAt + cfg.linkRatelimit →
      Step s (.advance n id) (s.setStage n tx (.reusing job s.clock))
  | expire {s : WindowState} {n : Nat} {id : Uuid} {tx : OpenTransaction} {latest : Option CrawlJobRow} :
      s.transactions n = .active tx → tx.stage = .read latest →
      (∀ job, latest = some job → job.createdAt + cfg.linkRatelimit ≤ s.clock) →
      Step s (.advance n id) (s.setStage n tx .inserting)
  | insert {s : WindowState} {n : Nat} {id : Uuid} {tx : OpenTransaction} : s.transactions n = .active tx →
      tx.stage = .inserting →
      Step s (.advance n id) (s.setStage n tx (.inserted (newCrawlJob tx.startedAt id tx.link)))
  | commitCreated {s : WindowState} {n : Nat} {id : Uuid} {tx : OpenTransaction} {row : CrawlJobRow} :
      s.transactions n = .active tx → tx.stage = .inserted row →
      Step s (.advance n id) { s.finish n (cfg.lockKey tx.link) (.created row) with
        rows := s.rows ++ [row]
        history := s.history ++ [row] }
  | commitReused {s : WindowState} {n : Nat} {id : Uuid} {tx : OpenTransaction} {job : CrawlJobRow}
      {checkedAt : TimePoint} : s.transactions n = .active tx → tx.stage = .reusing job checkedAt →
      Step s (.advance n id) (s.finish n (cfg.lockKey tx.link) (.reused tx.link job checkedAt))
  | abortBegun {s : WindowState} {n : Nat} {tx : OpenTransaction} : s.transactions n = .active tx → tx.stage = .begun →
      Step s (.abort n) { s with transactions := Function.update s.transactions n .aborted }
  | abortLocked {s : WindowState} {n : Nat} {tx : OpenTransaction} : s.transactions n = .active tx → tx.stage ≠ .begun →
      Step s (.abort n) (s.finish n (cfg.lockKey tx.link) .aborted)
  | cleanupReads {s : WindowState} {pass : Nat} :
      Step s (.cleanupReads pass) { s with passes := Function.update s.passes pass (some s.clock) }
  | cleanupDeletes {s : WindowState} {pass : Nat} {readAt : TimePoint} : s.passes pass = some readAt →
      Step s (.cleanupDeletes pass) { s with
        rows := deleteCrawlJobsExpired s.rows (readAt - cfg.crawlJobRetention)
        passes := Function.update s.passes pass none }

variable {cfg} {s t : WindowState} {a : WindowAction}

private theorem advance_spec {n : Nat} {id : Uuid} {tx : OpenTransaction} (htx : s.transactions n = .active tx)
    (h : cfg.advance s n id tx = some t) : cfg.Step s (.advance n id) t := by
  cases hstage : tx.stage with
  | begun =>
    simp only [advance, hstage] at h
    split at h
    · cases h
      exact .lock htx hstage ‹_›
    · cases h
  | locked =>
    simp only [advance, hstage] at h
    cases h
    exact .read htx hstage
  | read latest =>
    simp only [advance, hstage] at h
    cases h
    cases latest with
    | none => exact .expire htx hstage nofun
    | some job =>
      simp only [decide]
      split
      · exact .reuse htx hstage ‹_›
      · rename_i hnot
        refine .expire htx hstage fun job' hjob' => ?_
        cases hjob'
        exact not_lt.mp hnot
  | inserting =>
    simp only [advance, hstage] at h
    split at h
    · cases h
    · cases h
      exact .insert htx hstage
  | inserted row =>
    simp only [advance, hstage] at h
    cases h
    exact .commitCreated htx hstage
  | reusing job checkedAt =>
    simp only [advance, hstage] at h
    cases h
    exact .commitReused htx hstage

/-- The step function does nothing but what the constructors say. -/
theorem step_spec (h : cfg.step s a = some t) : cfg.Step s a t := by
  cases a with
  | tick t =>
    simp only [step] at h
    split at h
    · cases h
      exact .tick ‹_›
    · cases h
  | start n link =>
    simp only [step] at h
    split at h
    · cases h
      exact .start ‹_›
    · cases h
  | advance n id =>
    simp only [step] at h
    split at h
    · exact advance_spec ‹_› h
    · cases h
  | abort n =>
    simp only [step] at h
    split at h
    · rename_i tx htx
      cases h
      cases hstage : tx.stage with
      | begun =>
        simp only [abort, hstage]
        exact .abortBegun htx hstage
      | locked | read _ | inserting | inserted _ | reusing _ _ =>
        simp only [abort, hstage]
        exact .abortLocked htx (by simp [hstage])
    · cases h
  | cleanupReads pass =>
    cases h
    exact .cleanupReads
  | cleanupDeletes pass =>
    obtain ⟨readAt, hpass, rfl⟩ := Option.map_eq_some_iff.mp h
    exact .cleanupDeletes hpass

end WindowConfig
end Webshot.Jobs
