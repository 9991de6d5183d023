import Mathlib.Algebra.Order.Group.Int
import Mathlib.Tactic.Linarith
import Webshot.Jobs.RateLimitWindow

/-! When the jobs of a link are created at least the rate limit apart. -/
namespace Webshot.Jobs
open Text Storage Foundation.TransitionRuns

/-- The transaction has not compared the latest job with the clock yet. -/
def Stage.Undecided : Stage → Prop
  | .begun | .locked | .read _ => True
  | _ => False

namespace WindowConfig
variable (cfg : WindowConfig)

/-- The window of a job has lapsed at the given time. -/
def Lapsed (job : CrawlJobRow) (t : TimePoint) : Prop := job.createdAt + cfg.linkRatelimit ≤ t

/-- A check that finds a window lapsed is made by a transaction that began after the lapse, and a
cleanup pass deletes a job only when every transaction of its link still to make the check began
after the lapse of its window. -/
def OnTime (s : WindowState) : WindowAction → Prop
  | .advance n _ => ∀ tx job, s.transactions n = .active tx → tx.stage = .read (some job) → cfg.Lapsed job s.clock →
      cfg.Lapsed job tx.startedAt
  | .cleanupDeletes pass => ∀ readAt, s.passes pass = some readAt →
      ∀ r ∈ s.rows, r.createdAt < readAt - cfg.crawlJobRetention →
        ∀ n tx, s.transactions n = .active tx → tx.link = r.link → tx.stage.Undecided → cfg.Lapsed r tx.startedAt
  | _ => True

/-- What an open transaction knows of the jobs of its link. -/
def Knows (rows history : List CrawlJobRow) (tx : OpenTransaction) : Prop :=
  match tx.stage with
  | .begun | .locked => True
  | .read latest => (∀ r ∈ rows, r.link = tx.link → ∃ job, latest = some job ∧ r.createdAt ≤ job.createdAt) ∧
      ∀ job, latest = some job → job.link = tx.link
  | .inserting => ∀ h ∈ history, h.link = tx.link → cfg.Lapsed h tx.startedAt
  | .inserted row => (∀ h ∈ history, h.link = tx.link → cfg.Lapsed h tx.startedAt) ∧ row.link = tx.link ∧
      row.createdAt = tx.startedAt
  | .reusing job checkedAt => job.link = tx.link ∧ checkedAt < job.createdAt + cfg.linkRatelimit

/-- A deleted job no open transaction of its link has to fear. -/
def Gone (s : WindowState) (h : CrawlJobRow) : Prop :=
  cfg.Lapsed h s.clock ∧
    ∀ n tx, s.transactions n = .active tx → tx.link = h.link → tx.stage.Undecided → cfg.Lapsed h tx.startedAt

/-- Any two jobs of one link are created at least the rate limit apart. -/
def Spaced (history : List CrawlJobRow) : Prop :=
  history.Pairwise fun a b => a.link = b.link → cfg.Lapsed a b.createdAt

structure WindowInvariant (s : WindowState) : Prop where
  pass_clock : ∀ pass readAt, s.passes pass = some readAt → readAt ≤ s.clock
  lock : ∀ n tx, s.transactions n = .active tx → tx.stage ≠ .begun → s.locks (cfg.lockKey tx.link) = some n
  knows : ∀ n tx, s.transactions n = .active tx → cfg.Knows s.rows s.history tx
  kept : ∀ h ∈ s.history, h ∈ s.rows ∨ cfg.Gone s h
  spaced : cfg.Spaced s.history
  reused : ∀ n link job checkedAt, s.transactions n = .reused link job checkedAt →
    job.link = link ∧ checkedAt < job.createdAt + cfg.linkRatelimit

end WindowConfig

namespace WindowConfig.WindowInvariant
variable {cfg : WindowConfig} {s t : WindowState} {a : WindowAction} {n m : Nat} {tx tx' : OpenTransaction}

theorem initial (clock : TimePoint) : cfg.WindowInvariant (.initial clock) where
  pass_clock _ _ h := nomatch h
  lock _ _ h := nomatch h
  knows _ _ h := nomatch h
  kept _ h := nomatch h
  spaced := List.Pairwise.nil
  reused _ _ _ _ h := nomatch h

/-- Two transactions do not hold the same lock. -/
private theorem eq_of_locked (h : cfg.WindowInvariant s) (htx : s.transactions n = .active tx)
    (hstage : tx.stage ≠ .begun) (htx' : s.transactions m = .active tx') (hstage' : tx'.stage ≠ .begun)
    (hkey : cfg.lockKey tx'.link = cfg.lockKey tx.link) : m = n := by
  have hm := h.lock m tx' htx' hstage'
  rw [hkey, h.lock n tx htx hstage] at hm
  exact (Option.some.inj hm).symm

/-- One transaction is replaced, perhaps with a change of locks, while the table and the clock stay. -/
private theorem replace (h : cfg.WindowInvariant s) (x : Transaction) (locks : Int → Option Nat)
    (hlocks : ∀ m tx', m ≠ n → s.transactions m = .active tx' → tx'.stage ≠ .begun →
      locks (cfg.lockKey tx'.link) = some m)
    (hactive : ∀ tx', x = .active tx' → (tx'.stage ≠ .begun → locks (cfg.lockKey tx'.link) = some n) ∧
      cfg.Knows s.rows s.history tx' ∧
      ∀ y, cfg.Gone s y → tx'.link = y.link → tx'.stage.Undecided → cfg.Lapsed y tx'.startedAt)
    (hreused : ∀ link job checkedAt, x = .reused link job checkedAt →
      job.link = link ∧ checkedAt < job.createdAt + cfg.linkRatelimit) :
    cfg.WindowInvariant { s with locks := locks, transactions := Function.update s.transactions n x } where
  pass_clock := h.pass_clock
  lock m tx' htx' hstage' := by
    rcases update_cases htx' with ⟨rfl, he⟩ | ⟨hne, hold⟩
    · exact (hactive tx' he).1 hstage'
    · exact hlocks m tx' hne hold hstage'
  knows m tx' htx' := by
    rcases update_cases htx' with ⟨_, he⟩ | ⟨_, hold⟩
    · exact (hactive tx' he).2.1
    · exact h.knows m tx' hold
  kept y hy := by
    refine (h.kept y hy).imp_right fun hgone => ⟨hgone.1, fun m tx' htx' hlink hu => ?_⟩
    rcases update_cases htx' with ⟨_, he⟩ | ⟨_, hold⟩
    · exact (hactive tx' he).2.2 y hgone hlink hu
    · exact hgone.2 m tx' hold hlink hu
  spaced := h.spaced
  reused m link job checkedAt hr := by
    rcases update_cases hr with ⟨_, he⟩ | ⟨_, hold⟩
    · exact hreused link job checkedAt he
    · exact h.reused m link job checkedAt hold

private theorem begin (h : cfg.WindowInvariant s) (n : Nat) (link : Bytes) :
    cfg.WindowInvariant { s with
      transactions := Function.update s.transactions n (.active ⟨link, s.clock, .begun⟩) } := by
  refine h.replace _ s.locks (fun m tx' _ => h.lock m tx') (fun tx' he => ?_) fun _ _ _ he => nomatch he
  cases he
  exact ⟨fun hstage => absurd rfl hstage, trivial, fun y hgone _ _ => hgone.1⟩

private theorem acquire (h : cfg.WindowInvariant s) (htx : s.transactions n = .active tx) (hstage : tx.stage = .begun)
    (hfree : s.locks (cfg.lockKey tx.link) = none) :
    cfg.WindowInvariant { s.setStage n tx .locked with
      locks := Function.update s.locks (cfg.lockKey tx.link) (some n) } := by
  refine h.replace _ _ (fun m tx' _ hold hstage' => ?_) (fun tx' he => ?_) fun _ _ _ he => nomatch he
  · have hheld := h.lock m tx' hold hstage'
    refine (Function.update_of_ne ?_ _ _).trans hheld
    intro he
    rw [he, hfree] at hheld
    cases hheld
  · cases he
    refine ⟨fun _ => Function.update_self _ _ _, trivial, fun y hgone hlink _ => hgone.2 n tx htx hlink ?_⟩
    rw [hstage]
    trivial

/-- A transaction that holds its lock moves on. -/
private theorem setStage (h : cfg.WindowInvariant s) (htx : s.transactions n = .active tx) (hstage : tx.stage ≠ .begun)
    {stage : Stage} (hknows : cfg.Knows s.rows s.history { tx with stage := stage })
    (hund : stage.Undecided → tx.stage.Undecided) : cfg.WindowInvariant (s.setStage n tx stage) := by
  refine h.replace _ s.locks (fun m tx' _ => h.lock m tx') (fun tx' he => ?_) fun _ _ _ he => nomatch he
  cases he
  exact ⟨fun _ => h.lock n tx htx hstage, hknows, fun y hgone hlink hu => hgone.2 n tx htx hlink (hund hu)⟩

private theorem abortBegun (h : cfg.WindowInvariant s) (n : Nat) :
    cfg.WindowInvariant { s with transactions := Function.update s.transactions n .aborted } :=
  h.replace _ s.locks (fun m tx' _ => h.lock m tx') (fun _ he => nomatch he) fun _ _ _ he => nomatch he

/-- The end of a transaction that holds its lock. -/
private theorem finish (h : cfg.WindowInvariant s) (htx : s.transactions n = .active tx) (hstage : tx.stage ≠ .begun)
    {x : Transaction} (hx : ∀ tx', x ≠ .active tx')
    (hreused : ∀ link job checkedAt, x = .reused link job checkedAt →
      job.link = link ∧ checkedAt < job.createdAt + cfg.linkRatelimit) :
    cfg.WindowInvariant (s.finish n (cfg.lockKey tx.link) x) := by
  refine h.replace x _ (fun m tx' hne htx' hstage' => ?_) (fun tx' he => absurd he (hx tx')) hreused
  rw [Function.update_of_ne]
  · exact h.lock m tx' htx' hstage'
  · exact fun hkey => hne (h.eq_of_locked htx hstage htx' hstage' hkey)

/-- A committed row that no transaction past its lock has missed, and that keeps its distance. -/
private theorem append (h : cfg.WindowInvariant s) {row : CrawlJobRow}
    (hother : ∀ m tx', s.transactions m = .active tx' → tx'.stage ≠ .begun → tx'.link ≠ row.link)
    (hspaced : ∀ x ∈ s.history, x.link = row.link → cfg.Lapsed x row.createdAt) :
    cfg.WindowInvariant { s with rows := s.rows ++ [row], history := s.history ++ [row] } where
  pass_clock := h.pass_clock
  lock := h.lock
  knows m tx' htx' := by
    have hknows := h.knows m tx' htx'
    have hne (hstage : tx'.stage ≠ .begun) (r : CrawlJobRow) (hlist : List CrawlJobRow) (hr : r ∈ hlist ++ [row])
        (hlink : r.link = tx'.link) : r ∈ hlist := by
      rcases List.mem_append.mp hr with hr | hr
      · exact hr
      · rw [List.mem_singleton.mp hr] at hlink
        exact absurd hlink.symm (hother m tx' htx' hstage)
    cases hstage : tx'.stage with
    | begun | locked => simp only [Knows, hstage]
    | reusing job checkedAt =>
      simp only [Knows, hstage] at hknows ⊢
      exact hknows
    | read latest =>
      simp only [Knows, hstage] at hknows ⊢
      exact ⟨fun r hr hlink => hknows.1 r (hne (by simp [hstage]) r _ hr hlink) hlink, hknows.2⟩
    | inserting =>
      simp only [Knows, hstage] at hknows ⊢
      exact fun r hr hlink => hknows r (hne (by simp [hstage]) r _ hr hlink) hlink
    | inserted row' =>
      simp only [Knows, hstage] at hknows ⊢
      exact ⟨fun r hr hlink => hknows.1 r (hne (by simp [hstage]) r _ hr hlink) hlink, hknows.2⟩
  kept x hx := by
    rcases List.mem_append.mp hx with hx | hx
    · exact (h.kept x hx).imp_left fun hmem => List.mem_append_left _ hmem
    · exact Or.inl (List.mem_append_right _ hx)
  spaced := by
    refine List.pairwise_append.mpr ⟨h.spaced, List.pairwise_singleton _ _, fun x hx y hy hlink => ?_⟩
    rw [List.mem_singleton.mp hy] at hlink ⊢
    exact hspaced x hx hlink
  reused := h.reused

private theorem tick (h : cfg.WindowInvariant s) {now : TimePoint} (hle : s.clock ≤ now) :
    cfg.WindowInvariant { s with clock := now } where
  pass_clock pass readAt hpass := (h.pass_clock pass readAt hpass).trans hle
  lock := h.lock
  knows := h.knows
  kept x hx := (h.kept x hx).imp_right fun ⟨hclock, hopen⟩ => ⟨le_trans hclock hle, hopen⟩
  spaced := h.spaced
  reused := h.reused

private theorem readClock (h : cfg.WindowInvariant s) (pass : Nat) :
    cfg.WindowInvariant { s with passes := Function.update s.passes pass (some s.clock) } where
  pass_clock p readAt hp := by
    rcases update_cases hp with ⟨_, hnew⟩ | ⟨_, hold⟩
    · exact (Option.some.inj hnew).ge
    · exact h.pass_clock p readAt hold
  lock := h.lock
  knows := h.knows
  kept := h.kept
  spaced := h.spaced
  reused := h.reused

/-- A cleanup pass deletes only lapsed jobs, and none that an open transaction would still need. -/
private theorem delete (h : cfg.WindowInvariant s) {pass : Nat} {readAt : TimePoint}
    (hpass : s.passes pass = some readAt) (hok : cfg.OnTime s (.cleanupDeletes pass)) :
    cfg.WindowInvariant { s with
      rows := deleteCrawlJobsExpired s.rows (readAt - cfg.crawlJobRetention)
      passes := Function.update s.passes pass none } where
  pass_clock p c hp := by
    rcases update_cases hp with ⟨_, hnew⟩ | ⟨_, hold⟩
    · cases hnew
    · exact h.pass_clock p c hold
  lock := h.lock
  knows m tx' htx' := by
    have hknows := h.knows m tx' htx'
    cases hstage : tx'.stage with
    | read latest =>
      simp only [Knows, hstage] at hknows ⊢
      exact ⟨fun r hr => hknows.1 r (List.mem_of_mem_filter hr), hknows.2⟩
    | begun | locked => simp only [Knows, hstage]
    | inserting | inserted _ | reusing _ _ =>
      simp only [Knows, hstage] at hknows ⊢
      exact hknows
  kept x hx := by
    rcases h.kept x hx with hrow | hgone
    · by_cases hexpired : x.createdAt < readAt - cfg.crawlJobRetention
      · refine Or.inr ⟨?_, hok readAt hpass x hrow hexpired⟩
        have hclock := h.pass_clock pass readAt hpass
        have hretention := cfg.retention_ge
        simp only [Lapsed]
        linarith
      · exact Or.inl (List.mem_filter.mpr ⟨hrow, decide_eq_true hexpired⟩)
    · exact Or.inr hgone
  spaced := h.spaced
  reused := h.reused

/-- At a check that finds no unlapsed job, no job of the link ever committed is too close. -/
private theorem knows_inserting (h : cfg.WindowInvariant s) (htx : s.transactions n = .active tx)
    {latest : Option CrawlJobRow} (hstage : tx.stage = .read latest)
    (hlapsed : ∀ job, latest = some job → cfg.Lapsed job tx.startedAt) :
    cfg.Knows s.rows s.history { tx with stage := .inserting } := by
  have hknows := h.knows n tx htx
  simp only [Knows, hstage] at hknows ⊢
  intro x hx hlink
  rcases h.kept x hx with hrow | hgone
  · obtain ⟨job, hjob, hle⟩ := hknows.1 x hrow hlink
    exact le_trans (Int.add_le_add_right hle _) (hlapsed job hjob)
  · exact hgone.2 n tx htx hlink.symm (by rw [hstage]; trivial)

theorem step (h : cfg.WindowInvariant s) (hok : cfg.OnTime s a) (hstep : cfg.step s a = some t) :
    cfg.WindowInvariant t := by
  cases WindowConfig.step_spec hstep with
  | tick hle => exact h.tick hle
  | start _ => exact h.begin _ _
  | lock htx hstage hfree => exact h.acquire htx hstage hfree
  | read htx hstage =>
    refine h.setStage htx (by simp [hstage]) ⟨fun r hr hlink => ?_, fun job hjob => ?_⟩ fun _ => by rw [hstage]; trivial
    · rw [← hlink]
      exact le_selectLatestCrawlJobByLink hr
    · exact selectLatestCrawlJobByLink_link hjob
  | reuse htx hstage hopen =>
    rename_i n id tx job
    have hknows := h.knows n tx htx
    simp only [Knows, hstage] at hknows
    exact h.setStage htx (by simp [hstage]) ⟨hknows.2 job rfl, hopen⟩ nofun
  | expire htx hstage hlapsed =>
    rename_i n id tx latest
    refine h.setStage htx (by simp [hstage]) (h.knows_inserting htx hstage fun job hjob => ?_) nofun
    exact hok tx job htx (hjob ▸ hstage) (hlapsed job hjob)
  | insert htx hstage =>
    rename_i n id tx
    have hknows := h.knows n tx htx
    simp only [Knows, hstage] at hknows
    exact h.setStage htx (by simp [hstage]) ⟨hknows, rfl, rfl⟩ nofun
  | commitCreated htx hstage =>
    rename_i n id tx row
    have hknows := h.knows n tx htx
    simp only [Knows, hstage] at hknows
    obtain ⟨hlapsed, hlink, hcreated⟩ := hknows
    refine (h.finish (x := .created row) htx (by simp [hstage]) (fun _ he => nomatch he)
      fun _ _ _ he => nomatch he).append (fun m tx' htx' hstage' he => ?_) fun x hx hxlink => ?_
    · rcases update_cases htx' with ⟨_, hx⟩ | ⟨hne, hold⟩
      · cases hx
      · refine hne (h.eq_of_locked htx (by simp [hstage]) hold hstage' ?_)
        rw [he, hlink]
    · rw [hcreated]
      exact hlapsed x hx (hxlink.trans hlink)
  | commitReused htx hstage =>
    rename_i n id tx job checkedAt
    have hknows := h.knows n tx htx
    simp only [Knows, hstage] at hknows
    refine h.finish (x := .reused tx.link job checkedAt) htx (by simp [hstage]) (fun _ he => nomatch he)
      fun link job' checkedAt' he => ?_
    cases he
    exact hknows
  | abortBegun _ _ => exact h.abortBegun _
  | abortLocked htx hstage =>
    exact h.finish (x := .aborted) htx hstage (fun _ he => nomatch he) fun _ _ _ he => nomatch he
  | cleanupReads => exact h.readClock _
  | cleanupDeletes hpass => exact h.delete hpass hok

end WindowConfig.WindowInvariant

/-- In every run on time: any two jobs ever created for a link are at least the rate limit apart, and
a call that creates none returns a job of its link whose window was open when it was checked. -/
theorem jobs_spaced_of_on_time (cfg : WindowConfig) {clock : TimePoint} {actions : List WindowAction} {s : WindowState}
    (hrun : Run cfg.step cfg.OnTime (.initial clock) actions s) :
    s.history.Pairwise (fun a b => a.link = b.link → cfg.linkRatelimit ≤ |a.createdAt - b.createdAt|) ∧
      ∀ n link job checkedAt, s.transactions n = .reused link job checkedAt →
        job.link = link ∧ checkedAt < job.createdAt + cfg.linkRatelimit := by
  have hinv := hrun.invariant cfg.WindowInvariant (.initial clock) fun _ _ _ hok hstep h => h.step hok hstep
  refine ⟨hinv.spaced.imp fun {a b} hab hlink => ?_, hinv.reused⟩
  have hlapsed : a.createdAt + cfg.linkRatelimit ≤ b.createdAt := hab hlink
  rw [abs_sub_comm]
  exact le_trans (by linarith) (le_abs_self _)

namespace WindowConfig

/-- A test for being on time, of runs without a cleanup. -/
def checksOnTime (cfg : WindowConfig) (s : WindowState) : WindowAction → Bool
  | .advance n _ =>
    match s.transactions n with
    | .active ⟨_, startedAt, .read (some job)⟩ =>
      s.clock < job.createdAt + cfg.linkRatelimit || job.createdAt + cfg.linkRatelimit ≤ startedAt
    | _ => true
  | .cleanupDeletes _ => false
  | _ => true

theorem onTime_of_checksOnTime {cfg : WindowConfig} (s : WindowState) (a : WindowAction)
    (h : cfg.checksOnTime s a = true) : cfg.OnTime s a := by
  cases a with
  | advance n id =>
    intro tx job htx hstage hlapsed
    obtain ⟨link, startedAt, stage⟩ := tx
    cases hstage
    simp only [checksOnTime, htx, Bool.or_eq_true, decide_eq_true_eq] at h
    exact h.resolve_left (not_lt.mpr hlapsed)
  | cleanupDeletes pass => cases h
  | tick _ | start _ _ | abort _ | cleanupReads _ => trivial

end WindowConfig

/-- A rate limit and a retention of ten, with all locks sharing one hash. -/
def tenWindow : WindowConfig where
  linkRatelimit := 10
  crawlJobRetention := 10
  linkRatelimit_pos := by decide
  retention_ge := by decide
  hashTextExtended _ := 0

/-- The start of a transaction for the one link of the samples, and its first operations. -/
def tenTransaction (n : Nat) (operations : Nat) : List WindowAction :=
  .start n (ascii "a.b/x") :: List.replicate operations (.advance n (smallUuid (Fin.ofNat 256 n)))

/-- The first job is created at 0, reused at 3, and followed by another at 20. -/
theorem jobs_spaced_small :
    ∃ actions s, Run tenWindow.step tenWindow.OnTime (.initial 0) actions s ∧
      s.history.map CrawlJobRow.createdAt = [0, 20] ∧
      s.history.Pairwise (fun a b => a.link = b.link → tenWindow.linkRatelimit ≤ |a.createdAt - b.createdAt|) := by
  have hexec : (execute (fun s a => if tenWindow.checksOnTime s a then tenWindow.step s a else none) (.initial 0)
      (List.flatten [tenTransaction 0 5, [.tick 3], tenTransaction 1 4, [.tick 20], tenTransaction 2 5])).any
      (fun s => s.history.map CrawlJobRow.createdAt = [0, 20]) = true := by
    rfl
  obtain ⟨s, hrun, hhistory⟩ := Run.exists_of_execute _ hexec
  have hrun := Run.of_checked WindowConfig.onTime_of_checksOnTime hrun
  exact ⟨_, s, hrun, of_decide_eq_true hhistory, (jobs_spaced_of_on_time tenWindow hrun).1⟩

/-- A transaction that began at 5 checks at 10, when the window of the first job has lapsed, and dates
its own job 5. -/
theorem jobs_too_close :
    ∃ actions s, Run tenWindow.step always (.initial 0) actions s ∧
      ¬ s.history.Pairwise (fun a b => a.link = b.link → tenWindow.linkRatelimit ≤ |a.createdAt - b.createdAt|) := by
  have hexec : (execute tenWindow.step (.initial 0)
      (List.flatten [tenTransaction 0 5, [.tick 5], tenTransaction 1 0, [.tick 10],
        List.replicate 5 (.advance 1 (smallUuid 1))])).any
      (fun s => s.history =
        [newCrawlJob 0 (smallUuid 0) (ascii "a.b/x"), newCrawlJob 5 (smallUuid 1) (ascii "a.b/x")]) = true := by
    rfl
  obtain ⟨s, hrun, hhistory⟩ := Run.exists_of_execute _ hexec
  refine ⟨_, s, hrun, fun hspaced => ?_⟩
  rw [of_decide_eq_true hhistory] at hspaced
  have hclose := List.rel_of_pairwise_cons hspaced (List.mem_singleton_self _) rfl
  exact absurd hclose (by decide)

end Webshot.Jobs
