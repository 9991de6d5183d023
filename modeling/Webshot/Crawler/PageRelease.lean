import Webshot.Crawler.PageSessions

/-! What a page session holds in the browser at each of its stages, and that it is given back however a capture or a
probe ends. -/
namespace Webshot.Crawler
open Text Foundation.FailingPrograms

/-- How far a page session has got, with the ids of what it holds. -/
inductive Stage where
  | fresh
  | context (browserContextId : Bytes)
  | target (browserContextId targetId : Bytes)
  | attached (enabled : Bool) (browserContextId targetId sessionId : Bytes)
  | detached (browserContextId targetId : Bytes)
  | disposed
  | stopped

namespace Stage

def lifecycle : Stage → Lifecycle
  | fresh => .idle
  | context _ => .browserContextCreated
  | target _ _ => .targetCreated
  | attached enabled _ _ _ => if enabled then .baseDomainsEnabled else .attached
  | detached _ _ => .detached
  | disposed => .disposed
  | stopped => .stopped

def browserContextId : Stage → Option Bytes
  | context id | target id _ | attached _ id _ _ | detached id _ => some id
  | _ => none

def targetId : Stage → Option Bytes
  | target _ id | attached _ _ id _ | detached _ id => some id
  | _ => none

def sessionId : Stage → Option Bytes
  | attached _ _ _ id => some id
  | _ => none

def withoutSession : Stage → Stage
  | attached _ contextId id _ => .detached contextId id
  | stage => stage

def withoutContext : Stage → Stage
  | context _ | target _ _ | detached _ _ => .disposed
  | stage => stage

theorem sessionId_withoutSession (stage : Stage) : stage.withoutSession.sessionId = none := by cases stage <;> rfl

theorem withoutSession_of_sessionId {stage : Stage} (h : stage.sessionId = none) : stage.withoutSession = stage := by
  cases stage <;> first | rfl | cases h

theorem withoutContext_of_browserContextId {stage : Stage} (h : stage.browserContextId = none) :
    stage.withoutContext = stage := by
  cases stage <;> first | rfl | cases h

theorem disposes {stage : Stage} {contextId : Bytes} (h : stage.browserContextId = some contextId)
    (hsession : stage.sessionId = none) :
    stage.withoutContext = .disposed ∧ stage.lifecycle.process .disposed = some .disposed := by
  cases stage with
  | context | target | detached => exact ⟨rfl, rfl⟩
  | attached => cases hsession
  | fresh | disposed | stopped => cases h

/-- Without a session and then without a context, the page session can stop. -/
theorem stops (stage : Stage) :
    stage.withoutSession.withoutContext.browserContextId = none ∧
      stage.withoutSession.withoutContext.sessionId = none ∧
      stage.withoutSession.withoutContext.targetId = none ∧
      stage.withoutSession.withoutContext.lifecycle.process .stopped = some .stopped := by
  cases stage <;> exact ⟨rfl, rfl, rfl, rfl⟩

end Stage

section Traces
variable {una : UniAlgo}

/-- The browser contexts that were created and not disposed of. -/
def openContexts (steps : List (PageStep una)) : List Bytes :=
  steps.foldl (fun contexts step =>
    match step with
    | .sent .createBrowserContext (.given id) => id :: contexts
    | .sent (.disposeBrowserContext id) (.given _) => contexts.erase id
    | _ => contexts) []

/-- The sessions that were registered and not detached. -/
def openSessions (steps : List (PageStep una)) : List Bytes :=
  steps.foldl (fun sessions step =>
    match step with
    | .sent (.makeSession id _) (.given _) => id :: sessions
    | .sent (.detachFromTarget id) (.given _) => sessions.erase id
    | _ => sessions) []

/-- A command names what the browser gave to this page session and holds open for it; nothing is created twice, and a
context is disposed of only when no session is open in it. -/
def InTurn (before : List (PageStep una)) : PageStep una → Prop
  | .marked _ _ => True
  | .sent .createBrowserContext _ => openContexts before = []
  | .sent (.createTarget context) _ => openContexts before = [context]
  | .sent (.attachToTarget target) _ => ∃ context, PageStep.sent (.createTarget context) (.given target) ∈ before
  | .sent (.makeSession session target) _ =>
    openSessions before = [] ∧ PageStep.sent (.attachToTarget target) (.given session) ∈ before
  | .sent (.inSession _) _ => openSessions before ≠ []
  | .sent (.detachFromTarget session) _ => openSessions before = [session]
  | .sent (.disposeBrowserContext context) _ => openContexts before = [context] ∧ openSessions before = []

def AllInTurn (steps : List (PageStep una)) : Prop := ∀ before step, before ++ [step] <+: steps → InTurn before step

theorem allInTurn_concat {steps : List (PageStep una)} {step : PageStep una} (h : AllInTurn steps)
    (hstep : InTurn steps step) : AllInTurn (steps ++ [step]) := by
  intro before last hprefix
  rcases List.prefix_concat_iff.mp hprefix with heq | hprefix
  · obtain ⟨rfl, hlast⟩ := List.append_inj' heq rfl
    exact List.cons.inj hlast |>.1 ▸ hstep
  · exact h before last hprefix

/-- A detaching or a disposal that was refused is the last that was sent: no disposal follows a refused detaching. -/
def CleanupFailed (steps : List (PageStep una)) : Prop :=
  ∃ command detail, steps.getLast? = some (.sent command (.refused detail)) ∧
    ((∃ id, command = .detachFromTarget id) ∨ ∃ id, command = .disposeBrowserContext id)

/-- The steps so far, as they leave a page session at the given stage. -/
structure StandsAt (steps : List (PageStep una)) (stage : Stage) : Prop where
  contexts : openContexts steps = stage.browserContextId.toList
  sessions : openSessions steps = stage.sessionId.toList
  target_created : ∀ target ∈ stage.targetId, ∃ context, PageStep.sent (.createTarget context) (.given target) ∈ steps
  in_turn : AllInTurn steps

namespace StandsAt
variable {steps : List (PageStep una)} {stage : Stage}

theorem nil : StandsAt ([] : List (PageStep una)) .fresh :=
  ⟨rfl, rfl, nofun, fun _ _ h => absurd (List.prefix_nil.mp h) (List.append_ne_nil_of_right_ne_nil _ (List.cons_ne_nil _ _))⟩

theorem target_kept (h : StandsAt steps stage) (step : PageStep una) :
    ∀ target ∈ stage.targetId, ∃ context, PageStep.sent (.createTarget context) (.given target) ∈ steps ++ [step] := by
  intro target htarget
  obtain ⟨context, hmem⟩ := h.target_created target htarget
  exact ⟨context, List.mem_append_left _ hmem⟩

/-- A step that neither creates nor ends anything. -/
theorem concat (h : StandsAt steps stage) {step : PageStep una} (hturn : InTurn steps step)
    (hcontexts : openContexts (steps ++ [step]) = openContexts steps)
    (hsessions : openSessions (steps ++ [step]) = openSessions steps) : StandsAt (steps ++ [step]) stage :=
  ⟨hcontexts.trans h.contexts, hsessions.trans h.sessions, h.target_kept step, allInTurn_concat h.in_turn hturn⟩

theorem marked (h : StandsAt steps stage) (phase : Bytes) (written : Bool) :
    StandsAt (steps ++ [.marked phase written]) stage :=
  h.concat trivial (by simp [openContexts]) (by simp [openSessions])

theorem refused (h : StandsAt steps stage) {command : PageCommand} {detail : Option (Str una)}
    (hturn : InTurn steps (.sent command (.refused detail))) : StandsAt (steps ++ [.sent command (.refused detail)]) stage :=
  h.concat hturn (by cases command <;> simp [openContexts]) (by cases command <;> simp [openSessions])

theorem thrown (h : StandsAt steps stage) {command : PageCommand} (hturn : InTurn steps (.sent command .thrown)) :
    StandsAt (steps ++ [.sent command .thrown]) stage :=
  h.concat hturn (by cases command <;> simp [openContexts]) (by cases command <;> simp [openSessions])

theorem inSession (h : StandsAt steps stage) {method : Bytes} {answer : Answer una} (hsession : stage.sessionId.isSome) :
    StandsAt (steps ++ [.sent (.inSession method) answer]) stage := by
  refine h.concat ?_ (by cases answer <;> simp [openContexts]) (by cases answer <;> simp [openSessions])
  obtain ⟨session, hsession⟩ := Option.isSome_iff_exists.mp hsession
  rw [InTurn, h.sessions, hsession]
  exact List.cons_ne_nil _ _

theorem context (h : StandsAt steps .fresh) (id : Bytes) :
    StandsAt (steps ++ [.sent .createBrowserContext (.given id)]) (.context id) := by
  refine ⟨?_, ?_, nofun, allInTurn_concat h.in_turn h.contexts⟩
  · simpa [openContexts, Stage.browserContextId] using h.contexts
  · simpa [openSessions, Stage.sessionId] using h.sessions

theorem target {context : Bytes} (h : StandsAt steps (.context context)) (id : Bytes) :
    StandsAt (steps ++ [.sent (.createTarget context) (.given id)]) (.target context id) := by
  refine ⟨?_, ?_, ?_, allInTurn_concat h.in_turn h.contexts⟩
  · simpa [openContexts, Stage.browserContextId] using h.contexts
  · simpa [openSessions, Stage.sessionId] using h.sessions
  · rintro target ⟨⟩
    exact ⟨context, List.mem_append_right _ List.mem_cons_self⟩

theorem attachedTo {context target : Bytes} (h : StandsAt steps (.target context target)) (id : Bytes) :
    StandsAt (steps ++ [.sent (.attachToTarget target) (.given id)]) (.target context target) :=
  h.concat (h.target_created target rfl) (by simp [openContexts]) (by simp [openSessions])

theorem registered {context target session : Bytes} (h : StandsAt steps (.target context target))
    (hattached : PageStep.sent (.attachToTarget target) (.given session) ∈ steps) (value : Bytes) :
    StandsAt (steps ++ [.sent (.makeSession session target) (.given value)]) (.attached false context target session) := by
  refine ⟨?_, ?_, h.target_kept _, allInTurn_concat h.in_turn ⟨h.sessions, hattached⟩⟩
  · simpa [openContexts, Stage.browserContextId] using h.contexts
  · simpa [openSessions, Stage.sessionId] using h.sessions

theorem enabled {context target session : Bytes} (h : StandsAt steps (.attached false context target session)) :
    StandsAt steps (.attached true context target session) := ⟨h.contexts, h.sessions, h.target_created, h.in_turn⟩

theorem detached {enabled : Bool} {context target session : Bytes}
    (h : StandsAt steps (.attached enabled context target session)) (value : Bytes) :
    StandsAt (steps ++ [.sent (.detachFromTarget session) (.given value)]) (.detached context target) := by
  have hsessions : openSessions steps = [session] := h.sessions
  refine ⟨?_, ?_, h.target_kept _, allInTurn_concat h.in_turn hsessions⟩
  · simpa [openContexts, Stage.browserContextId] using h.contexts
  · rw [openSessions, List.foldl_append, ← openSessions, hsessions]
    simp [Stage.sessionId]

theorem disposed {context : Bytes} (h : StandsAt steps stage) (hcontext : stage.browserContextId = some context)
    (hsession : stage.sessionId = none) (value : Bytes) :
    StandsAt (steps ++ [.sent (.disposeBrowserContext context) (.given value)]) .disposed := by
  have hcontexts : openContexts steps = [context] := by rw [h.contexts, hcontext]; rfl
  have hsessions : openSessions steps = [] := by rw [h.sessions, hsession]; rfl
  refine ⟨?_, ?_, nofun, allInTurn_concat h.in_turn ⟨hcontexts, hsessions⟩⟩
  · rw [openContexts, List.foldl_append, ← openContexts, hcontexts]
    simp [Stage.browserContextId]
  · simpa [openSessions, Stage.sessionId] using hsessions

theorem stopped (h : StandsAt steps stage) (hcontext : stage.browserContextId = none) (hsession : stage.sessionId = none) :
    StandsAt steps .stopped :=
  ⟨by rw [h.contexts, hcontext]; rfl, by rw [h.sessions, hsession]; rfl, nofun, h.in_turn⟩

end StandsAt
end Traces

/-- The members of a page session that its owner holds, at the given stage. -/
structure PageSession.At {una : UniAlgo} (page : PageSession una) (stage : Stage) : Prop where
  owned : page.owned = true
  lifecycle : page.lifecycle = stage.lifecycle
  cdpSession : page.cdpSession = stage.sessionId.isSome
  browserContextId : page.browserContextId = stage.browserContextId
  targetId : page.targetId = stage.targetId
  sessionId : page.sessionId = stage.sessionId
  holds : StandsAt page.steps stage

/-- A step that changes no member. -/
theorem PageSession.At.after {una : UniAlgo} {page : PageSession una} {stage : Stage} {steps : List (PageStep una)}
    (h : page.At stage) (hsteps : StandsAt steps stage) : PageSession.At { page with steps := steps } stage :=
  ⟨h.owned, h.lifecycle, h.cdpSession, h.browserContextId, h.targetId, h.sessionId, hsteps⟩

/-- The page session is in order, whatever it holds. -/
def PageSession.Orderly {una : UniAlgo} (page : PageSession una) : Prop := ∃ stage, page.At stage

theorem PageSession.Orderly.in_turn {una : UniAlgo} {page : PageSession una} (h : page.Orderly) : AllInTurn page.steps := by
  obtain ⟨_, h⟩ := h
  exact h.holds.in_turn

/-- The page session is given up: what the browser created for it is given back, or the browser refused to take it. -/
def PageSession.Released {una : UniAlgo} (page : PageSession una) : Prop :=
  page.owned = false ∧ AllInTurn page.steps ∧
    (openContexts page.steps = [] ∧ openSessions page.steps = [] ∨ CleanupFailed page.steps)

/-- What holds at the end of a call that has a value, that returns an error and that does not return; no invariant
fails. -/
def Ends {α : Type} {una : UniAlgo} (good : α → PageSession una → Prop) (failed : PageSession una → Prop)
    (escaped : Escape → PageSession una → Prop) : Except PageEnd α → PageSession una → Prop
  | .ok value, page => good value page
  | .error (.error _), page => failed page
  | .error (.escaped escape), page => escaped escape page
  | .error (.invariantFailed _), _ => False

section Calls
variable {una : UniAlgo} {α β : Type} {page : PageSession una} {stage : Stage}
variable {failed failed' : PageSession una → Prop} {escaped escaped' : Escape → PageSession una → Prop}

/-- One call after another. -/
theorem after_ends_bind {m : PageProgram una α} {f : α → PageProgram una β} {good : α → PageSession una → Prop}
    {good' : β → PageSession una → Prop} (h : After m page (Ends good failed escaped))
    (hf : ∀ value page', good value page' → After (f value) page' (Ends good' failed escaped)) :
    After (m >>= f) page (Ends good' failed escaped) := by
  refine (after_bind m f).mpr (h.imp ?_)
  rintro ((_ | _ | _) | value) page' hend
  · exact hend
  · exact hend
  · exact hend
  · exact hf value page' hend

theorem after_ends_mono {m : PageProgram una α} {good good' : α → PageSession una → Prop}
    (h : After m page (Ends good failed escaped)) (hgood : ∀ value page, good value page → good' value page)
    (hfailed : ∀ page, failed page → failed' page) (hescaped : ∀ escape page, escaped escape page → escaped' escape page) :
    After m page (Ends good' failed' escaped') := by
  refine h.imp ?_
  rintro ((_ | _ | _) | value) page' hend
  · exact hfailed page' hend
  · exact hescaped _ page' hend
  · exact hend
  · exact hgood value page' hend

/-- A phase is marked, or the call throws; the page session stays as it was. -/
theorem markPhase_spec (h : page.At stage) {browser : Browser una} (phase : String) :
    After (markPhase browser phase) page
      (Ends (fun _ page' => page'.At stage) failed fun _ => PageSession.Orderly) := by
  unfold markPhase
  rw [after_get_bind, after_modify_bind]
  split
  · exact h.after (h.holds.marked _ _)
  · exact ⟨stage, h.after (h.holds.marked _ _)⟩

/-- An invariant on a member that is there. -/
theorem require_spec {value : PageSession una → Option Bytes} {message : String} {id : Bytes} (h : value page = some id) :
    After (require value message) page (Ends (fun id' page' => id' = id ∧ page' = page) failed escaped) := by
  unfold require
  rw [after_get_bind]
  simp only [h, after_pure]
  exact ⟨rfl, rfl⟩

/-- A transition that is in the table. -/
theorem mark_spec {event : LifecycleEvent} {message : String} (lifecycle : Lifecycle)
    (h : page.lifecycle.process event = some lifecycle) :
    After (mark event message) page (Ends (fun _ page' => page' = { page with lifecycle := lifecycle }) failed escaped) := by
  unfold mark
  rw [after_get_bind]
  simp only [h, after_modify]
  rfl

end Calls

namespace CaptureEnv
variable {env : CaptureEnv} {browser : Browser env.una} {page : PageSession env.una} {stage : Stage}

/-- A command that is sent in its turn. -/
theorem sendCdp_spec {command : PageCommand} (h : page.At stage)
    (hturn : ∀ answer, InTurn page.steps (.sent command answer)) :
    After (env.sendCdp browser command) page
      (Ends (fun value page' => page' = { page with steps := page.steps ++ [.sent command (.given value)] })
        (fun page' => page'.At stage ∧ ∃ detail, page'.steps.getLast? = some (.sent command (.refused detail)))
        fun _ => PageSession.Orderly) := by
  unfold sendCdp
  rw [after_get_bind, after_modify_bind]
  cases browser.answer page.steps command with
  | given value => exact rfl
  | refused detail =>
    have hrefused : PageSession.At { page with steps := page.steps ++ [.sent command (.refused detail)] } stage :=
      h.after (h.holds.refused (hturn _))
    simp only [after_throw]
    cases env.formatCdpError command.action detail with
    | none => exact ⟨stage, hrefused⟩
    | some text => exact ⟨hrefused, detail, List.getLast?_concat ..⟩
  | thrown => exact ⟨stage, h.after (h.holds.thrown (hturn _))⟩

/-- A command whose failure leaves the page session as it was. -/
theorem sendCdp_orderly {command : PageCommand} (h : page.At stage)
    (hturn : ∀ answer, InTurn page.steps (.sent command answer)) :
    After (env.sendCdp browser command) page
      (Ends (fun value page' => page' = { page with steps := page.steps ++ [.sent command (.given value)] })
        PageSession.Orderly fun _ => PageSession.Orderly) :=
  after_ends_mono (sendCdp_spec h hturn) (fun _ _ heq => heq) (fun _ hend => ⟨stage, hend.1⟩) fun _ _ h => h

theorem makeBrowserContext_spec (h : page.At .fresh) :
    After (env.makeBrowserContext browser) page
      (Ends (fun _ page' => ∃ context, page'.At (.context context)) PageSession.Orderly fun _ => PageSession.Orderly) := by
  refine after_ends_bind (sendCdp_orderly h fun _ => h.holds.contexts) ?_
  rintro context _ rfl
  rw [after_modify_bind]
  refine after_ends_mono (mark_spec .browserContextCreated ?_) ?_ (fun _ h => h) fun _ _ h => h
  · rw [show page.lifecycle = .idle from h.lifecycle]
    rfl
  · rintro _ _ rfl
    exact ⟨context, h.owned, rfl, h.cdpSession, rfl, h.targetId, h.sessionId, h.holds.context context⟩

theorem makeBlankTarget_spec {context : Bytes} (h : page.At (.context context)) :
    After (env.makeBlankTarget browser) page
      (Ends (fun _ page' => ∃ target, page'.At (.target context target)) PageSession.Orderly fun _ => PageSession.Orderly) := by
  refine after_ends_bind (require_spec h.browserContextId) ?_
  rintro _ _ ⟨rfl, rfl⟩
  refine after_ends_bind (sendCdp_orderly h fun _ => h.holds.contexts) ?_
  rintro target _ rfl
  rw [after_modify_bind]
  refine after_ends_mono (mark_spec .targetCreated ?_) ?_ (fun _ h => h) fun _ _ h => h
  · rw [h.lifecycle]
    rfl
  · rintro _ _ rfl
    exact ⟨target, h.owned, rfl, h.cdpSession, h.browserContextId, rfl, h.sessionId, h.holds.target target⟩

theorem attachToTarget_spec {context target : Bytes} (h : page.At (.target context target)) :
    After (env.attachToTarget browser) page
      (Ends (fun _ page' => ∃ session, page'.At (.attached false context target session)) PageSession.Orderly
        fun _ => PageSession.Orderly) := by
  refine after_ends_bind (require_spec h.targetId) ?_
  rintro target page ⟨rfl, rfl⟩
  refine after_ends_bind (sendCdp_orderly h fun _ => h.holds.target_created _ rfl) ?_
  rintro session _ rfl
  have hattached := h.holds.attachedTo session
  have hpage : PageSession.At { page with steps := page.steps ++ [.sent (.attachToTarget target) (.given session)] }
      (.target context target) := h.after hattached
  have hmem : PageStep.sent (.attachToTarget target) (.given session) ∈
      page.steps ++ [PageStep.sent (.attachToTarget target) (.given session)] := List.mem_concat_self ..
  refine after_ends_bind (sendCdp_orderly hpage fun _ => ⟨hattached.sessions, hmem⟩) ?_
  rintro value _ rfl
  rw [after_modify_bind]
  refine after_ends_mono (mark_spec .attached ?_) ?_ (fun _ h => h) fun _ _ h => h
  · rw [show page.lifecycle = .targetCreated from h.lifecycle]
    rfl
  · rintro _ _ rfl
    exact ⟨session, h.owned, rfl, rfl, h.browserContextId, h.targetId, rfl, hattached.registered hmem value⟩

theorem attachFreshTarget_spec (h : page.At .fresh) :
    After (env.attachFreshTarget browser) page
      (Ends (fun _ page' => ∃ context target session, page'.At (.attached false context target session))
        PageSession.Orderly fun _ => PageSession.Orderly) := by
  refine after_ends_bind (markPhase_spec h _) fun _ _ h => ?_
  refine after_ends_bind (makeBrowserContext_spec h) fun _ _ ⟨context, h⟩ => ?_
  refine after_ends_bind (markPhase_spec h _) fun _ _ h => ?_
  refine after_ends_bind (makeBlankTarget_spec h) fun _ _ ⟨target, h⟩ => ?_
  refine after_ends_bind (markPhase_spec h _) fun _ _ h => ?_
  exact after_ends_mono (attachToTarget_spec h) (fun _ _ ⟨session, h⟩ => ⟨context, target, session, h⟩) (fun _ h => h)
    fun _ _ h => h

/-- A command in a session that is attached leaves the page session as it was. -/
theorem sendInSession_spec (h : page.At stage) (hsession : stage.sessionId.isSome) (method : String) :
    After (env.sendInSession browser method) page
      (Ends (fun _ page' => page'.At stage) (fun page' => page'.At stage) fun _ => PageSession.Orderly) := by
  have hcdp : (if page.cdpSession then some [] else none) = some ([] : Bytes) := by simp [h.cdpSession, hsession]
  have hturn : ∀ answer, InTurn page.steps (.sent (.inSession (ascii method)) answer) := by
    intro answer
    obtain ⟨session, hid⟩ := Option.isSome_iff_exists.mp hsession
    rw [InTurn, h.holds.sessions, hid]
    exact List.cons_ne_nil _ _
  refine after_ends_bind (require_spec hcdp) ?_
  rintro _ _ ⟨rfl, rfl⟩
  refine after_ends_bind (after_ends_mono (sendCdp_spec h hturn) (fun _ _ heq => heq) (fun _ hend => hend.1) fun _ _ h => h) ?_
  rintro value _ rfl
  exact h.after (h.holds.inSession hsession)

theorem enablePageDomains_spec {context target session : Bytes} (h : page.At (.attached false context target session)) :
    After (env.enablePageDomains browser) page
      (Ends (fun _ page' => page'.At (.attached true context target session)) PageSession.Orderly
        fun _ => PageSession.Orderly) := by
  have hsend {page : PageSession env.una} (h : page.At (.attached false context target session)) (method : String) :
      After (env.sendInSession browser method) page
        (Ends (fun _ page' => page'.At (.attached false context target session)) PageSession.Orderly
          fun _ => PageSession.Orderly) :=
    after_ends_mono (sendInSession_spec h rfl method) (fun _ _ h => h) (fun _ h => ⟨_, h⟩) fun _ _ h => h
  refine after_ends_bind (markPhase_spec h _) fun _ _ h => ?_
  refine after_ends_bind (hsend h _) fun _ _ h => ?_
  refine after_ends_bind (markPhase_spec h _) fun _ _ h => ?_
  refine after_ends_bind (hsend h _) fun _ _ h => ?_
  refine after_ends_bind (markPhase_spec h _) fun _ _ h => ?_
  refine after_ends_bind (hsend h _) fun _ _ h => ?_
  refine after_ends_bind (markPhase_spec h _) fun _ _ h => ?_
  refine after_ends_bind (hsend h _) fun _ page h => ?_
  refine after_ends_mono (mark_spec .baseDomainsEnabled ?_) ?_ (fun _ h => h) fun _ _ h => h
  · rw [show page.lifecycle = .attached from h.lifecycle]
    rfl
  · rintro _ _ rfl
    exact ⟨h.owned, rfl, h.cdpSession, h.browserContextId, h.targetId, h.sessionId, h.holds.enabled⟩

/-- A call whose error is only logged. -/
theorem suppressed_spec {call : PageProgram env.una PUnit} {good : PageSession env.una → Prop}
    {escaped : Escape → PageSession env.una → Prop} (h : After call page (Ends (fun _ => good) good escaped)) :
    After (env.suppressed call) page (Ends (fun _ => good) (fun _ => False) escaped) := by
  refine (after_bind _ _).mpr ((after_attempt call).mpr (h.imp ?_))
  rintro ((_ | _ | _) | _) page' hend
  · exact hend
  · exact hend
  · exact hend
  · exact hend

theorem useSession_spec (h : page.At stage) (hsession : stage.sessionId.isSome) (use : SessionUse) :
    After (env.useSession browser use) page
      (Ends (fun _ page' => page'.At stage) PageSession.Orderly fun _ => PageSession.Orderly) := by
  unfold useSession
  have hsend := @sendInSession_spec env browser page stage h hsession use.method
  split
  · exact after_ends_mono (suppressed_spec hsend) (fun _ _ h => h) (fun _ h => h.elim) fun _ _ h => h
  · exact after_ends_mono hsend (fun _ _ h => h) (fun _ h => ⟨stage, h⟩) fun _ _ h => h

theorem useSessions_spec (hsession : stage.sessionId.isSome) (uses : List SessionUse) :
    ∀ {page : PageSession env.una}, page.At stage → After (uses.forM (env.useSession browser)) page
      (Ends (fun _ page' => page'.At stage) PageSession.Orderly fun _ => PageSession.Orderly) := by
  induction uses with
  | nil => exact fun h => h
  | cons use uses ih => exact fun h => after_ends_bind (useSession_spec h hsession use) fun _ _ h => ih h

/-- The page session is in order, and the browser has just refused to take something back. -/
def Stuck (page : PageSession env.una) : Prop := page.Orderly ∧ CleanupFailed page.steps

theorem detach_spec (h : page.At stage) :
    After (env.detach browser) page
      (Ends (fun _ page' => page'.At stage.withoutSession) Stuck fun _ => PageSession.Orderly) := by
  unfold detach
  rw [after_get_bind]
  cases hid : page.sessionId with
  | none => exact (Stage.withoutSession_of_sessionId (h.sessionId ▸ hid)).symm ▸ h
  | some session =>
    have hstage : stage.sessionId = some session := h.sessionId ▸ hid
    cases stage with
    | attached enabled context target session =>
      obtain rfl := Option.some.inj hstage
      refine after_ends_bind (after_ends_mono (sendCdp_spec h fun _ => h.holds.sessions) (fun _ _ heq => heq) ?_ fun _ _ h => h) ?_
      · rintro page' ⟨hpage, detail, hlast⟩
        exact ⟨⟨_, hpage⟩, _, detail, hlast, .inl ⟨_, rfl⟩⟩
      · rintro value _ rfl
        rw [after_modify_bind]
        refine after_ends_mono (mark_spec .detached ?_) ?_ (fun _ h => h) fun _ _ h => h
        · rw [show page.lifecycle = _ from h.lifecycle]
          cases enabled <;> rfl
        · rintro _ _ rfl
          exact ⟨h.owned, rfl, rfl, h.browserContextId, h.targetId, rfl, h.holds.detached value⟩
    | _ => cases hstage

theorem disposeBrowserContext_spec (h : page.At stage) (hsession : stage.sessionId = none) :
    After (env.disposeBrowserContext browser) page
      (Ends (fun _ page' => page'.At stage.withoutContext) Stuck fun _ => PageSession.Orderly) := by
  unfold disposeBrowserContext
  rw [after_get_bind]
  cases hid : page.browserContextId with
  | none => exact (Stage.withoutContext_of_browserContextId (h.browserContextId ▸ hid)).symm ▸ h
  | some context =>
    have hcontext : stage.browserContextId = some context := h.browserContextId ▸ hid
    have hturn : ∀ answer, InTurn page.steps (.sent (.disposeBrowserContext context) answer) := fun _ =>
      ⟨by rw [h.holds.contexts, hcontext]; rfl, by rw [h.holds.sessions, hsession]; rfl⟩
    refine after_ends_bind (after_ends_mono (sendCdp_spec h hturn) (fun _ _ heq => heq) ?_ fun _ _ h => h) ?_
    · rintro page' ⟨hpage, detail, hlast⟩
      exact ⟨⟨_, hpage⟩, _, detail, hlast, .inr ⟨_, rfl⟩⟩
    · rintro value _ rfl
      obtain ⟨hstage, hprocess⟩ := Stage.disposes hcontext hsession
      rw [after_modify_bind]
      refine after_ends_mono (mark_spec .disposed ?_) ?_ (fun _ h => h) fun _ _ h => h
      · rw [show page.lifecycle = _ from h.lifecycle]
        exact hprocess
      · rintro _ _ rfl
        rw [hstage]
        exact ⟨h.owned, rfl, by rw [h.cdpSession, hsession]; rfl, rfl, rfl, h.sessionId.trans hsession,
          h.holds.disposed hcontext hsession value⟩

theorem stopPage_spec (h : page.At stage) :
    After (env.stopPage browser) page (Ends (fun _ page' => page'.At .stopped) Stuck fun _ => PageSession.Orderly) := by
  obtain ⟨hcontext, hsession, htarget, hprocess⟩ := stage.stops
  refine after_ends_bind (detach_spec h) fun _ _ h => ?_
  refine after_ends_bind (disposeBrowserContext_spec h stage.sessionId_withoutSession) fun _ page h => ?_
  refine after_ends_mono (mark_spec .stopped (h.lifecycle ▸ hprocess)) ?_ (fun _ h => h) fun _ _ h => h
  rintro _ _ rfl
  exact ⟨h.owned, rfl, by rw [h.cdpSession, hsession]; rfl, h.browserContextId.trans hcontext,
    h.targetId.trans htarget, h.sessionId.trans hsession, h.holds.stopped hcontext hsession⟩

theorem stopPageMarked_spec (h : page.At stage) :
    After (env.stopPageMarked browser) page (Ends (fun _ page' => page'.At .stopped) Stuck fun _ => PageSession.Orderly) := by
  unfold stopPageMarked
  rw [after_get_bind]
  have hdispose {page : PageSession env.una} (h : page.At stage.withoutSession) :
      After (do
        if (← get).browserContextId.isSome then
          markPhase browser "dispose_browser_context"
          env.disposeBrowserContext browser
        env.stopPage browser) page (Ends (fun _ page' => page'.At .stopped) Stuck fun _ => PageSession.Orderly) := by
    rw [after_get_bind]
    split
    · refine after_ends_bind (markPhase_spec h _) fun _ _ h => ?_
      refine after_ends_bind (disposeBrowserContext_spec h stage.sessionId_withoutSession) fun _ _ h => ?_
      exact stopPage_spec h
    · exact stopPage_spec h
  split
  · refine after_ends_bind (markPhase_spec h _) fun _ _ h => ?_
    exact after_ends_bind (detach_spec h) fun _ _ h => hdispose h
  · rename_i hsession
    refine hdispose ?_
    rw [Stage.withoutSession_of_sessionId]
    · exact h
    · rw [← h.sessionId]
      exact Option.not_isSome_iff_eq_none.mp hsession

theorem giveUpPage_spec (h : page.Orderly) :
    After (env.giveUpPage browser) page
      (Ends (fun _ page' => page'.Released) (fun _ => False) fun _ => PageSession.Orderly) := by
  obtain ⟨stage, h⟩ := h
  have hreleased {page : PageSession env.una} (h : page.At .stopped ∨ Stuck page) :
      PageSession.Released { page with owned := false } := by
    rcases h with h | ⟨⟨_, h⟩, hfailed⟩
    · exact ⟨rfl, h.holds.in_turn, .inl ⟨h.holds.contexts, h.holds.sessions⟩⟩
    · exact ⟨rfl, h.holds.in_turn, .inr hfailed⟩
  have hstop : After (env.stopPage browser) page
      (Ends (fun _ page' => page'.At .stopped ∨ Stuck page') (fun page' => page'.At .stopped ∨ Stuck page')
        fun _ => PageSession.Orderly) :=
    after_ends_mono (stopPage_spec h) (fun _ _ => .inl) (fun _ => .inr) fun _ _ h => h
  unfold giveUpPage
  rw [after_get_bind, if_pos h.owned]
  exact after_ends_bind (suppressed_spec hstop) fun _ _ h => hreleased h

/-- The page session is already given up. -/
theorem giveUpPage_of_not_owned (h : page.owned = false) {post : Except PageEnd PUnit → PageSession env.una → Prop} :
    After (env.giveUpPage browser) page post ↔ post (.ok ⟨⟩) page := by
  unfold giveUpPage
  rw [after_get_bind, if_neg (by rw [h]; exact Bool.false_ne_true)]
  exact after_pure _

/-- After the destructor the page session is given up, or the process has ended. -/
theorem destroySession_spec (h : page.Orderly ∨ page.Released) :
    After (env.destroySession browser) page
      (Ends (fun _ page' => page'.Released) (fun _ => False) fun escape page' => escape = .aborted ∧ page'.Orderly) := by
  unfold destroySession
  rw [after_bind, after_attempt]
  rcases h with h | h
  · refine (giveUpPage_spec h).imp ?_
    rintro ((_ | (_ | _) | _) | _) page' hend
    · exact hend
    · exact ⟨rfl, hend⟩
    · exact ⟨rfl, hend⟩
    · exact hend
    · exact hend
  · exact (giveUpPage_of_not_owned h.1).mpr h

/-- The destructor of a session without a page session. -/
theorem destroySession_of_not_owned (h : page.owned = false) {post : Except PageEnd PUnit → PageSession env.una → Prop}
    (hpost : post (.ok ⟨⟩) page) : After (env.destroySession browser) page post := by
  unfold destroySession
  rw [after_bind, after_attempt, giveUpPage_of_not_owned h]
  exact hpost

theorem interrupt_spec {good : PageSession env.una → Prop} (h : good page) (interruption : Option Interruption) :
    After (interrupt interruption) page (Ends (fun _ => good) good fun _ => good) := by
  rcases interruption with _ | _ | _ <;> exact h

theorem diagnose_spec {good : PageSession env.una → Prop} {failed : PageSession env.una → Prop} (h : good page)
    (diagnosis : Option Escape) : After (diagnose diagnosis) page (Ends (fun _ => good) failed fun _ => good) := by
  cases diagnosis <;> exact h

/-- The page session as `Make` leaves it to its owner. -/
theorem at_fresh : PageSession.At { ({} : PageSession env.una) with owned := true } .fresh :=
  ⟨rfl, rfl, rfl, rfl, rfl, rfl, .nil⟩

/-- The page session of a capture that has stopped it and let go of it. -/
def Finished (page : PageSession env.una) : Prop := page.owned = false ∧ StandsAt page.steps .stopped

theorem Finished.released (h : Finished page) : page.Released :=
  ⟨h.1, h.2.in_turn, .inl ⟨h.2.contexts, h.2.sessions⟩⟩

theorem captureInPage_spec (uses : List SessionUse) (early late : Option Interruption) :
    After (env.captureInPage browser uses early late) {}
      (Ends (fun _ => Finished) (fun page => page.Orderly ∨ Finished page)
        fun _ page => page.Orderly ∨ Finished page) := by
  have hleft {α : Type} {m : PageProgram env.una α} {good : α → PageSession env.una → Prop} {page : PageSession env.una}
      (h : After m page (Ends good PageSession.Orderly fun _ => PageSession.Orderly)) :
      After m page (Ends good (fun page => page.Orderly ∨ Finished page) fun _ page => page.Orderly ∨ Finished page) :=
    after_ends_mono h (fun _ _ h => h) (fun _ => .inl) fun _ _ => .inl
  unfold captureInPage
  rw [after_modify_bind]
  refine after_ends_bind (hleft (attachFreshTarget_spec at_fresh)) fun _ _ ⟨context, target, session, h⟩ => ?_
  refine after_ends_bind (require_spec h.sessionId) ?_
  rintro _ _ ⟨rfl, rfl⟩
  refine after_ends_bind (require_spec h.targetId) ?_
  rintro _ _ ⟨rfl, rfl⟩
  refine after_ends_bind (hleft (enablePageDomains_spec h)) fun _ _ h => ?_
  refine after_ends_bind (hleft (useSessions_spec rfl uses h)) fun _ _ h => ?_
  refine after_ends_bind (hleft (after_ends_mono (interrupt_spec h early) (fun _ _ h => h) (fun _ h => ⟨_, h⟩)
    fun _ _ h => ⟨_, h⟩)) fun _ _ h => ?_
  refine after_ends_bind (hleft (after_ends_mono (stopPageMarked_spec h) (fun _ _ h => h) (fun _ h => h.1)
    fun _ _ h => h)) fun _ page h => ?_
  rw [after_modify_bind]
  have hfinished : Finished { page with owned := false } := ⟨rfl, h.holds⟩
  exact after_ends_mono (interrupt_spec hfinished late) (fun _ _ h => h) (fun _ => .inr) fun _ _ => .inr

/-- A capture that fails has given its page session up before the destructor; one that throws may leave it to it. -/
theorem captureSession_spec (uses : List SessionUse) (early late : Option Interruption) (diagnosis : Option Escape) :
    After (env.captureSession browser uses early late diagnosis) {}
      (Ends (fun _ => Finished) PageSession.Released fun _ page => page.Orderly ∨ page.Released) := by
  unfold captureSession
  refine (after_bind _ _).mpr ((after_attempt _).mpr ((captureInPage_spec uses early late).imp ?_))
  have hgive {page : PageSession env.una} (h : page.Orderly ∨ page.Released) : After (env.giveUpPage browser) page
      (Ends (fun _ => PageSession.Released) PageSession.Released fun _ page => page.Orderly ∨ page.Released) := by
    rcases h with h | h
    · exact after_ends_mono (giveUpPage_spec h) (fun _ _ h => h) (fun _ h => h.elim) fun _ _ => .inl
    · exact (giveUpPage_of_not_owned h.1).mpr h
  rintro ((text | _ | _) | _) page hend
  · refine after_ends_bind (diagnose_spec (hend.imp_right Finished.released) diagnosis) fun _ _ h => ?_
    exact after_ends_bind (hgive h) fun _ _ h => h
  · exact hend.imp_right Finished.released
  · exact hend
  · exact hend

theorem probeInPage_spec (uses : List SessionUse) (early : Option Interruption) :
    After (env.probeInPage browser uses early) {}
      (Ends (fun _ => PageSession.Orderly) PageSession.Orderly fun _ => PageSession.Orderly) := by
  unfold probeInPage
  rw [after_modify_bind]
  refine after_ends_bind (attachFreshTarget_spec at_fresh) fun _ page ⟨context, target, session, h⟩ => ?_
  have hcdp : (if page.cdpSession then some [] else none) = some ([] : Bytes) := by rw [h.cdpSession]; rfl
  refine after_ends_bind (require_spec hcdp) ?_
  rintro _ _ ⟨rfl, rfl⟩
  refine after_ends_bind (enablePageDomains_spec h) fun _ _ h => ?_
  refine after_ends_bind (useSessions_spec rfl uses h) fun _ page h => ?_
  have horderly : page.Orderly := ⟨_, h⟩
  exact interrupt_spec horderly early

end CaptureEnv
end Webshot.Crawler
