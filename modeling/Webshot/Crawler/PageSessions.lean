import Webshot.Crawler.CaptureErrors
import Webshot.Foundation.FailingPrograms

/-! `BrowserPageSession`: the browser context, target and session a capture or a probe works in, from their creation
to their disposal. -/
namespace Webshot.Crawler
open Text Foundation.FailingPrograms

/-- The states of `BrowserPageSessionLifecycle`. -/
inductive Lifecycle where
  | idle
  | browserContextCreated
  | targetCreated
  | attached
  | baseDomainsEnabled
  | detached
  | disposed
  | stopped
  deriving DecidableEq

inductive LifecycleEvent where
  | browserContextCreated
  | targetCreated
  | attached
  | baseDomainsEnabled
  | detached
  | disposed
  | stopped

/-- The transition table; an event that is not in it is rejected. -/
def Lifecycle.process : Lifecycle → LifecycleEvent → Option Lifecycle
  | idle, .browserContextCreated => some browserContextCreated
  | browserContextCreated, .targetCreated => some targetCreated
  | targetCreated, .attached => some attached
  | attached, .baseDomainsEnabled => some baseDomainsEnabled
  | attached, .detached => some detached
  | baseDomainsEnabled, .detached => some detached
  | detached, .detached => some detached
  | disposed, .detached => some disposed
  | stopped, .detached => some stopped
  | browserContextCreated, .disposed => some disposed
  | targetCreated, .disposed => some disposed
  | detached, .disposed => some disposed
  | disposed, .disposed => some disposed
  | stopped, .disposed => some stopped
  | idle, .stopped => some stopped
  | disposed, .stopped => some stopped
  | stopped, .stopped => some stopped
  | _, _ => none

/-- What a page session asks of the browser and of the CDP client; `makeSession` is the registration in the client. -/
inductive PageCommand where
  | createBrowserContext
  | createTarget (browserContextId : Bytes)
  | attachToTarget (targetId : Bytes)
  | makeSession (sessionId targetId : Bytes)
  | inSession (method : Bytes)
  | detachFromTarget (sessionId : Bytes)
  | disposeBrowserContext (browserContextId : Bytes)

def PageCommand.method : PageCommand → Bytes
  | createBrowserContext => ascii "Target.createBrowserContext"
  | createTarget _ => ascii "Target.createTarget"
  | attachToTarget _ => ascii "Target.attachToTarget"
  | makeSession _ _ => []
  | inSession method => method
  | detachFromTarget _ => ascii "Target.detachFromTarget"
  | disposeBrowserContext _ => ascii "Target.disposeBrowserContext"

/-- The words of `FormatCdpError` for a command that fails. -/
def PageCommand.action : PageCommand → Bytes
  | makeSession _ _ => ascii "failed to register cdp target session"
  | command => command.method ++ ascii " failed"

/-- What comes of a command: a value, which is an id where the command creates something, an error, or an exception
out of the call, as in a task that is cancelled. -/
inductive Answer (una : UniAlgo) where
  | given (value : Bytes)
  | refused (detail : Option (Str una))
  | thrown

/-- A phase marked in the phase file, where the file may fail to be written, or a command with its answer. -/
inductive PageStep (una : UniAlgo) where
  | marked (phase : Bytes) (written : Bool)
  | sent (command : PageCommand) (answer : Answer una)

/-- What the browser and the client answer to a command and which phase can be marked; both may depend on all steps
before. -/
structure Browser (una : UniAlgo) where
  answer : List (PageStep una) → PageCommand → Answer una
  writesPhase : List (PageStep una) → Bytes → Bool

/-- A `BrowserPageSession`, whether its owner still holds it, and the steps taken so far. -/
structure PageSession (una : UniAlgo) where
  lifecycle : Lifecycle := .idle
  cdpSession : Bool := false
  browserContextId : Option Bytes := none
  targetId : Option Bytes := none
  sessionId : Option Bytes := none
  owned : Bool := false
  steps : List (PageStep una) := []

/-- A call that does not return throws an exception, or ends the process: by the abort of `text::Format`, or by an
exception out of a destructor. -/
inductive Escape where
  | thrown
  | aborted
  deriving DecidableEq

/-- A call ends without a value with an error it returns, without returning, or with a failed invariant. -/
inductive PageEnd where
  | error (text : Bytes)
  | escaped (escape : Escape)
  | invariantFailed (message : Bytes)
  deriving DecidableEq

abbrev PageProgram (una : UniAlgo) := Program (PageSession una) PageEnd

section Calls
variable {una : UniAlgo}

/-- `MarkPhase`, which rewrites the phase file. -/
def markPhase (browser : Browser una) (phase : String) : PageProgram una PUnit := do
  let written := browser.writesPhase (← get).steps (ascii phase)
  modify fun page => { page with steps := page.steps ++ [.marked (ascii phase) written] }
  if written then return ⟨⟩ else throw (.escaped .thrown)

/-- `Invariant` on a value that may be missing. -/
def require (value : PageSession una → Option Bytes) (message : String) : PageProgram una Bytes := do
  match value (← get) with
  | some value => return value
  | none => throw (.invariantFailed (ascii message))

/-- `Invariant` on a `Mark…` method of the lifecycle. -/
def mark (event : LifecycleEvent) (message : String) : PageProgram una PUnit := do
  match (← get).lifecycle.process event with
  | some lifecycle => modify fun page => { page with lifecycle := lifecycle }
  | none => throw (.invariantFailed (ascii ("invalid browser page lifecycle transition after " ++ message)))

end Calls

namespace CaptureEnv
variable (env : CaptureEnv) (browser : Browser env.una)

/-- `SendCdp`, and the registration of a session. -/
def sendCdp (command : PageCommand) : PageProgram env.una Bytes := do
  let answer := browser.answer (← get).steps command
  modify fun page => { page with steps := page.steps ++ [.sent command answer] }
  match answer with
  | .given value => return value
  | .refused detail => throw ((env.formatCdpError command.action detail).elim (.escaped .aborted) .error)
  | .thrown => throw (.escaped .thrown)

def makeBrowserContext : PageProgram env.una PUnit := do
  let browserContextId ← env.sendCdp browser .createBrowserContext
  modify fun page => { page with browserContextId := some browserContextId }
  mark .browserContextCreated "creating browser context"

def makeBlankTarget : PageProgram env.una PUnit := do
  let browserContextId ← require (·.browserContextId) "browser context must exist before creating a target"
  let targetId ← env.sendCdp browser (.createTarget browserContextId)
  modify fun page => { page with targetId := some targetId }
  mark .targetCreated "creating target"

def attachToTarget : PageProgram env.una PUnit := do
  let targetId ← require (·.targetId) "target must exist before attaching"
  let sessionId ← env.sendCdp browser (.attachToTarget targetId)
  let _ ← env.sendCdp browser (.makeSession sessionId targetId)
  modify fun page => { page with sessionId := some sessionId, cdpSession := true }
  mark .attached "attaching target"

def attachFreshTarget : PageProgram env.una PUnit := do
  markPhase browser "create_browser_context"
  env.makeBrowserContext browser
  markPhase browser "create_target"
  env.makeBlankTarget browser
  markPhase browser "attach_target"
  env.attachToTarget browser

/-- A command of the page's own session, which `GetSession` must find. -/
def sendInSession (method : String) : PageProgram env.una PUnit := do
  let _ ← require (fun page => if page.cdpSession then some [] else none) "target session is not attached"
  let _ ← env.sendCdp browser (.inSession (ascii method))

def enablePageDomains : PageProgram env.una PUnit := do
  markPhase browser "enable_page"
  env.sendInSession browser "Page.enable"
  markPhase browser "enable_runtime"
  env.sendInSession browser "Runtime.enable"
  markPhase browser "enable_network"
  env.sendInSession browser "Network.enable"
  markPhase browser "enable_lifecycle_events"
  env.sendInSession browser "Page.setLifecycleEventsEnabled"
  mark .baseDomainsEnabled "enabling base CDP domains"

def detach : PageProgram env.una PUnit := do
  match (← get).sessionId with
  | none => return ⟨⟩
  | some sessionId =>
    let _ ← env.sendCdp browser (.detachFromTarget sessionId)
    modify fun page => { page with cdpSession := false, sessionId := none }
    mark .detached "detaching target"

def disposeBrowserContext : PageProgram env.una PUnit := do
  match (← get).browserContextId with
  | none => return ⟨⟩
  | some browserContextId =>
    let _ ← env.sendCdp browser (.disposeBrowserContext browserContextId)
    modify fun page => { page with browserContextId := none, targetId := none }
    mark .disposed "disposing browser context"

/-- `Stop()`. -/
def stopPage : PageProgram env.una PUnit := do
  env.detach browser
  env.disposeBrowserContext browser
  mark .stopped "stopping page session"

/-- `Stop(mark_phase)`. -/
def stopPageMarked : PageProgram env.una PUnit := do
  if (← get).sessionId.isSome then
    markPhase browser "detach_target"
    env.detach browser
  if (← get).browserContextId.isSome then
    markPhase browser "dispose_browser_context"
    env.disposeBrowserContext browser
  env.stopPage browser

/-- A call whose error is only logged; an exception or an abort remains one. -/
def suppressed (call : PageProgram env.una PUnit) : PageProgram env.una PUnit := do
  match ← attempt call with
  | .ok _ | .error (.error _) => return ⟨⟩
  | .error ending => throw ending

/-- `StopCdpForError` and `CleanupProbeSession`, as far as the page session. -/
def giveUpPage : PageProgram env.una PUnit := do
  if (← get).owned then
    env.suppressed (env.stopPage browser)
    modify fun page => { page with owned := false }

end CaptureEnv

/-- A command sent in the page's session between its preparation and its end, and whether the capture goes on when it
fails. -/
structure SessionUse where
  method : String
  ignored : Bool

/-- How a capture or a probe breaks off where no command of the page session fails. -/
inductive Interruption where
  | failed
  | escaped (escape : Escape)

section Calls
variable {una : UniAlgo}

def interrupt : Option Interruption → PageProgram una PUnit
  | none => return ⟨⟩
  | some .failed => throw (.error [])
  | some (.escaped escape) => throw (.escaped escape)

/-- `MakeErrorDetail` and what is added to its text, which change nothing. -/
def diagnose : Option Escape → PageProgram una PUnit
  | none => return ⟨⟩
  | some escape => throw (.escaped escape)

end Calls

namespace CaptureEnv
variable (env : CaptureEnv) (browser : Browser env.una)

def useSession (use : SessionUse) : PageProgram env.una PUnit :=
  if use.ignored then env.suppressed (env.sendInSession browser use.method) else env.sendInSession browser use.method

/-- `Start` and `CaptureAttachedTarget`, as far as the page session: the other steps are the commands they send in the
session and how they break off, before the page session is stopped or after it. -/
def captureInPage (uses : List SessionUse) (early late : Option Interruption) : PageProgram env.una PUnit := do
  modify fun page => { page with owned := true }
  env.attachFreshTarget browser
  let _ ← require (·.sessionId) "target is not attached"
  let _ ← require (·.targetId) "target is not created"
  env.enablePageDomains browser
  uses.forM (env.useSession browser)
  interrupt early
  env.stopPageMarked browser
  modify fun page => { page with owned := false }
  interrupt late

/-- `CaptureSession::Capture`. -/
def captureSession (uses : List SessionUse) (early late : Option Interruption) (diagnosis : Option Escape) :
    PageProgram env.una PUnit := do
  match ← attempt (env.captureInPage browser uses early late) with
  | .ok _ => return ⟨⟩
  | .error (.error text) =>
    diagnose diagnosis
    env.giveUpPage browser
    throw (.error text)
  | .error ending => throw ending

/-- `~CaptureSession`; an exception out of it ends the process. -/
def destroySession : PageProgram env.una PUnit := do
  match ← attempt (env.giveUpPage browser) with
  | .ok _ => return ⟨⟩
  | .error (.escaped .thrown) => throw (.escaped .aborted)
  | .error ending => throw ending

/-- A capture, and the destructor after it unless the process has ended. -/
def capturePage (uses : List SessionUse) (early late : Option Interruption) (diagnosis : Option Escape) :
    PageProgram env.una PUnit := do
  match ← attempt (env.captureSession browser uses early late diagnosis) with
  | .ok _ => env.destroySession browser
  | .error (.error text) =>
    env.destroySession browser
    throw (.error text)
  | .error (.escaped .thrown) =>
    env.destroySession browser
    throw (.escaped .thrown)
  | .error ending => throw ending

/-- The part of `RunProbe` whose error gets its details. -/
def probeInPage (uses : List SessionUse) (early : Option Interruption) : PageProgram env.una PUnit := do
  modify fun page => { page with owned := true }
  env.attachFreshTarget browser
  let _ ← require (fun page => if page.cdpSession then some [] else none) "target session is not attached"
  env.enablePageDomains browser
  uses.forM (env.useSession browser)
  interrupt early

/-- `RunProbe`, as far as the page session; an exception passes its clean-up by. -/
def probePage (uses : List SessionUse) (early : Option Interruption) (diagnosis : Option Escape) :
    PageProgram env.una PUnit := do
  match ← attempt (env.probeInPage browser uses early) with
  | .ok _ => env.giveUpPage browser
  | .error (.error text) =>
    diagnose diagnosis
    env.giveUpPage browser
    throw (.error text)
  | .error ending => throw ending

end CaptureEnv
end Webshot.Crawler
