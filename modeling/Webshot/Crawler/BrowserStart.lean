import Webshot.Crawler.ErrorDetail
import Webshot.Text.Utf8

/-! How the start of a browser and the connection to it fail, and the logs that the error quotes. -/
namespace Webshot.Crawler
open Text Foundation

def maxLogBytes : Int := 64 * 1024

/-- `ReadLogTail`: a missing file is empty, and a long one keeps its head and its tail. -/
def readLogTail : Option Bytes → Bytes
  | none => []
  | some value => if (value.length : Int) ≤ maxLogBytes then value else retainLogHeadAndTail value maxLogBytes

def formatBrowserLogs (stdoutLog stderrLog : Bytes) : Bytes :=
  ascii "stdout=" ++ ((if stdoutLog.isEmpty then ascii "empty" else stdoutLog) ++ (ascii ", stderr=" ++
    if stderrLog.isEmpty then ascii "empty" else stderrLog))

def formatStartLogs (stdoutLog stderrLog bwrapStatus : Bytes) : Bytes :=
  let value := formatBrowserLogs stdoutLog stderrLog
  if bwrapStatus.isEmpty then value else value ++ (ascii ", bwrap_status=" ++ bwrapStatus)

/-- `CurrentStartLogs`, with the files as they are when it is called. -/
def BrowserFiles.currentStartLogs (files : BrowserFiles) : Bytes :=
  formatStartLogs (readLogTail files.stdoutLog) (readLogTail files.stderrLog) (readLogTail files.bwrapStatus)

/-- How `WaitForDevtoolsPath` fails. -/
inductive DevtoolsProblem where
  | exited
  | neverWritten
  | noSocket
  | noHandshake

def DevtoolsProblem.words : DevtoolsProblem → Bytes
  | exited => ascii "chromium exited before exposing devtools"
  | neverWritten => ascii "devtools websocket path was never written"
  | noSocket => ascii "devtools websocket path was written but cdp socket never appeared"
  | noHandshake => ascii "devtools websocket path and cdp socket appeared but handshake never started"

/-- How `Impl::Start` fails: before Chromium runs, with what the system says of it, or while the devtools are waited
for, with the files as the wait finds them at its end. -/
inductive StartProblem where
  | trustDb (sourcePath : Bytes)
  | runDir (rootDir what : Bytes)
  | bind (what : Bytes)
  | devtools (problem : DevtoolsProblem) (files : BrowserFiles)

/-- The text before anything that is quoted. -/
def StartProblem.words : StartProblem → Bytes
  | trustDb _ => ascii "failed to stage local fixture trust db"
  | runDir _ _ => ascii "failed to open browser run dir"
  | bind _ => ascii "proxy bind then listen failed"
  | devtools problem _ => problem.words

/-- How an attempt of `ConnectCdpOnce` fails. -/
inductive ConnectProblem (una : UniAlgo) where
  | runDir (rootDir what : Bytes)
  | handshake (detail : Option (Str una))

def ConnectProblem.words {una : UniAlgo} : ConnectProblem una → Bytes
  | runDir _ _ => ascii "failed to open browser run dir"
  | handshake _ => ascii "devtools websocket handshake failed"

/-- An attempt that failed, and the files as they are then. -/
structure FailedAttempt (una : UniAlgo) where
  problem : ConnectProblem una
  files : BrowserFiles

namespace CaptureEnv
variable (env : CaptureEnv)

/-- The error of `OpenBrowserRunDir`. -/
def openBrowserRunDirError (rootDir what : Bytes) : Option Bytes :=
  env.format (ascii "failed to open browser run dir" ++ (ascii " " ++ (rootDir ++ (ascii ": " ++ what))))

/-- Words of the program's own with the logs behind them. -/
def withStartLogs (text : Bytes) (files : BrowserFiles) : Option Bytes :=
  env.format (text ++ (ascii " (" ++ (files.currentStartLogs ++ ascii ")")))

/-- The text of the error before the diagnostics; `none` is the abort over something quoted that is no text. -/
def startMessage : StartProblem → Option Bytes
  | .trustDb sourcePath => do
    let error ← env.format (ascii "source file does not exist: " ++ sourcePath)
    env.format (ascii "failed to stage local fixture trust db" ++ (ascii ": " ++ error))
  | .runDir rootDir what => env.openBrowserRunDirError rootDir what
  | .bind what => env.format (ascii "proxy bind then listen failed" ++ (ascii ": " ++ what))
  | .devtools problem files => env.withStartLogs problem.words files

/-- The error of `Impl::Start`; once Chromium was started it has diagnostics. -/
def startError (parseCgroupStats : Bytes → Option (CgroupReport env.una)) (problem : StartProblem)
    (files : BrowserFiles) (proxy : ProxyReading env.una) : Option Bytes := do
  let text ← env.startMessage problem
  match problem with
  | .devtools _ _ => env.makeErrorDetail parseCgroupStats text files (some proxy)
  | _ => return text

def connectOnceError : ConnectProblem env.una → Option Bytes
  | .runDir rootDir what => env.openBrowserRunDirError rootDir what
  | .handshake detail => env.formatCdpError (ascii "devtools websocket handshake failed") detail

def attemptError (attempt : FailedAttempt env.una) : Option Bytes := do
  env.withStartLogs (← env.connectOnceError attempt.problem) attempt.files

/-- `ConnectCdp` after its failed attempts: it has connected, or the deadline is reached with the files as they are
then. Every attempt's error is put into words, also where a later one succeeds. -/
def connectCdp (attempts : List (FailedAttempt env.una)) (connected : Except BrowserFiles Unit) :
    Option (Except Bytes Unit) := do
  let errors ← attempts.mapM env.attemptError
  match connected with
  | .ok _ => return .ok ()
  | .error files =>
    match errors.getLast? with
    | some lastError => return .error lastError
    | none => return .error (← env.withStartLogs (ascii "devtools websocket handshake failed after 0 attempt(s)") files)

end CaptureEnv

/-- The words of the error of `ConnectCdp`. -/
def connectWords {una : UniAlgo} (attempts : List (FailedAttempt una)) : Bytes :=
  match attempts.getLast? with
  | some attempt => attempt.problem.words
  | none => ascii "devtools websocket handshake failed after 0 attempt(s)"

/-- The logs that `CurrentStartLogs` quotes are texts, as it cuts them. -/
structure BrowserFiles.StartReadable (files : BrowserFiles) : Prop where
  stdoutLog : Utf8 (readLogTail files.stdoutLog)
  stderrLog : Utf8 (readLogTail files.stderrLog)
  bwrapStatus : Utf8 (readLogTail files.bwrapStatus)

/-- What the error quotes is text. -/
def StartProblem.Quotable : StartProblem → Prop
  | trustDb sourcePath => Utf8 sourcePath
  | runDir rootDir what => Utf8 rootDir ∧ Utf8 what
  | bind what => Utf8 what
  | devtools _ files => files.StartReadable

/-- The error has diagnostics: Chromium was started. -/
def StartProblem.Diagnosed : StartProblem → Prop
  | devtools _ _ => True
  | _ => False

def ConnectProblem.Quotable {una : UniAlgo} : ConnectProblem una → Prop
  | runDir rootDir what => Utf8 rootDir ∧ Utf8 what
  | handshake _ => True

def FailedAttempt.Quotable {una : UniAlgo} (attempt : FailedAttempt una) : Prop :=
  attempt.problem.Quotable ∧ attempt.files.StartReadable

/-- What `ConnectCdp` quotes is text. -/
def ConnectQuotable {una : UniAlgo} (attempts : List (FailedAttempt una)) (connected : Except BrowserFiles Unit) :
    Prop :=
  (∀ attempt ∈ attempts, attempt.Quotable) ∧ ∀ files, connected = .error files → attempts = [] → files.StartReadable

/-- Words of the program's own that begin as neither limit does. -/
structure NamesNoLimit (words : Bytes) : Prop where
  own : IsOwnWords words
  notSize : words.head? ≠ some 115

theorem NamesNoLimit.ofList {x y : Char} {chars : List Char} (hnet : x.toNat ≠ 110) (hsize : x.toNat ≠ 115)
    (h : ((x :: y :: chars).all fun c => decide (c.toNat < 128)) = true) :
    NamesNoLimit (ascii (String.ofList (x :: y :: chars))) := by
  refine ⟨.ofList hnet h, ?_⟩
  rw [ascii, String.toList_ofList, List.map_cons, List.head?_cons, ne_eq, Option.some.injEq, Fin.ext_iff]
  have hlt : x.toNat < 128 := of_decide_eq_true (List.all_eq_true.mp h x List.mem_cons_self)
  rw [Fin.ofNat, Fin.val_mk]
  omega

section Logs
variable {stdoutLog stderrLog bwrapStatus log : Bytes}

theorem utf8_around_iff {a middle b : Bytes} (hmiddle : IsAscii middle) (hne : middle ≠ []) :
    Utf8 (a ++ (middle ++ b)) ↔ Utf8 a ∧ Utf8 b := by
  rw [← List.append_assoc]
  exact LeadCode.isText_around_iff (Utf8.of_ascii hmiddle) hne

theorem utf8_ascii_append_iff {a b : Bytes} (ha : IsAscii a) : Utf8 (a ++ b) ↔ Utf8 b :=
  ⟨(Utf8.of_ascii ha).of_append_left, (Utf8.of_ascii ha).append⟩

theorem utf8_orEmpty_iff : Utf8 (if log.isEmpty then ascii "empty" else log) ↔ Utf8 log := by
  cases log with
  | nil => exact iff_of_true (Utf8.of_ascii (.ofList rfl)) .nil
  | cons x log => exact Iff.rfl

theorem utf8_formatStartLogs_iff :
    Utf8 (formatStartLogs stdoutLog stderrLog bwrapStatus) ↔ Utf8 stdoutLog ∧ Utf8 stderrLog ∧ Utf8 bwrapStatus := by
  have hbrowser : Utf8 (formatBrowserLogs stdoutLog stderrLog) ↔ Utf8 stdoutLog ∧ Utf8 stderrLog := by
    rw [formatBrowserLogs, utf8_ascii_append_iff (.ofList rfl), utf8_around_iff (.ofList rfl) (by decide),
      utf8_orEmpty_iff, utf8_orEmpty_iff]
  rw [formatStartLogs, ← and_assoc, ← hbrowser]
  cases bwrapStatus with
  | nil => exact (and_iff_left .nil).symm
  | cons x bwrapStatus => exact utf8_around_iff (.ofList rfl) (by decide)

theorem utf8_currentStartLogs_iff {files : BrowserFiles} : Utf8 files.currentStartLogs ↔ files.StartReadable := by
  rw [BrowserFiles.currentStartLogs, utf8_formatStartLogs_iff]
  exact ⟨fun ⟨hout, herr, hstatus⟩ => ⟨hout, herr, hstatus⟩, fun h => ⟨h.stdoutLog, h.stderrLog, h.bwrapStatus⟩⟩

end Logs

/-- A text that begins as the words do. -/
structure Worded (una : UniAlgo) (words text : Bytes) : Prop where
  valid : una.isValidUtf8 text = true
  normal : una.toNfcUtf8 text = text
  head : text.head? = words.head?

section Messages
variable {env : CaptureEnv} {words text quote : Bytes}

/-- Words of the program's own with a quote behind them. -/
theorem format_words (hutf8 : env.una.ChecksUtf8) (laws : TextLaws env.una) (hwords : IsOwnWords words)
    (hquote : Utf8 quote) : ∃ text, env.format (words ++ quote) = some text ∧ Worded env.una words text := by
  obtain ⟨hascii, hlength, _⟩ := hwords
  match words, hlength with
  | x :: y :: words, _ =>
    obtain ⟨hx, hascii'⟩ := List.forall_mem_cons.mp hascii
    have hrest : Utf8 (y :: words ++ quote) := (utf8_ascii_append_iff hascii').mpr hquote
    have hall : Utf8 (x :: y :: words ++ quote) := (utf8_ascii_append_iff hascii).mpr hquote
    have hformat : env.format (x :: y :: words ++ quote) = some _ := fromBytes_of_valid ((hutf8 _).mpr hall)
    refine ⟨_, hformat, laws.valid_text hformat, laws.nfc_text hformat, ?_⟩
    exact TextLaws.head_kept laws hx (hascii' y List.mem_cons_self) ((hutf8 _).mpr hrest) hformat

/-- A worded text with a quote behind it. -/
theorem Worded.format (hutf8 : env.una.ChecksUtf8) (laws : TextLaws env.una) (h : Worded env.una words text)
    (hne : words ≠ []) {x : Byte} (hx : x.val < 128) (hquote : Utf8 (x :: quote)) :
    ∃ longer, env.format (text ++ x :: quote) = some longer ∧ Worded env.una words longer := by
  have hformat := laws.fromBytes_append h.valid h.normal hx ((hutf8 _).mpr hquote)
  refine ⟨_, hformat, laws.valid_text hformat, laws.nfc_text hformat, ?_⟩
  rw [← h.head]
  cases text with
  | nil => exact absurd (List.head?_eq_none_iff.mp h.head.symm) hne
  | cons y text => rfl

/-- What a message quotes is text. -/
theorem utf8_of_format (hutf8 : env.una.ChecksUtf8) (htext : Utf8 text) {longer : Bytes}
    (h : env.format (text ++ quote) = some longer) : Utf8 quote :=
  htext.of_append_left ((hutf8 _).mp (valid_of_fromBytes h))

theorem openBrowserRunDirError_spec (hutf8 : env.una.ChecksUtf8) (laws : TextLaws env.una) {rootDir what : Bytes}
    (h : Utf8 rootDir ∧ Utf8 what) :
    ∃ text, env.openBrowserRunDirError rootDir what = some text ∧
      Worded env.una (ascii "failed to open browser run dir") text := by
  refine format_words hutf8 laws (.ofList (by decide) rfl) ?_
  rw [utf8_ascii_append_iff (.ofList rfl), utf8_around_iff (.ofList rfl) (by decide)]
  exact h

theorem utf8_of_openBrowserRunDirError (hutf8 : env.una.ChecksUtf8) {rootDir what : Bytes}
    (h : env.openBrowserRunDirError rootDir what = some text) : Utf8 rootDir ∧ Utf8 what := by
  have hquote := utf8_of_format hutf8 (Utf8.of_ascii (.ofList rfl)) h
  rw [utf8_ascii_append_iff (.ofList rfl), utf8_around_iff (.ofList rfl) (by decide)] at hquote
  exact hquote

theorem utf8_quotedLogs_iff {files : BrowserFiles} :
    Utf8 (ascii " (" ++ (files.currentStartLogs ++ ascii ")")) ↔ files.StartReadable := by
  rw [utf8_ascii_append_iff (.ofList rfl), ← utf8_currentStartLogs_iff]
  constructor
  · intro h
    rw [← List.append_nil (ascii ")"), utf8_around_iff (.ofList rfl) (by decide)] at h
    exact h.1
  · exact fun h => h.append (Utf8.of_ascii (.ofList rfl))

theorem NamesNoLimit.ne_nil (h : NamesNoLimit words) : words ≠ [] := by
  have hlength := h.own.2.1
  rintro rfl
  cases hlength

theorem StartProblem.words_own (problem : StartProblem) : NamesNoLimit problem.words := by
  cases problem with
  | devtools problem _ => cases problem <;> exact .ofList (by decide) (by decide) rfl
  | _ => exact .ofList (by decide) (by decide) rfl

theorem ConnectProblem.words_own (problem : ConnectProblem env.una) : NamesNoLimit problem.words := by
  cases problem <;> exact .ofList (by decide) (by decide) rfl

theorem connectWords_own (attempts : List (FailedAttempt env.una)) : NamesNoLimit (connectWords attempts) := by
  unfold connectWords
  split
  · exact ConnectProblem.words_own _
  · exact .ofList (by decide) (by decide) rfl

theorem startMessage_spec (hutf8 : env.una.ChecksUtf8) (laws : TextLaws env.una) {problem : StartProblem}
    (h : problem.Quotable) :
    ∃ text, env.startMessage problem = some text ∧ Worded env.una problem.words text := by
  have hown := problem.words_own.own
  cases problem with
  | trustDb sourcePath =>
    have hsource : IsOwnWords (ascii "source file does not exist: ") := .ofList (by decide) rfl
    obtain ⟨error, herror, hworded⟩ := format_words hutf8 laws hsource h
    have hquote : Utf8 (ascii ": " ++ error) :=
      (utf8_ascii_append_iff (.ofList rfl)).mpr ((hutf8 error).mp hworded.valid)
    obtain ⟨text, htext, hworded⟩ := format_words hutf8 laws hown hquote
    exact ⟨text, by rw [CaptureEnv.startMessage, herror]; exact htext, hworded⟩
  | runDir rootDir what => exact openBrowserRunDirError_spec hutf8 laws h
  | bind what => exact format_words hutf8 laws hown ((utf8_ascii_append_iff (.ofList rfl)).mpr h)
  | devtools problem files => exact format_words hutf8 laws hown (utf8_quotedLogs_iff.mpr h)

theorem quotable_of_startMessage (hutf8 : env.una.ChecksUtf8) {problem : StartProblem}
    (h : env.startMessage problem = some text) : problem.Quotable := by
  cases problem with
  | trustDb sourcePath =>
    obtain ⟨error, herror, _⟩ := Option.bind_eq_some_iff.mp h
    exact utf8_of_format hutf8 (Utf8.of_ascii (.ofList rfl)) herror
  | runDir rootDir what => exact utf8_of_openBrowserRunDirError hutf8 h
  | bind what =>
    exact (utf8_ascii_append_iff (.ofList rfl)).mp (utf8_of_format hutf8 (Utf8.of_ascii (.ofList rfl)) h)
  | devtools problem files =>
    refine utf8_quotedLogs_iff.mp (utf8_of_format hutf8 ?_ h)
    cases problem <;> exact Utf8.of_ascii (.ofList rfl)

/-- The error of a start whose quotes are texts, the diagnostics included if there are any. -/
theorem startError_spec (hutf8 : env.una.ChecksUtf8) (laws : TextLaws env.una)
    {parseCgroupStats : Bytes → Option (CgroupReport env.una)} {problem : StartProblem} {files : BrowserFiles}
    (h : problem.Quotable) (hreadable : problem.Diagnosed → files.Readable parseCgroupStats)
    (proxy : ProxyReading env.una) :
    ∃ detail, env.startError parseCgroupStats problem files proxy = some detail ∧
      Worded env.una problem.words detail := by
  obtain ⟨text, htext, hworded⟩ := startMessage_spec hutf8 laws h
  rw [CaptureEnv.startError, htext]
  cases problem with
  | devtools problem logs =>
    obtain ⟨detail, hdetail, ⟨rest, rfl, _⟩, hvalid, hnormal⟩ :=
      makeErrorDetail_of_readable laws (hreadable trivial) (some proxy) hworded.valid hworded.normal
    refine ⟨_, hdetail, hvalid, hnormal, ?_⟩
    rw [← hworded.head]
    cases text with
    | nil => exact absurd (List.head?_eq_none_iff.mp hworded.head.symm) (StartProblem.words_own _).ne_nil
    | cons y text => rfl
  | _ => exact ⟨text, rfl, hworded⟩

theorem quotable_of_startError (hutf8 : env.una.ChecksUtf8)
    {parseCgroupStats : Bytes → Option (CgroupReport env.una)} {problem : StartProblem} {files : BrowserFiles}
    {proxy : ProxyReading env.una} {detail : Bytes}
    (h : env.startError parseCgroupStats problem files proxy = some detail) :
    problem.Quotable ∧ (problem.Diagnosed → files.Readable parseCgroupStats) := by
  obtain ⟨text, htext, h⟩ := Option.bind_eq_some_iff.mp h
  refine ⟨quotable_of_startMessage hutf8 htext, fun hdiagnosed => ?_⟩
  cases problem with
  | devtools problem logs => exact readable_of_makeErrorDetail h
  | _ => exact hdiagnosed.elim

theorem connectOnceError_spec (hutf8 : env.una.ChecksUtf8) (laws : TextLaws env.una)
    {problem : ConnectProblem env.una} (h : problem.Quotable) :
    ∃ text, env.connectOnceError problem = some text ∧ Worded env.una problem.words text := by
  have hown := problem.words_own.own
  match problem, h with
  | .runDir rootDir what, h => exact openBrowserRunDirError_spec hutf8 laws h
  | .handshake none, _ =>
    exact ⟨_, rfl, env.una.ascii_valid _ (.ofList rfl), env.una.ascii_nfc _ (.ofList rfl), rfl⟩
  | .handshake (some detail), _ =>
    exact format_words hutf8 laws hown ((utf8_ascii_append_iff (.ofList rfl)).mpr ((hutf8 _).mp detail.valid))

theorem attemptError_spec (hutf8 : env.una.ChecksUtf8) (laws : TextLaws env.una) {attempt : FailedAttempt env.una}
    (h : attempt.Quotable) :
    ∃ text, env.attemptError attempt = some text ∧ Worded env.una attempt.problem.words text := by
  obtain ⟨error, herror, hworded⟩ := connectOnceError_spec hutf8 laws h.1
  have hlogs : Utf8 (32 :: 40 :: (attempt.files.currentStartLogs ++ ascii ")")) := utf8_quotedLogs_iff.mpr h.2
  obtain ⟨text, htext, hworded⟩ := hworded.format hutf8 laws attempt.problem.words_own.ne_nil (by decide) hlogs
  exact ⟨text, by rw [CaptureEnv.attemptError, herror]; exact htext, hworded⟩

theorem quotable_of_attemptError (hutf8 : env.una.ChecksUtf8) (laws : TextLaws env.una)
    {attempt : FailedAttempt env.una} (h : env.attemptError attempt = some text) : attempt.Quotable := by
  obtain ⟨error, herror, h⟩ := Option.bind_eq_some_iff.mp h
  have hquotable : attempt.problem.Quotable := by
    cases hproblem : attempt.problem with
    | runDir rootDir what =>
      rw [hproblem] at herror
      exact utf8_of_openBrowserRunDirError hutf8 herror
    | handshake detail => trivial
  obtain ⟨error', herror', hworded⟩ := connectOnceError_spec hutf8 laws hquotable
  cases herror.symm.trans herror'
  exact ⟨hquotable, utf8_quotedLogs_iff.mp (utf8_of_format hutf8 ((hutf8 error).mp hworded.valid) h)⟩

/-- The errors of the attempts, one after another. -/
theorem attemptErrors_spec (hutf8 : env.una.ChecksUtf8) (laws : TextLaws env.una)
    {attempts : List (FailedAttempt env.una)} (h : ∀ attempt ∈ attempts, attempt.Quotable) :
    ∃ errors, attempts.mapM env.attemptError = some errors ∧
      List.Forall₂ (fun attempt error => Worded env.una attempt.problem.words error) attempts errors := by
  induction attempts with
  | nil => exact ⟨[], rfl, .nil⟩
  | cons attempt attempts ih =>
    rw [List.forall_mem_cons] at h
    obtain ⟨error, herror, hworded⟩ := attemptError_spec hutf8 laws h.1
    obtain ⟨errors, herrors, hall⟩ := ih h.2
    exact ⟨error :: errors, by rw [List.mapM_cons, herror, herrors]; rfl, .cons hworded hall⟩

theorem quotable_of_attemptErrors (hutf8 : env.una.ChecksUtf8) (laws : TextLaws env.una)
    {attempts : List (FailedAttempt env.una)} {errors : List Bytes}
    (h : attempts.mapM env.attemptError = some errors) : ∀ attempt ∈ attempts, attempt.Quotable := by
  induction attempts generalizing errors with
  | nil => exact fun attempt hmem => absurd hmem List.not_mem_nil
  | cons attempt attempts ih =>
    rw [List.mapM_cons] at h
    obtain ⟨error, herror, h⟩ := Option.bind_eq_some_iff.mp h
    obtain ⟨rest, hrest, _⟩ := Option.bind_eq_some_iff.mp h
    exact List.forall_mem_cons.mpr ⟨quotable_of_attemptError hutf8 laws herror, ih hrest⟩

theorem connectCdp_connected (hutf8 : env.una.ChecksUtf8) (laws : TextLaws env.una)
    {attempts : List (FailedAttempt env.una)} (h : ∀ attempt ∈ attempts, attempt.Quotable) :
    env.connectCdp attempts (.ok ()) = some (.ok ()) := by
  obtain ⟨errors, herrors, _⟩ := attemptErrors_spec hutf8 laws h
  rw [CaptureEnv.connectCdp, herrors]
  rfl

/-- The error of `ConnectCdp` begins with its words. -/
theorem connectCdp_failed (hutf8 : env.una.ChecksUtf8) (laws : TextLaws env.una)
    {attempts : List (FailedAttempt env.una)} {files : BrowserFiles} (h : ConnectQuotable attempts (.error files)) :
    ∃ text, env.connectCdp attempts (.error files) = some (.error text) ∧
      Worded env.una (connectWords attempts) text := by
  obtain ⟨errors, herrors, hworded⟩ := attemptErrors_spec hutf8 laws h.1
  simp only [CaptureEnv.connectCdp, herrors, Option.bind_eq_bind, Option.bind_some]
  have hreverse := List.rel_reverse hworded
  rw [connectWords, List.getLast?_eq_head?_reverse, List.getLast?_eq_head?_reverse]
  generalize hlast : attempts.reverse = lastAttempts at hreverse
  generalize errors.reverse = lastErrors at hreverse
  cases hreverse with
  | nil =>
    have hnone : IsOwnWords (ascii "devtools websocket handshake failed after 0 attempt(s)") :=
      .ofList (by decide) rfl
    obtain ⟨text, htext, hworded⟩ :=
      format_words hutf8 laws hnone (utf8_quotedLogs_iff.mpr (h.2 files rfl (List.reverse_eq_nil_iff.mp hlast)))
    refine ⟨text, ?_, hworded⟩
    simp only [List.head?_nil, CaptureEnv.withStartLogs, htext]
    rfl
  | cons hworded _ => exact ⟨_, rfl, hworded⟩

/-- Whether it connects or not, `ConnectCdp` comes back only if what it quotes is text. -/
theorem quotable_of_connectCdp (hutf8 : env.una.ChecksUtf8) (laws : TextLaws env.una)
    {attempts : List (FailedAttempt env.una)} {connected : Except BrowserFiles Unit} {result : Except Bytes Unit}
    (h : env.connectCdp attempts connected = some result) : ConnectQuotable attempts connected := by
  obtain ⟨errors, herrors, h⟩ := Option.bind_eq_some_iff.mp h
  refine ⟨quotable_of_attemptErrors hutf8 laws herrors, ?_⟩
  rintro files rfl rfl
  cases herrors
  obtain ⟨text, htext, _⟩ := Option.bind_eq_some_iff.mp h
  exact utf8_quotedLogs_iff.mp (utf8_of_format hutf8 (Utf8.of_ascii (.ofList rfl)) htext)

end Messages
end Webshot.Crawler
