import Mathlib.Data.List.DropRight
import Webshot.Crawler.EgressProxy

/-! The detail of an error: the message, and behind it what the files of the browser and the proxy say. -/
namespace Webshot.Crawler
open Text Foundation.JsonText

def processOutputRetainedBytes : Int := 4096

def skippedMarker : Bytes := ascii "\n...skipped...\n"

def retainLogHeadAndTail (bytes : Bytes) (limitBytes : Int) : Bytes :=
  if limitBytes ≤ 0 then []
  else
    let limit := limitBytes.toNat
    if bytes.length ≤ limit then bytes
    else
      let headSize := limit / 2
      let tailSize := limit - headSize
      bytes.take headSize ++ skippedMarker ++ bytes.drop (bytes.length - tailSize)

/-- The files of a browser run as they are when the diagnostics are made; a file that cannot be read is missing. -/
structure BrowserFiles where
  stdoutLog : Option Bytes
  stderrLog : Option Bytes
  chromiumStderrLog : Option Bytes
  bwrapStatus : Option Bytes
  phase : Option Bytes
  cdpTrace : Option Bytes
  cgroupStats : Option Bytes
  websocketPath : Option Bytes
  websocketPathfileExists : Bool
  netlogExists : Bool
  browserProcessRunning : Bool
  cdpSocketExists : Bool

/-- `FormatCgroupStats` of a snapshot that parses, and `HasBrowserOomKill`. -/
structure CgroupReport (una : UniAlgo) where
  text : Str una
  hasBrowserOomKill : Bool

/-- What is read of the proxy for the diagnostics. -/
structure ProxyReading (una : UniAlgo) where
  downBytes : Int
  error : Option (Str una)

def boolText (value : Bool) : Bytes := if value then ascii "true" else ascii "false"

namespace CaptureEnv
variable (env : CaptureEnv)

/-- `String::operator+=`. -/
def append (text more : Bytes) : Bytes := if more.isEmpty then text else env.una.toNfcUtf8 (text ++ more)

/-- `none` is the abort of the dereference. -/
def retainProcessOutputText (bytes : Bytes) : Option Bytes :=
  fromBytes env.una (retainLogHeadAndTail bytes processOutputRetainedBytes)

def readRetainedLogText : Option Bytes → Option (Option Bytes)
  | none => some none
  | some bytes => do
    let text ← env.retainProcessOutputText bytes
    return if text.isEmpty then none else some text

def formatProcessOutputDiagnostics (stdoutLog stderrLog : Option Bytes) : Option (Option Bytes) := do
  let stdoutText ← env.readRetainedLogText stdoutLog
  let stderrText ← env.readRetainedLogText stderrLog
  let quoted := fun (label text : Bytes) => env.format (label ++ (text ++ ascii "\""))
  match stdoutText, stderrText with
  | none, none => return none
  | some out, none => return some (← quoted (ascii "stdout=\"") out)
  | none, some err => return some (env.append [] (← quoted (ascii "stderr=\"") err))
  | some out, some err =>
    let detail ← quoted (ascii "stdout=\"") out
    return some (env.append (env.append detail (ascii ", ")) (← quoted (ascii "stderr=\"") err))

def readWebsocketPathFile (file : Option Bytes) : Option Bytes := do
  let value := List.rdropWhile isAsciiSpace (← file)
  if value.isEmpty then none else fromBytes env.una value

/-- The fields about the browser's cgroup. -/
def cgroupFields (parseCgroupStats : Bytes → Option (CgroupReport env.una)) :
    Option Bytes → Option (List (Bytes × Bytes))
  | none => some []
  | some snapshot =>
    match parseCgroupStats snapshot with
    | some report =>
      some ((ascii "cgroup", report.text.bytes) ::
        if report.hasBrowserOomKill then [(ascii "browser_resource_error", ascii "oom_kill")] else [])
    | none => do return ((← env.readRetainedLogText (some snapshot)).map (ascii "cgroup_raw", ·)).toList

def proxyFields (proxy : ProxyReading env.una) : List (Bytes × Bytes) :=
  (ascii "proxy_down_bytes", intText proxy.downBytes) :: (proxy.error.map (ascii "proxy_error", ·.bytes)).toList

/-- The fields of the diagnostics, in the order in which they are appended. -/
def diagnosticFields (parseCgroupStats : Bytes → Option (CgroupReport env.una)) (files : BrowserFiles)
    (proxy : Option (ProxyReading env.una)) : Option (List (Bytes × Bytes)) := do
  let browserLogs ← env.formatProcessOutputDiagnostics files.stdoutLog files.stderrLog
  let chromiumStderr ← env.readRetainedLogText files.chromiumStderrLog
  let bwrapStatus ← env.readRetainedLogText files.bwrapStatus
  let phase ← env.readRetainedLogText files.phase
  let cdpTrace ← env.readRetainedLogText files.cdpTrace
  let cgroup ← env.cgroupFields parseCgroupStats files.cgroupStats
  return (browserLogs.map (ascii "browser_logs", ·)).toList ++
    (chromiumStderr.map (ascii "chromium_stderr", ·)).toList ++
    (bwrapStatus.map (ascii "bwrap_status", ·)).toList ++ (phase.map (ascii "phase", ·)).toList ++
    (cdpTrace.map (ascii "cdp_trace_tail", ·)).toList ++ cgroup ++
    ((env.readWebsocketPathFile files.websocketPath).map (ascii "websocket_path", ·)).toList ++
    [(ascii "websocket_pathfile_exists", boolText files.websocketPathfileExists),
      (ascii "netlog_exists", boolText files.netlogExists),
      (ascii "browser_process_running", boolText files.browserProcessRunning),
      (ascii "cdp_socket_exists", boolText files.cdpSocketExists)] ++
    (proxy.map env.proxyFields).getD []

def appendDiagnosticField (out : Bytes) (field : Bytes × Bytes) : Option Bytes := do
  let separated := if out.isEmpty then out else env.append out (ascii ", ")
  return env.append separated (← env.format (field.1 ++ (ascii "=" ++ field.2)))

def makeErrorDetail (parseCgroupStats : Bytes → Option (CgroupReport env.una)) (message : Bytes) (files : BrowserFiles)
    (proxy : Option (ProxyReading env.una)) : Option Bytes := do
  let diagnostics ← (← env.diagnosticFields parseCgroupStats files proxy).foldlM env.appendDiagnosticField []
  if diagnostics.isEmpty then return message else env.format (message ++ (ascii ", " ++ diagnostics))

/-- `FormatCdpError` of an error with the given detail. -/
def formatCdpError (action : Bytes) : Option (Str env.una) → Option Bytes
  | none => some action
  | some detail => env.format (action ++ (ascii ": " ++ detail.bytes))

end CaptureEnv

/-- The second text is the first with nothing behind it, or with something that begins with a comma. -/
def Extends (text longer : Bytes) : Prop := ∃ rest, longer = text ++ rest ∧ ∀ x ∈ rest.head?, x = 44

namespace Extends

theorem refl (text : Bytes) : Extends text text := ⟨[], (List.append_nil text).symm, nofun⟩

theorem trans {a b c : Bytes} (h : Extends a b) (h' : Extends b c) : Extends a c := by
  obtain ⟨rest, rfl, hrest⟩ := h
  obtain ⟨rest', rfl, hrest'⟩ := h'
  refine ⟨rest ++ rest', List.append_assoc a rest rest', ?_⟩
  cases rest with
  | nil => exact hrest'
  | cons x rest => exact hrest

/-- A beginning without commas is found in both texts or in none. -/
theorem startsWith_eq {text longer start : Bytes} (h : Extends text longer) (hstart : 44 ∉ start) :
    startsWith longer start = startsWith text start := by
  obtain ⟨rest, rfl, hrest⟩ := h
  rw [Bool.eq_iff_iff, startsWith_iff, startsWith_iff]
  refine ⟨fun hprefix => ?_, fun hprefix => hprefix.trans (List.prefix_append text rest)⟩
  by_cases hlength : start.length ≤ text.length
  · exact List.prefix_of_prefix_length_le hprefix (List.prefix_append text rest) hlength
  · obtain ⟨tail, rfl⟩ := List.prefix_of_prefix_length_le (List.prefix_append text rest) hprefix (by omega)
    obtain ⟨more, hmore⟩ := hprefix
    rw [List.append_assoc, List.append_cancel_left_eq] at hmore
    cases tail with
    | nil => exact absurd (by simp) hlength
    | cons x tail =>
      rw [← hmore] at hrest
      have hx : x = 44 := hrest x rfl
      exact absurd (List.mem_append_right text (hx ▸ List.mem_cons_self)) hstart

end Extends

section Details
variable {env : CaptureEnv}

/-- Text behind a comma is added without a change to what stands before it. -/
theorem format_extends (laws : TextLaws env.una) {text more : Bytes} (hvalid : env.una.isValidUtf8 text = true)
    (hnormal : env.una.toNfcUtf8 text = text) (hmore : env.una.isValidUtf8 more = true) :
    ∃ longer, env.format (text ++ (ascii ", " ++ more)) = some longer ∧ Extends text longer ∧
      env.una.isValidUtf8 longer = true ∧ env.una.toNfcUtf8 longer = longer := by
  have hspace : env.una.isValidUtf8 (32 :: more) = true :=
    laws.valid_append [32] more (env.una.ascii_valid [32] (List.forall_mem_singleton.mpr (by decide))) hmore
  have hcomma : env.una.isValidUtf8 (44 :: 32 :: more) = true :=
    laws.valid_append [44] (32 :: more) (env.una.ascii_valid [44] (List.forall_mem_singleton.mpr (by decide))) hspace
  have hformat := laws.fromBytes_append hvalid hnormal (x := 44) (by decide) hcomma
  refine ⟨_, hformat, ⟨_, rfl, ?_⟩, laws.valid_text hformat, laws.nfc_text hformat⟩
  have hhead : (env.una.toNfcUtf8 (44 :: 32 :: more)).head? = some 44 :=
    TextLaws.head_kept laws (by decide) (by decide) hspace (fromBytes_of_valid hcomma)
  rw [hhead]
  intro x hx
  exact (Option.some.inj hx).symm

/-- What is kept of the log is text. -/
def LogReadable (una : UniAlgo) (file : Option Bytes) : Prop :=
  ∀ bytes, file = some bytes → una.isValidUtf8 (retainLogHeadAndTail bytes processOutputRetainedBytes) = true

/-- Whatever the diagnostics quote is text. -/
structure BrowserFiles.Readable {una : UniAlgo} (parseCgroupStats : Bytes → Option (CgroupReport una))
    (files : BrowserFiles) : Prop where
  stdoutLog : LogReadable una files.stdoutLog
  stderrLog : LogReadable una files.stderrLog
  chromiumStderrLog : LogReadable una files.chromiumStderrLog
  bwrapStatus : LogReadable una files.bwrapStatus
  phase : LogReadable una files.phase
  cdpTrace : LogReadable una files.cdpTrace
  cgroupStats : ∀ snapshot, files.cgroupStats = some snapshot → parseCgroupStats snapshot = none →
    LogReadable una (some snapshot)

theorem readRetainedLogText_of_readable (laws : TextLaws env.una) {file : Option Bytes} (h : LogReadable env.una file) :
    ∃ text, env.readRetainedLogText file = some text ∧ ∀ t ∈ text, env.una.isValidUtf8 t = true := by
  cases file with
  | none => exact ⟨none, rfl, nofun⟩
  | some bytes =>
    have hread := fromBytes_of_valid (h bytes rfl)
    refine ⟨_, by rw [CaptureEnv.readRetainedLogText, CaptureEnv.retainProcessOutputText, hread]; rfl, ?_⟩
    intro t ht
    split at ht
    · cases ht
    · cases ht
      exact laws.valid_text hread

theorem readable_of_readRetainedLogText {file text : Option Bytes} (h : env.readRetainedLogText file = some text) :
    LogReadable env.una file := by
  rintro bytes rfl
  obtain ⟨kept, hkept, _⟩ := Option.bind_eq_some_iff.mp h
  exact valid_of_fromBytes hkept

theorem append_valid (laws : TextLaws env.una) {text more : Bytes} (htext : env.una.isValidUtf8 text = true)
    (hmore : env.una.isValidUtf8 more = true) : env.una.isValidUtf8 (env.append text more) = true := by
  unfold CaptureEnv.append
  split
  · exact htext
  · exact laws.valid_nfc _ (laws.valid_append _ _ htext hmore)

private theorem quoted (laws : TextLaws env.una) (label : Bytes) {text : Bytes} (hlabel : IsAscii label)
    (htext : env.una.isValidUtf8 text = true) :
    ∃ field, env.format (label ++ (text ++ ascii "\"")) = some field ∧ env.una.isValidUtf8 field = true := by
  have hend := laws.valid_append _ _ htext (env.una.ascii_valid (ascii "\"") (.ofList rfl))
  have hall := laws.valid_append _ _ (env.una.ascii_valid label hlabel) hend
  exact ⟨_, fromBytes_of_valid hall, laws.valid_nfc _ hall⟩

theorem formatProcessOutputDiagnostics_of_readable (laws : TextLaws env.una) {stdoutLog stderrLog : Option Bytes}
    (hout : LogReadable env.una stdoutLog) (herr : LogReadable env.una stderrLog) :
    ∃ text, env.formatProcessOutputDiagnostics stdoutLog stderrLog = some text ∧
      ∀ t ∈ text, env.una.isValidUtf8 t = true := by
  obtain ⟨out, hout, hvalidOut⟩ := readRetainedLogText_of_readable laws hout
  obtain ⟨err, herr, hvalidErr⟩ := readRetainedLogText_of_readable laws herr
  have hempty : env.una.isValidUtf8 [] = true := env.una.ascii_valid [] nofun
  have hcomma : env.una.isValidUtf8 (ascii ", ") = true := env.una.ascii_valid _ (.ofList rfl)
  simp only [CaptureEnv.formatProcessOutputDiagnostics, hout, herr, Option.bind_eq_bind, Option.bind_some]
  cases out with
  | none =>
    cases err with
    | none => exact ⟨none, rfl, nofun⟩
    | some err =>
      obtain ⟨field, hfield, hvalid⟩ := quoted laws (ascii "stderr=\"") (.ofList rfl) (hvalidErr err rfl)
      refine ⟨_, by simp only [hfield]; rfl, fun t ht => ?_⟩
      cases ht
      exact append_valid laws hempty hvalid
  | some out =>
    obtain ⟨field, hfield, hvalid⟩ := quoted laws (ascii "stdout=\"") (.ofList rfl) (hvalidOut out rfl)
    cases err with
    | none =>
      refine ⟨_, by simp only [hfield]; rfl, fun t ht => ?_⟩
      cases ht
      exact hvalid
    | some err =>
      obtain ⟨field', hfield', hvalid'⟩ := quoted laws (ascii "stderr=\"") (.ofList rfl)
        (hvalidErr err rfl)
      refine ⟨_, by simp only [hfield, hfield']; rfl, fun t ht => ?_⟩
      cases ht
      exact append_valid laws (append_valid laws hvalid hcomma) hvalid'

theorem readable_of_formatProcessOutputDiagnostics {stdoutLog stderrLog text : Option Bytes}
    (h : env.formatProcessOutputDiagnostics stdoutLog stderrLog = some text) :
    LogReadable env.una stdoutLog ∧ LogReadable env.una stderrLog := by
  obtain ⟨out, hout, h⟩ := Option.bind_eq_some_iff.mp h
  obtain ⟨err, herr, _⟩ := Option.bind_eq_some_iff.mp h
  exact ⟨readable_of_readRetainedLogText hout, readable_of_readRetainedLogText herr⟩

/-- Label and value are texts. -/
def FieldsValid (una : UniAlgo) (fields : List (Bytes × Bytes)) : Prop :=
  ∀ field ∈ fields, una.isValidUtf8 field.1 = true ∧ una.isValidUtf8 field.2 = true

private theorem FieldsValid.append {una : UniAlgo} {a b : List (Bytes × Bytes)} (ha : FieldsValid una a)
    (hb : FieldsValid una b) : FieldsValid una (a ++ b) :=
  fun field hfield => (List.mem_append.mp hfield).elim (ha field) (hb field)

private theorem FieldsValid.cons {una : UniAlgo} {label value : Bytes} {rest : List (Bytes × Bytes)}
    (hlabel : IsAscii label) (hvalue : una.isValidUtf8 value = true) (hrest : FieldsValid una rest) :
    FieldsValid una ((label, value) :: rest) := by
  intro field hfield
  rcases List.mem_cons.mp hfield with rfl | hfield
  · exact ⟨una.ascii_valid label hlabel, hvalue⟩
  · exact hrest field hfield

private theorem FieldsValid.optional {una : UniAlgo} (label : Bytes) {value : Option Bytes} (hlabel : IsAscii label)
    (hvalue : ∀ text ∈ value, una.isValidUtf8 text = true) :
    FieldsValid una (value.map fun text => (label, text)).toList := by
  cases value with
  | none => exact nofun
  | some text => exact .cons hlabel (hvalue text rfl) nofun

private theorem boolText_valid (una : UniAlgo) (value : Bool) : una.isValidUtf8 (boolText value) = true := by
  cases value <;> exact una.ascii_valid _ (.ofList rfl)

private theorem proxyFields_valid (proxy : Option (ProxyReading env.una)) :
    FieldsValid env.una ((proxy.map env.proxyFields).getD []) := by
  cases proxy with
  | none => exact nofun
  | some proxy =>
    refine .cons (.ofList rfl) (env.una.ascii_valid _ (intText_ascii proxy.downBytes)) ?_
    cases proxy.error with
    | none => exact nofun
    | some error => exact .cons (.ofList rfl) error.valid nofun

theorem cgroupFields_of_readable (laws : TextLaws env.una) {parseCgroupStats : Bytes → Option (CgroupReport env.una)}
    {file : Option Bytes} (h : ∀ snapshot, file = some snapshot → parseCgroupStats snapshot = none →
      LogReadable env.una (some snapshot)) :
    ∃ fields, env.cgroupFields parseCgroupStats file = some fields ∧ FieldsValid env.una fields := by
  cases file with
  | none => exact ⟨[], rfl, nofun⟩
  | some snapshot =>
    cases hparsed : parseCgroupStats snapshot with
    | some report =>
      refine ⟨_, by simp only [CaptureEnv.cgroupFields, hparsed]; rfl, ?_⟩
      refine .cons (.ofList rfl) report.text.valid ?_
      split
      · exact .cons (.ofList rfl) (env.una.ascii_valid _ (.ofList rfl)) nofun
      · exact nofun
    | none =>
      obtain ⟨text, htext, hvalid⟩ := readRetainedLogText_of_readable laws (h snapshot rfl hparsed)
      refine ⟨(text.map fun text => (ascii "cgroup_raw", text)).toList, ?_, .optional _ (.ofList rfl) hvalid⟩
      simp only [CaptureEnv.cgroupFields, hparsed, htext]
      rfl

theorem readable_of_cgroupFields {parseCgroupStats : Bytes → Option (CgroupReport env.una)} {file : Option Bytes}
    {fields : List (Bytes × Bytes)} (h : env.cgroupFields parseCgroupStats file = some fields) :
    ∀ snapshot, file = some snapshot → parseCgroupStats snapshot = none → LogReadable env.una (some snapshot) := by
  rintro snapshot rfl hparsed
  simp only [CaptureEnv.cgroupFields, hparsed] at h
  obtain ⟨text, htext, _⟩ := Option.bind_eq_some_iff.mp h
  exact readable_of_readRetainedLogText htext

/-- The diagnostics can be made of texts alone. -/
theorem diagnosticFields_of_readable (laws : TextLaws env.una)
    {parseCgroupStats : Bytes → Option (CgroupReport env.una)} {files : BrowserFiles}
    (h : files.Readable parseCgroupStats) (proxy : Option (ProxyReading env.una)) :
    ∃ fields, env.diagnosticFields parseCgroupStats files proxy = some fields ∧ FieldsValid env.una fields := by
  obtain ⟨browserLogs, hbrowserLogs, hv₁⟩ :=
    formatProcessOutputDiagnostics_of_readable laws h.stdoutLog h.stderrLog
  obtain ⟨chromiumStderr, hchromium, hv₂⟩ := readRetainedLogText_of_readable laws h.chromiumStderrLog
  obtain ⟨bwrapStatus, hbwrap, hv₃⟩ := readRetainedLogText_of_readable laws h.bwrapStatus
  obtain ⟨phase, hphase, hv₄⟩ := readRetainedLogText_of_readable laws h.phase
  obtain ⟨cdpTrace, htrace, hv₅⟩ := readRetainedLogText_of_readable laws h.cdpTrace
  obtain ⟨cgroup, hcgroup, hv₆⟩ := cgroupFields_of_readable laws h.cgroupStats
  have hpath : ∀ text ∈ env.readWebsocketPathFile files.websocketPath, env.una.isValidUtf8 text = true := by
    intro text htext
    obtain ⟨bytes, _, htext⟩ := Option.bind_eq_some_iff.mp htext
    dsimp only at htext
    split at htext
    · cases htext
    · exact laws.valid_text htext
  have hflags : FieldsValid env.una [(ascii "websocket_pathfile_exists", boolText files.websocketPathfileExists),
      (ascii "netlog_exists", boolText files.netlogExists),
      (ascii "browser_process_running", boolText files.browserProcessRunning),
      (ascii "cdp_socket_exists", boolText files.cdpSocketExists)] := by
    refine .cons (.ofList rfl) (boolText_valid _ _) (.cons (.ofList rfl) (boolText_valid _ _) ?_)
    exact .cons (.ofList rfl) (boolText_valid _ _) (.cons (.ofList rfl) (boolText_valid _ _) nofun)
  refine ⟨_, by
    simp only [CaptureEnv.diagnosticFields, hbrowserLogs, hchromium, hbwrap, hphase, htrace, hcgroup,
      Option.bind_eq_bind, Option.bind_some]; rfl, ?_⟩
  have hfield : ∀ label : Bytes, IsAscii label → ∀ value : Option Bytes,
      (∀ text ∈ value, env.una.isValidUtf8 text = true) →
      FieldsValid env.una (value.map fun text => (label, text)).toList := fun label hlabel _ => .optional label hlabel
  have hlogs := ((hfield (ascii "browser_logs") (.ofList rfl) _ hv₁).append
    (hfield (ascii "chromium_stderr") (.ofList rfl) _ hv₂)).append
    (hfield (ascii "bwrap_status") (.ofList rfl) _ hv₃)
  have hall := ((hlogs.append (hfield (ascii "phase") (.ofList rfl) _ hv₄)).append
    (hfield (ascii "cdp_trace_tail") (.ofList rfl) _ hv₅)).append hv₆
  exact ((hall.append (hfield (ascii "websocket_path") (.ofList rfl) _ hpath)).append hflags).append
    (proxyFields_valid proxy)

theorem readable_of_diagnosticFields {parseCgroupStats : Bytes → Option (CgroupReport env.una)} {files : BrowserFiles}
    {proxy : Option (ProxyReading env.una)} {fields : List (Bytes × Bytes)}
    (h : env.diagnosticFields parseCgroupStats files proxy = some fields) : files.Readable parseCgroupStats := by
  obtain ⟨_, hbrowserLogs, h⟩ := Option.bind_eq_some_iff.mp h
  obtain ⟨_, hchromium, h⟩ := Option.bind_eq_some_iff.mp h
  obtain ⟨_, hbwrap, h⟩ := Option.bind_eq_some_iff.mp h
  obtain ⟨_, hphase, h⟩ := Option.bind_eq_some_iff.mp h
  obtain ⟨_, htrace, h⟩ := Option.bind_eq_some_iff.mp h
  obtain ⟨_, hcgroup, _⟩ := Option.bind_eq_some_iff.mp h
  obtain ⟨hout, herr⟩ := readable_of_formatProcessOutputDiagnostics hbrowserLogs
  exact ⟨hout, herr, readable_of_readRetainedLogText hchromium, readable_of_readRetainedLogText hbwrap,
    readable_of_readRetainedLogText hphase, readable_of_readRetainedLogText htrace, readable_of_cgroupFields hcgroup⟩

private theorem appendDiagnosticField_valid (laws : TextLaws env.una) {out : Bytes} {field : Bytes × Bytes}
    (hout : env.una.isValidUtf8 out = true) (hlabel : env.una.isValidUtf8 field.1 = true)
    (hvalue : env.una.isValidUtf8 field.2 = true) :
    ∃ out', env.appendDiagnosticField out field = some out' ∧ env.una.isValidUtf8 out' = true := by
  have hequals := laws.valid_append _ _ (env.una.ascii_valid (ascii "=") (.ofList rfl)) hvalue
  have hfield := fromBytes_of_valid (laws.valid_append _ _ hlabel hequals)
  refine ⟨_, by
    rw [CaptureEnv.appendDiagnosticField, CaptureEnv.format, hfield]; rfl,
    append_valid laws ?_ (laws.valid_text hfield)⟩
  split
  · exact hout
  · exact append_valid laws hout (env.una.ascii_valid _ (.ofList rfl))

private theorem diagnostics_valid (laws : TextLaws env.una) {fields : List (Bytes × Bytes)} {out : Bytes}
    (hfields : FieldsValid env.una fields) (hout : env.una.isValidUtf8 out = true) :
    ∃ diagnostics, fields.foldlM env.appendDiagnosticField out = some diagnostics ∧
      env.una.isValidUtf8 diagnostics = true := by
  induction fields generalizing out with
  | nil => exact ⟨out, rfl, hout⟩
  | cons field fields ih =>
    obtain ⟨hlabel, hvalue⟩ := hfields field List.mem_cons_self
    obtain ⟨out', hout', hvalid⟩ := appendDiagnosticField_valid laws hout hlabel hvalue
    have hrest : FieldsValid env.una fields := fun f hf => hfields f (List.mem_cons_of_mem field hf)
    obtain ⟨diagnostics, hdiagnostics, hvalid'⟩ := ih hrest hvalid
    refine ⟨diagnostics, ?_, hvalid'⟩
    rw [List.foldlM_cons, hout']
    exact hdiagnostics

/-- The detail of an error begins with its message. -/
theorem makeErrorDetail_of_readable (laws : TextLaws env.una)
    {parseCgroupStats : Bytes → Option (CgroupReport env.una)} {files : BrowserFiles}
    (h : files.Readable parseCgroupStats) (proxy : Option (ProxyReading env.una)) {message : Bytes}
    (hvalid : env.una.isValidUtf8 message = true) (hnormal : env.una.toNfcUtf8 message = message) :
    ∃ detail, env.makeErrorDetail parseCgroupStats message files proxy = some detail ∧ Extends message detail ∧
      env.una.isValidUtf8 detail = true ∧ env.una.toNfcUtf8 detail = detail := by
  obtain ⟨fields, hfields, hfieldsValid⟩ := diagnosticFields_of_readable laws h proxy
  obtain ⟨diagnostics, hdiagnostics, hdiagnosticsValid⟩ :=
    diagnostics_valid laws hfieldsValid (env.una.ascii_valid [] nofun)
  simp only [CaptureEnv.makeErrorDetail, hfields, hdiagnostics, Option.bind_eq_bind, Option.bind_some]
  split
  · exact ⟨message, rfl, .refl message, hvalid, hnormal⟩
  · exact format_extends laws hvalid hnormal hdiagnosticsValid

theorem readable_of_makeErrorDetail {parseCgroupStats : Bytes → Option (CgroupReport env.una)} {files : BrowserFiles}
    {proxy : Option (ProxyReading env.una)} {message detail : Bytes}
    (h : env.makeErrorDetail parseCgroupStats message files proxy = some detail) : files.Readable parseCgroupStats := by
  obtain ⟨fields, hfields, _⟩ := Option.bind_eq_some_iff.mp h
  exact readable_of_diagnosticFields hfields

end Details

end Webshot.Crawler
