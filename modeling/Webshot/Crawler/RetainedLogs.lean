import Mathlib.Data.List.ReduceOption
import Webshot.Crawler.ErrorDetail
import Webshot.Text.Utf8

/-! The logs that the diagnostics quote: where a long one is cut, and when both of its parts are still text. -/
namespace Webshot.Crawler
open Text Foundation

/-- A short log, or one with a character beginning at both of the cuts. -/
def UncutLog (log : Bytes) : Prop :=
  log.length ≤ 4096 ∨
    ((∀ x ∈ log[2048]?, ¬ IsContinuation x) ∧ ∀ x ∈ log[log.length - 2048]?, ¬ IsContinuation x)

/-- The head and the tail of a long log, with the marker between them. -/
def headAndTail (log : Bytes) : Bytes := log.take 2048 ++ skippedMarker ++ log.drop (log.length - 2048)

theorem retained_short {log : Bytes} (h : log.length ≤ 4096) :
    retainLogHeadAndTail log processOutputRetainedBytes = log := by
  rw [retainLogHeadAndTail, if_neg (by decide)]
  exact if_pos h

theorem retained_long {log : Bytes} (h : ¬ log.length ≤ 4096) :
    retainLogHeadAndTail log processOutputRetainedBytes = headAndTail log := by
  rw [retainLogHeadAndTail, if_neg (by decide)]
  exact if_neg h

theorem skippedMarker_text : Utf8 skippedMarker := .of_ascii (.ofList rfl)

theorem headAndTail_text_iff {log : Bytes} (hlog : Utf8 log) :
    Utf8 (headAndTail log) ↔
      (∀ x ∈ log[2048]?, ¬ IsContinuation x) ∧ ∀ x ∈ log[log.length - 2048]?, ¬ IsContinuation x := by
  rw [headAndTail, Utf8, LeadCode.isText_around_iff skippedMarker_text (List.cons_ne_nil _ _),
    LeadCode.isText_take_iff hlog, LeadCode.isText_drop_iff hlog]
  rfl

/-- What is kept of a text is one if no character is cut. -/
theorem retained_text_iff {log : Bytes} (hlog : Utf8 log) :
    Utf8 (retainLogHeadAndTail log processOutputRetainedBytes) ↔ UncutLog log := by
  by_cases h : log.length ≤ 4096
  · rw [retained_short h]
    exact iff_of_true hlog (.inl h)
  · rw [retained_long h, headAndTail_text_iff hlog, UncutLog, or_iff_right h]

/-- The logs that `MakeErrorDetail` reads as text; a snapshot of the cgroup only where it does not parse. -/
def BrowserFiles.textLogs {una : UniAlgo} (parseCgroupStats : Bytes → Option (CgroupReport una))
    (files : BrowserFiles) : List Bytes :=
  [files.stdoutLog, files.stderrLog, files.chromiumStderrLog, files.bwrapStatus, files.phase, files.cdpTrace,
    files.cgroupStats.filter fun snapshot => (parseCgroupStats snapshot).isNone].reduceOption

theorem readable_iff {una : UniAlgo} (parseCgroupStats : Bytes → Option (CgroupReport una)) (files : BrowserFiles) :
    files.Readable parseCgroupStats ↔
      ∀ log ∈ files.textLogs parseCgroupStats,
        una.isValidUtf8 (retainLogHeadAndTail log processOutputRetainedBytes) = true := by
  simp only [BrowserFiles.textLogs, List.reduceOption_mem_iff, List.mem_cons, List.not_mem_nil, or_false]
  constructor
  · intro h log hlog
    rcases hlog with hlog | hlog | hlog | hlog | hlog | hlog | hlog
    · exact h.stdoutLog log hlog.symm
    · exact h.stderrLog log hlog.symm
    · exact h.chromiumStderrLog log hlog.symm
    · exact h.bwrapStatus log hlog.symm
    · exact h.phase log hlog.symm
    · exact h.cdpTrace log hlog.symm
    · obtain ⟨hstats, hnone⟩ := Option.filter_eq_some_iff.mp hlog.symm
      exact h.cgroupStats log hstats (Option.isNone_iff_eq_none.mp hnone) log rfl
  · intro h
    refine ⟨?_, ?_, ?_, ?_, ?_, ?_, ?_⟩
    · exact fun log hlog => h log (.inl hlog.symm)
    · exact fun log hlog => h log (.inr (.inl hlog.symm))
    · exact fun log hlog => h log (.inr (.inr (.inl hlog.symm)))
    · exact fun log hlog => h log (.inr (.inr (.inr (.inl hlog.symm))))
    · exact fun log hlog => h log (.inr (.inr (.inr (.inr (.inl hlog.symm)))))
    · exact fun log hlog => h log (.inr (.inr (.inr (.inr (.inr (.inl hlog.symm))))))
    · intro snapshot hstats hnone log hlog
      cases hlog
      have hunparsed : (parseCgroupStats snapshot).isNone = true := Option.isNone_iff_eq_none.mpr hnone
      have hfilter : files.cgroupStats.filter (fun snapshot => (parseCgroupStats snapshot).isNone) = some snapshot :=
        Option.filter_eq_some_iff.mpr ⟨hstats, hunparsed⟩
      exact h snapshot (.inr (.inr (.inr (.inr (.inr (.inr hfilter.symm))))))

/-- A text is kept whole or as its head and tail if no character is cut, and the service aborts otherwise; the same of
the detail of an error, whose logs are texts. -/
theorem retained_logs_iff (env : CaptureEnv) (hutf8 : env.una.ChecksUtf8) (laws : TextLaws env.una) :
    (∀ log, Utf8 log →
      ((∃ text, env.retainProcessOutputText log = some text ∧
        fromBytes env.una (if log.length ≤ 4096 then log else headAndTail log) = some text) ↔ UncutLog log)) ∧
    ∀ (parseCgroupStats : Bytes → Option (CgroupReport env.una)) (files : BrowserFiles)
      (proxy : Option (ProxyReading env.una)) (message : Str env.una),
      (∀ log ∈ files.textLogs parseCgroupStats, Utf8 log) →
      ((∃ detail, env.makeErrorDetail parseCgroupStats message.bytes files proxy = some detail) ↔
        ∀ log ∈ files.textLogs parseCgroupStats, UncutLog log) := by
  constructor
  · intro log hlog
    have hkept : retainLogHeadAndTail log processOutputRetainedBytes =
        if log.length ≤ 4096 then log else headAndTail log := by
      split
      · exact retained_short ‹_›
      · exact retained_long ‹_›
    rw [← retained_text_iff hlog, ← hutf8, CaptureEnv.retainProcessOutputText, hkept]
    constructor
    · rintro ⟨text, htext, -⟩
      exact valid_of_fromBytes htext
    · exact fun hvalid => ⟨_, fromBytes_of_valid hvalid, fromBytes_of_valid hvalid⟩
  · intro parseCgroupStats files proxy message hlogs
    have huncut : (∀ log ∈ files.textLogs parseCgroupStats, UncutLog log) ↔ files.Readable parseCgroupStats := by
      rw [readable_iff]
      exact forall₂_congr fun log hlog => by rw [hutf8, retained_text_iff (hlogs log hlog)]
    rw [huncut]
    constructor
    · rintro ⟨detail, hdetail⟩
      exact readable_of_makeErrorDetail hdetail
    · intro hreadable
      obtain ⟨detail, hdetail, -⟩ := makeErrorDetail_of_readable laws hreadable proxy message.valid message.normal
      exact ⟨detail, hdetail⟩

def normalEnv : CaptureEnv := ⟨normalUna, fun _ => none⟩

/-- A long log of characters of two octets each. -/
def accents : Bytes := (List.replicate 2100 [0xC3, 0xA9]).flatten

theorem accents_text : Utf8 accents := by
  have hchar : IsUtf8Char [0xC3, 0xA9] := ⟨0xC3, [0xA9], [(0x80, 0xBF)], rfl, rfl, .cons (by decide) .nil⟩
  have hall : ∀ n : Nat, Utf8 (List.replicate n [0xC3, 0xA9]).flatten := by
    intro n
    induction n with
    | zero => exact .nil
    | succ n ih => exact .cons hchar ih
  exact hall 2100

theorem accents_uncut : UncutLog accents := by
  have hhead : accents[2048]? = some 0xC3 := by decide +kernel
  have htail : accents[accents.length - 2048]? = some 0xC3 := by decide +kernel
  rw [UncutLog, hhead, htail]
  refine .inr ⟨?_, ?_⟩ <;> exact fun x hx => Option.some.inj hx ▸ (by decide)

def accentedFiles : BrowserFiles where
  stdoutLog := none
  stderrLog := some accents
  chromiumStderrLog := none
  bwrapStatus := none
  phase := none
  cdpTrace := none
  cgroupStats := none
  websocketPath := none
  websocketPathfileExists := false
  netlogExists := false
  browserProcessRunning := false
  cdpSocketExists := false

theorem retained_logs_sample :
    (∃ text, normalEnv.retainProcessOutputText accents = some text ∧
      fromBytes normalUna (if accents.length ≤ 4096 then accents else headAndTail accents) = some text) ∧
    ∃ detail, normalEnv.makeErrorDetail (fun _ => none) (ascii "failed") accentedFiles none = some detail := by
  obtain ⟨hlog, hdetail⟩ := retained_logs_iff normalEnv normalUna_checksUtf8 normalUna_laws
  refine ⟨(hlog accents accents_text).mpr accents_uncut, ?_⟩
  have hlogs : accentedFiles.textLogs (fun _ => (none : Option (CgroupReport normalEnv.una))) = [accents] := rfl
  refine (hdetail (fun _ => none) accentedFiles none (.ofAscii normalUna (ascii "failed") (.ofList rfl)) ?_).mpr ?_
  · rw [hlogs, List.forall_mem_singleton]
    exact accents_text
  · rw [hlogs, List.forall_mem_singleton]
    exact accents_uncut

/-- The same log with a letter in front, so that the head would end in half a character. -/
theorem accents_behind_letter_abort :
    Utf8 (97 :: accents) ∧ normalEnv.retainProcessOutputText (97 :: accents) = none := by
  have hfirst : Utf8 [97] := .of_ascii (List.forall_mem_singleton.mpr (by decide))
  have htext : Utf8 (97 :: accents) := hfirst.append accents_text
  have hlong : ¬ (97 :: accents).length ≤ 4096 := by decide +kernel
  have hcut : (97 :: accents)[2048]? = some 0xA9 := by decide +kernel
  have hinvalid : ¬ Utf8 (headAndTail (97 :: accents)) := by
    rw [headAndTail_text_iff htext, hcut]
    exact fun h => h.1 0xA9 rfl (by decide)
  refine ⟨htext, ?_⟩
  rw [CaptureEnv.retainProcessOutputText, retained_long hlong, fromBytes]
  exact if_neg fun hvalid => hinvalid ((normalUna_checksUtf8 _).mp hvalid)

end Webshot.Crawler
