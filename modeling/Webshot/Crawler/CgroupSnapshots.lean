import Webshot.Crawler.CgroupStats

/-! The snapshot of a cgroup is read as its files are. -/
namespace Webshot.Crawler
open Text Storage Foundation.TextLines

/-- A file of whole lines, none of which is a section's header. -/
structure Sectionable (content : Bytes) : Prop where
  ended : Ended lineFeed content
  plain : ∀ line ∈ statLines content, sectionName line = none

instance (content : Bytes) : Decidable (Sectionable content) :=
  decidable_of_iff ((content = [] ∨ content.getLast? = some lineFeed) ∧
    ∀ line ∈ statLines content, sectionName line = none) ⟨fun h => ⟨h.1, h.2⟩, fun h => ⟨h.1, h.2⟩⟩

/-- A name of one line. -/
structure FileName (name : Bytes) : Prop where
  ne_nil : name ≠ []
  oneLine : lineFeed ∉ name

/-- The text a section's body is collected to. -/
def bodyText (lines : List Bytes) : Bytes := lines.flatMap (· ++ [lineFeed])

def headerLine (name : Bytes) : Bytes := ascii "[" ++ name ++ ascii "]"

/-- A section of the snapshot, line by line. -/
def sectionLines : Bytes × Option Bytes → List Bytes
  | (_, none) => []
  | (name, some content) => headerLine name :: statLines content

instance (name : Bytes) : Decidable (FileName name) :=
  decidable_of_iff (name ≠ [] ∧ lineFeed ∉ name) ⟨fun h => ⟨h.1, h.2⟩, fun h => ⟨h.1, h.2⟩⟩

theorem CgroupFiles.fileName (files : CgroupFiles) : ∀ file ∈ files.named, FileName file.1 := by
  intro file hfile
  have hnames : ∀ name ∈ [ascii "cpu.stat", ascii "memory.current", ascii "memory.events", ascii "io.stat"],
      FileName name := by decide
  exact hnames file.1 (List.mem_map_of_mem hfile)

section Lines
variable {name content : Bytes}

theorem sectionName_headerLine (name : Bytes) : sectionName (headerLine name) = some name := by
  have hstart : startsWith (headerLine name) (ascii "[") = true := by
    rw [startsWith, List.isPrefixOf_iff_prefix, headerLine, List.append_assoc]
    exact List.prefix_append _ _
  have hend : endsWith (headerLine name) (ascii "]") = true := by
    rw [endsWith, List.isSuffixOf_iff_suffix, headerLine]
    exact List.suffix_append _ _
  have hname : ((headerLine name).drop 1).dropLast = name := List.dropLast_concat
  rw [sectionName, hstart, hend, hname]
  rfl

private theorem headerLine_lines (hname : FileName name) :
    trimmedLines lineFeed isAsciiSpace (headerLine name ++ [lineFeed]) = [headerLine name] := by
  apply trimmedLines_line
  · rw [headerLine, List.mem_append, List.mem_append, not_or, not_or]
    exact ⟨⟨by decide, hname.oneLine⟩, by decide⟩
  · exact List.cons_ne_nil _ _
  · refine trim_of_ends (fun x hx => ?_) fun x hx => ?_
    · cases hx
      rfl
    · rw [headerLine, show ascii "]" = [93] from rfl, List.getLast?_concat] at hx
      cases hx
      rfl

private theorem sectionText_eq (name content : Bytes) :
    sectionText (name, some content) = headerLine name ++ [lineFeed] ++ content := by
  rw [sectionText, headerLine, show ascii "]\n" = ascii "]" ++ [lineFeed] from rfl]
  simp only [List.append_assoc]

/-- The snapshot has the lines of its sections. -/
theorem statLines_sections {files : List (Bytes × Option Bytes)} (hnames : ∀ file ∈ files, FileName file.1)
    (hcontents : ∀ file ∈ files, ∀ content ∈ file.2, Sectionable content) :
    statLines (files.flatMap sectionText) = files.flatMap sectionLines := by
  induction files with
  | nil => exact trimmedLines_nil
  | cons file files ih =>
    have hrest := ih (fun file hfile => hnames file (List.mem_cons_of_mem _ hfile))
      fun file hfile => hcontents file (List.mem_cons_of_mem _ hfile)
    rw [List.flatMap_cons, List.flatMap_cons, ← hrest]
    obtain ⟨name, content⟩ := file
    cases content with
    | none => rfl
    | some content =>
      have hended := (hcontents _ List.mem_cons_self content rfl).ended
      have hname := hnames _ List.mem_cons_self
      rw [sectionText_eq, List.append_assoc, statLines, trimmedLines_append (Or.inr List.getLast?_concat),
        headerLine_lines hname, trimmedLines_append hended]
      rfl

end Lines

namespace CaptureEnv
variable {env : CaptureEnv}

/-- Before the first section there is no body. -/
def SnapshotState.Clean (s : SnapshotState) : Prop := s.name = [] → s.body = []

/-- The lines of a section that has begun are collected. -/
theorem read_body {lines : List Bytes} (hplain : ∀ line ∈ lines, sectionName line = none) {s : SnapshotState}
    (hname : s.name ≠ []) :
    lines.foldlM env.readSnapshotLine s = .ok { s with body := s.body ++ bodyText lines } := by
  induction lines generalizing s with
  | nil =>
    rw [bodyText, List.flatMap_nil, List.append_nil]
    rfl
  | cons line lines ih =>
    have hstep : env.readSnapshotLine s line = .ok { s with body := s.body ++ line ++ [lineFeed] } := by
      have hempty : s.name.isEmpty = false := List.isEmpty_eq_false_iff.mpr hname
      rw [readSnapshotLine, hplain line List.mem_cons_self, hempty]
      rfl
    rw [List.foldlM_cons, hstep]
    change lines.foldlM env.readSnapshotLine _ = _
    rw [ih (fun l hl => hplain l (List.mem_cons_of_mem _ hl)) (by exact hname), bodyText, bodyText, List.flatMap_cons]
    simp only [List.append_assoc]

/-- A header closes the section before it and begins its own. -/
theorem read_section {name content : Bytes} (hname : FileName name) (hcontent : Sectionable content)
    {s : SnapshotState} (hclean : SnapshotState.Clean s) :
    (sectionLines (name, some content)).foldlM env.readSnapshotLine s = do
      return ⟨← env.applyLast s, name, bodyText (statLines content)⟩ := by
  have hbody : (if s.name.isEmpty then s.body else []) = [] := by
    split
    · exact hclean (List.isEmpty_iff.mp ‹_›)
    · rfl
  rw [sectionLines, List.foldlM_cons, readSnapshotLine, sectionName_headerLine, hbody]
  cases happly : env.applyLast s with
  | error e => rfl
  | ok out => exact read_body hcontent.plain hname.ne_nil

/-- What a section of the snapshot does to the statistics. -/
def applyFile (env : CaptureEnv) (out : CgroupStats) : Bytes × Option Bytes → Except (Storage.Failure Bytes) CgroupStats
  | (_, none) => .ok out
  | (name, some content) => env.applySnapshotSection out name (bodyText (statLines content))

/-- The sections are applied one after the other, the last of them at the end. -/
theorem read_sections {files : List (Bytes × Option Bytes)} (hnames : ∀ file ∈ files, FileName file.1)
    (hcontents : ∀ file ∈ files, ∀ content ∈ file.2, Sectionable content) {s : SnapshotState}
    (hclean : SnapshotState.Clean s) :
    ((files.flatMap sectionLines).foldlM env.readSnapshotLine s >>= env.applyLast) =
      (env.applyLast s >>= fun out => files.foldlM env.applyFile out) := by
  induction files generalizing s with
  | nil => 
    rw [List.flatMap_nil, List.foldlM_nil, pure_bind]
    exact (bind_pure _).symm
  | cons file files ih =>
    have hnames' := fun file hfile => hnames file (List.mem_cons_of_mem _ hfile)
    have hcontents' := fun file hfile => hcontents file (List.mem_cons_of_mem _ hfile)
    obtain ⟨name, content⟩ := file
    rw [List.flatMap_cons, List.foldlM_append]
    cases content with
    | none =>
      exact ih hnames' hcontents' hclean
    | some content =>
      have hname := hnames _ List.mem_cons_self
      rw [read_section hname (hcontents _ List.mem_cons_self content rfl) hclean]
      cases happly : env.applyLast s with
      | error e => rfl
      | ok out =>
        refine (ih hnames' hcontents' fun he => absurd he hname.ne_nil).trans ?_
        have hempty : name.isEmpty = false := List.isEmpty_eq_false_iff.mpr hname.ne_nil
        rw [applyLast, hempty]
        rfl

/-! A section's body holds what its file does, but for white space and blank lines. -/

theorem statLines_bodyText (content : Bytes) : statLines (bodyText (statLines content)) = statLines content :=
  trimmedLines_rewritten lineFeed isAsciiSpace content

theorem parseFlatStat_bodyText (env : CaptureEnv) (content : Bytes) :
    env.parseFlatStat (bodyText (statLines content)) = env.parseFlatStat content := by
  rw [parseFlatStat, statLines_bodyText, parseFlatStat]

theorem parseIoStat_bodyText (env : CaptureEnv) (content : Bytes) :
    env.parseIoStat (bodyText (statLines content)) = env.parseIoStat content := by
  rw [parseIoStat, statLines_bodyText, parseIoStat]

private theorem parseDigits_of_lineFeed {text : Bytes} (h : lineFeed ∈ text) : parseDigits text = none := by
  rw [parseDigits, if_pos]
  rw [Bool.or_eq_true, Bool.not_eq_true', List.all_eq_false]
  exact Or.inr ⟨lineFeed, h, by decide⟩

/-- An integer is written on one line. -/
theorem parseInt64_of_lineFeed {text : Bytes} (h : lineFeed ∈ text) : parseInt64 text = none := by
  rw [parseInt64]
  split
  · rename_i hminus
    obtain ⟨rest, rfl⟩ : ∃ rest, text = 45 :: rest := List.head?_eq_some_iff.mp hminus
    have hrest : lineFeed ∈ rest := (List.mem_cons.mp h).resolve_left (by decide)
    rw [List.tail_cons, parseDigits_of_lineFeed hrest]
    rfl
  · rw [parseDigits_of_lineFeed h]
    rfl

theorem parseStatValue_bodyText (env : CaptureEnv) (content : Bytes) :
    (env.parseStatValue (bodyText (statLines content))).toOption = (env.parseStatValue content).toOption := by
  have hvalue (value : Bytes) : (env.parseStatValue value).toOption = parseInt64 (trimView value) := by
    rw [parseStatValue]
    split
    · rename_i hparsed
      exact hparsed.symm
    · rename_i hnone
      rw [hnone]
      split <;> rfl
  rw [hvalue, hvalue]
  have hspace : isAsciiSpace lineFeed = true := rfl
  rcases trim_eq_or_mem hspace (statLines_bodyText content) with heq | ⟨hbody, hcontent⟩
  · exact congrArg parseInt64 heq
  · exact (parseInt64_of_lineFeed hbody).trans (parseInt64_of_lineFeed hcontent).symm

end CaptureEnv

/-- Steps that succeed alike, taken one after the other, succeed alike. -/
private theorem toOption_bind_congr {ε α β : Type} {x y : Except ε α} {f g : α → Except ε β}
    (hxy : x.toOption = y.toOption) (hfg : ∀ a, (f a).toOption = (g a).toOption) :
    (x >>= f).toOption = (y >>= g).toOption := by
  cases x with
  | error e =>
    cases y with
    | error e' => rfl
    | ok a => cases hxy
  | ok a =>
    cases y with
    | error e' => cases hxy
    | ok a' =>
      cases hxy
      exact hfg a

/-- A file of `ReadCgroupStats` is applied as its section is. -/
private theorem applyFile_congr {env : CaptureEnv} {name : Bytes} {file : Option Bytes}
    {apply : CgroupStats → Bytes → Except (Storage.Failure Bytes) CgroupStats}
    (h : ∀ out content, (env.applySnapshotSection out name (bodyText (statLines content))).toOption =
      (apply out content).toOption) (out : CgroupStats) :
    (env.applyFile out (name, file)).toOption = (CaptureEnv.readStatFile out file apply).toOption := by
  cases file with
  | none => rfl
  | some content => exact h out content

/-- A browser that was killed for its memory, with two disks. -/
def sampleCgroup : CgroupFiles where
  cpuStat := some (ascii "usage_usec 100\nuser_usec 40\nsystem_usec 60\nnr_throttled 2\n")
  memoryCurrent := some (ascii "4096\n")
  memoryEvents := some (ascii "oom 1\noom_kill 1\noom_group_kill 1\n")
  ioStat := some (ascii "8:0 rbytes:10 wbytes:20 rios:1 wios:2\n8:16 rbytes:30 wbytes:40 rios:3 wios:4\n")

end Webshot.Crawler
