import Mathlib.Data.Prod.Lex
import Webshot.Access.SurtKeys
import Webshot.Crawler.WarcRecords
import Webshot.Foundation.JoinedFields

/-! `MakeCdx`: the index as sorted lines. -/
namespace Webshot.Crawler
open Text Access Foundation.JoinedFields

def warcFilename : Bytes := ascii "data.warc.gz"

structure CdxLine where
  key : Bytes
  timestamp : Bytes
  json : Bytes
  deriving DecidableEq

namespace CdxLine
variable (line : CdxLine)

/-- The comparison of the sort. -/
def before (left right : CdxLine) : Bool :=
  if left.key ≠ right.key then left.key < right.key else left.timestamp < right.timestamp

/-- What the lines are searched by. -/
def start : Bytes := line.key ++ [space] ++ line.timestamp ++ [space]

def text : Bytes := line.start ++ line.json ++ [lineFeed]

end CdxLine

/-- What the making of the index takes from libraries. -/
structure CdxEnv where
  una : UniAlgo
  rules : UrlRules
  parser : UrlParser rules
  jsonToString : Json → Bytes
  /-- `std::ranges::sort`, which need not keep the order of lines with the same key and timestamp. -/
  sort : List CdxLine → List CdxLine
  sort_perm : ∀ lines, (sort lines).Perm lines
  sort_sorted : ∀ lines, (sort lines).Pairwise fun left right => right.before left = false

namespace CdxEnv
variable (env : CdxEnv)

/-- The key of a page; a text that is no URL of a page is its own. -/
def toSurtKey (urlText : Bytes) : Option Bytes :=
  match env.parser.parse urlText with
  | none => some urlText
  | some url => if url.isHttpOrHttps then url.surt env.una else some urlText

def makeWaczIndexJsonBytes (record : WarcCdxRecord) : Bytes :=
  env.jsonToString (.object [(ascii "url", .string record.recordUrl), (ascii "digest", .string record.digest),
    (ascii "mime", .string (contentTypeForHeaders record.headers)), (ascii "filename", .string warcFilename),
    (ascii "offset", .number (some record.offset)), (ascii "length", .number (some record.length)),
    (ascii "status", .number (some record.statusCode)), (ascii "recordDigest", .string record.recordDigest)])

def makeCdxLine (record : WarcCdxRecord) : Option CdxLine := do
  return ⟨← env.toSurtKey record.recordUrl, record.timestamp, env.makeWaczIndexJsonBytes record⟩

/-- `MakeCdx`; `none` is an abort. -/
def makeCdx (records : List WarcCdxRecord) : Option Bytes := do
  let lines ← records.mapM env.makeCdxLine
  return (env.sort lines).flatMap CdxLine.text

end CdxEnv

section Order
variable {left right : CdxLine}

/-- What need not go behind is smaller in the first field that differs. -/
theorem not_before_iff : right.before left = false ↔
    left.key < right.key ∨ left.key = right.key ∧ left.timestamp ≤ right.timestamp := by
  unfold CdxLine.before
  split
  · rename_i hne
    rw [decide_eq_false_iff_not, not_lt, le_iff_lt_or_eq]
    exact or_congr_right (iff_of_false (fun h => hne h.symm) fun h => hne h.1.symm)
  · rename_i heq
    have hkey : right.key = left.key := not_not.mp heq
    rw [decide_eq_false_iff_not, not_lt, hkey]
    exact ⟨fun h => .inr ⟨rfl, h⟩, fun h => (h.resolve_left (lt_irrefl _)).2⟩

/-- Lines with visible keys and timestamps of one length are in the order of what they begin with, also where one key
goes on behind another. -/
theorem start_le_of_not_before (h : right.before left = false) (hkey : ∀ x ∈ right.key, space < x)
    (htime : left.timestamp.length = right.timestamp.length) : left.start ≤ right.start := by
  unfold CdxLine.start
  rw [List.append_assoc, List.append_assoc, List.append_assoc, List.append_assoc]
  rcases not_before_iff.mp h with hlt | ⟨heq, hle⟩
  · exact (append_cons_lt_of_lt hlt hkey (left.timestamp ++ [space]) ([space] ++ (right.timestamp ++ [space]))).le
  · rw [heq]
    rcases hle.lt_or_eq with hlt | hsame
    · have hbehind : left.timestamp ++ [space] < right.timestamp ++ [space] :=
        append_lt_of_length_eq hlt htime [space] [space]
      exact (List.append_left_lt (List.append_left_lt hbehind)).le
    · rw [hsame]

end Order

section Lines

/-- Lines that end with a newline and hold no other are read one by one. -/
theorem splitOn_lines {lines : List CdxLine} (h : ∀ line ∈ lines, lineFeed ∉ line.start ++ line.json) :
    (lines.flatMap CdxLine.text).splitOn lineFeed = lines.map (fun line => line.start ++ line.json) ++ [[]] := by
  induction lines with
  | nil => rfl
  | cons line lines ih =>
    rw [List.forall_mem_cons] at h
    rw [List.flatMap_cons, CdxLine.text, List.append_assoc, List.singleton_append,
      List.splitOn_append_cons_self_of_not_mem h.1, ih h.2]
    rfl

end Lines

section Index
variable (env : CdxEnv)

/-- A line has the key, the time and the description of its record. -/
structure IsLineOf (record : WarcCdxRecord) (line : CdxLine) : Prop where
  key : env.toSurtKey record.recordUrl = some line.key
  timestamp : line.timestamp = record.timestamp
  json : line.json = env.makeWaczIndexJsonBytes record

theorem makeCdxLine_eq_some {record : WarcCdxRecord} {line : CdxLine} (h : env.makeCdxLine record = some line) :
    IsLineOf env record line := by
  obtain ⟨key, hkey, hline⟩ := Option.bind_eq_some_iff.mp h
  cases hline
  exact ⟨hkey, rfl, rfl⟩

theorem makeCdxLines_spec {records : List WarcCdxRecord}
    (h : ∀ record ∈ records, ∃ key, env.toSurtKey record.recordUrl = some key) :
    ∃ lines, records.mapM env.makeCdxLine = some lines ∧ List.Forall₂ (IsLineOf env) records lines := by
  induction records with
  | nil => exact ⟨[], rfl, .nil⟩
  | cons record records ih =>
    rw [List.forall_mem_cons] at h
    obtain ⟨key, hkey⟩ := h.1
    obtain ⟨lines, hlines, hall⟩ := ih h.2
    have hline : env.makeCdxLine record = some ⟨key, record.timestamp, env.makeWaczIndexJsonBytes record⟩ := by
      rw [CdxEnv.makeCdxLine, hkey]
      rfl
    refine ⟨_ :: lines, ?_, .cons (makeCdxLine_eq_some env hline) hall⟩
    rw [List.mapM_cons, hline, hlines]
    rfl

theorem exists_of_mem_right {records : List WarcCdxRecord} {lines : List CdxLine}
    (h : List.Forall₂ (IsLineOf env) records lines) {line : CdxLine} (hline : line ∈ lines) :
    ∃ record ∈ records, IsLineOf env record line := by
  induction h with
  | nil => exact absurd hline List.not_mem_nil
  | cons hhead _ ih =>
    rcases List.mem_cons.mp hline with rfl | hline
    · exact ⟨_, List.mem_cons_self, hhead⟩
    · obtain ⟨record, hrecord, heq⟩ := ih hline
      exact ⟨record, List.mem_cons_of_mem _ hrecord, heq⟩

/-- The index is made of one line for each record, with the record's key, time and description, and the lines are
sorted by what they begin with. -/
theorem makeCdx_sorted {records : List WarcCdxRecord}
    (hkeys : ∀ record ∈ records, ∃ key, env.toSurtKey record.recordUrl = some key ∧ ∀ x ∈ key, space < x)
    (htimes : ∀ record ∈ records, ∀ record' ∈ records, record.timestamp.length = record'.timestamp.length) :
    ∃ lines sorted : List CdxLine,
      List.Forall₂ (fun record line => env.toSurtKey record.recordUrl = some line.key ∧
        line.timestamp = record.timestamp ∧ line.json = env.makeWaczIndexJsonBytes record) records lines ∧
      sorted.Perm lines ∧
      env.makeCdx records = some (sorted.flatMap fun line =>
        line.key ++ [space] ++ line.timestamp ++ [space] ++ line.json ++ [lineFeed]) ∧
      sorted.Pairwise (fun left right =>
        left.key ++ [space] ++ left.timestamp ++ [space] ≤ right.key ++ [space] ++ right.timestamp ++ [space]) ∧
      ((∀ record ∈ records, lineFeed ∉ record.timestamp ∧ lineFeed ∉ env.makeWaczIndexJsonBytes record) →
        (sorted.flatMap fun line =>
            line.key ++ [space] ++ line.timestamp ++ [space] ++ line.json ++ [lineFeed]).splitOn lineFeed =
          sorted.map (fun line => line.key ++ [space] ++ line.timestamp ++ [space] ++ line.json) ++ [[]]) := by
  obtain ⟨lines, hlines, hall⟩ := makeCdxLines_spec env fun record hrecord => (hkeys record hrecord).imp fun _ h => h.1
  have hline : ∀ line ∈ env.sort lines, ∃ record ∈ records, IsLineOf env record line := fun line hmem =>
    exists_of_mem_right env hall ((env.sort_perm lines).mem_iff.mp hmem)
  have hkey : ∀ line ∈ env.sort lines, ∀ x ∈ line.key, space < x := by
    intro line hmem
    obtain ⟨record, hrecord, his⟩ := hline line hmem
    obtain ⟨key, hkey, hvisible⟩ := hkeys record hrecord
    rw [his.key] at hkey
    cases hkey
    exact hvisible
  have htime : ∀ left ∈ env.sort lines, ∀ right ∈ env.sort lines, left.timestamp.length = right.timestamp.length := by
    intro left hleft right hright
    obtain ⟨record, hrecord, his⟩ := hline left hleft
    obtain ⟨record', hrecord', his'⟩ := hline right hright
    rw [his.timestamp, his'.timestamp]
    exact htimes record hrecord record' hrecord'
  refine ⟨lines, env.sort lines, hall.imp fun _ _ his => ⟨his.key, his.timestamp, his.json⟩, env.sort_perm lines,
    ?_, ?_, ?_⟩
  · rw [CdxEnv.makeCdx, hlines]
    rfl
  · exact (env.sort_sorted lines).imp_of_mem fun hleft hright h =>
      start_le_of_not_before h (hkey _ hright) (htime _ hleft _ hright)
  · intro hnewline
    refine splitOn_lines fun line hmem hin => ?_
    obtain ⟨record, hrecord, his⟩ := hline line hmem
    simp only [CdxLine.start, List.mem_append, List.mem_singleton, his.timestamp, his.json] at hin
    rcases hin with (((hin | hin) | hin) | hin) | hin
    · exact absurd (hkey line hmem lineFeed hin) (by decide)
    · exact absurd hin (by decide)
    · exact (hnewline record hrecord).1 hin
    · exact absurd hin (by decide)
    · exact (hnewline record hrecord).2 hin

end Index

/-- The sort with a comparison of both fields at once. -/
def stableSort (lines : List CdxLine) : List CdxLine :=
  lines.mergeSort fun left right => toLex (left.key, left.timestamp) ≤ toLex (right.key, right.timestamp)

theorem stableSort_sorted (lines : List CdxLine) :
    (stableSort lines).Pairwise fun left right => right.before left = false := by
  let fields : CdxLine → Lex (Bytes × Bytes) := fun line => toLex (line.key, line.timestamp)
  have htrans : ∀ a b c : CdxLine, decide (fields a ≤ fields b) = true → decide (fields b ≤ fields c) = true →
      decide (fields a ≤ fields c) = true := by
    intro a b c hab hbc
    exact decide_eq_true (le_trans (of_decide_eq_true hab) (of_decide_eq_true hbc))
  have htotal : ∀ a b : CdxLine, (decide (fields a ≤ fields b) || decide (fields b ≤ fields a)) = true := by
    intro a b
    rw [Bool.or_eq_true, decide_eq_true_eq, decide_eq_true_eq]
    exact le_total (fields a) (fields b)
  refine (List.pairwise_mergeSort htrans htotal lines).imp fun h => ?_
  rw [not_before_iff]
  exact Prod.Lex.toLex_le_toLex.mp (of_decide_eq_true h)

/-- A JSON writer that writes empty objects. -/
def sampleCdxEnv : CdxEnv where
  una := asciiUna
  rules := plainRules
  parser := plainParser
  jsonToString _ := ascii "\x7b\x7d"
  sort := stableSort
  sort_perm lines := List.mergeSort_perm lines _
  sort_sorted := stableSort_sorted

def sampleCdxRecord (recordUrl timestamp : Bytes) : WarcCdxRecord :=
  ⟨recordUrl, timestamp, [], [], 200, ∅, 0, 1⟩

/-- A page and the root it is under, whose key is a part of the page's. -/
def sampleCdxRecords : List WarcCdxRecord :=
  [sampleCdxRecord (ascii "urn:a/b") (ascii "1"), sampleCdxRecord (ascii "urn:a") (ascii "2")]

theorem makeCdx_sorted_sample :
    ∃ lines sorted : List CdxLine, sorted.Perm lines ∧ lines.length = 2 ∧
      sampleCdxEnv.makeCdx sampleCdxRecords = some (sorted.flatMap fun line =>
        line.key ++ [space] ++ line.timestamp ++ [space] ++ line.json ++ [lineFeed]) ∧
      sorted.Pairwise (fun left right =>
        left.key ++ [space] ++ left.timestamp ++ [space] ≤ right.key ++ [space] ++ right.timestamp ++ [space]) := by
  have hkeys : ∀ record ∈ sampleCdxRecords,
      ∃ key, sampleCdxEnv.toSurtKey record.recordUrl = some key ∧ ∀ x ∈ key, space < x := by
    rw [sampleCdxRecords, List.forall_mem_cons, List.forall_mem_singleton]
    exact ⟨⟨_, rfl, by decide +kernel⟩, ⟨_, rfl, by decide +kernel⟩⟩
  have htimes : ∀ record ∈ sampleCdxRecords, ∀ record' ∈ sampleCdxRecords,
      record.timestamp.length = record'.timestamp.length := by
    simp only [sampleCdxRecords, List.forall_mem_cons]
    decide
  obtain ⟨lines, sorted, hlines, hperm, hindex, hsorted, -⟩ := makeCdx_sorted sampleCdxEnv hkeys htimes
  exact ⟨lines, sorted, hperm, hlines.length_eq.symm, hindex, hsorted⟩

end Webshot.Crawler
