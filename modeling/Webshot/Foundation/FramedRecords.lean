import Webshot.Foundation.Occurrences

/-! Records of lines and a block: an empty line ends the lines, the block is as long as they announce, and a trailer
stands behind it. -/
namespace Webshot.Foundation.FramedRecords
open Occurrences

/-- What ends a line, which length of the block the lines announce, and what stands behind the block. -/
structure Framing (α : Type) where
  mark : List α
  trailer : List α
  blockLength : List (List α) → Option Nat
  mark_ne_nil : mark ≠ []

namespace Framing
variable {α : Type} (F : Framing α)

/-- A line that can be told from what ends it, and from the empty one. -/
def PlainLine (line : List α) : Prop := line ≠ [] ∧ ∀ x ∈ F.mark, x ∉ line

structure Record where
  lines : List (List α)
  block : List α
  lines_plain : ∀ line ∈ lines, F.PlainLine line
  announced : F.blockLength lines = some block.length

/-- Lines, each with its mark, and the empty line. -/
def head (lines : List (List α)) : List α := lines.flatMap (· ++ F.mark) ++ F.mark

def Record.letters {F : Framing α} (record : F.Record) : List α :=
  F.head record.lines ++ (record.block ++ F.trailer)

/-- The text is one record and nothing else. -/
def WellFormed (s : List α) : Prop := ∃ record : F.Record, record.letters = s

variable [DecidableEq α]

/-- The lines up to the empty one, and what follows it. -/
def readLines : Nat → List α → Option (List (List α) × List α)
  | 0, _ => none
  | rounds + 1, s => do
    let i ← firstIndex F.mark s
    let rest := s.drop (i + F.mark.length)
    if i = 0 then some ([], rest)
    else
      let (lines, rest) ← readLines rounds rest
      some (s.take i :: lines, rest)

/-- Lines and block of the first record, and what follows it; of the trailer only the length is looked at. -/
def readRecord (s : List α) : Option ((List (List α) × List α) × List α) := do
  let (lines, rest) ← F.readLines s.length s
  let n ← F.blockLength lines
  if rest.length < n + F.trailer.length then none
  else some ((lines, rest.take n), rest.drop (n + F.trailer.length))

def readRecords : Nat → List α → Option (List (List (List α) × List α))
  | _, [] => some []
  | 0, _ :: _ => none
  | rounds + 1, x :: s => do
    let (record, rest) ← F.readRecord (x :: s)
    let records ← readRecords rounds rest
    some (record :: records)

/-- All records of a text; each takes at least one letter. -/
def readAll (s : List α) : Option (List (List (List α) × List α)) := F.readRecords s.length s

variable {F} {lines : List (List α)} {body s rest : List α} {n : Nat}

omit [DecidableEq α] in
theorem length_lines_lt_head : lines.length < (F.head lines).length := by
  have hmark := List.length_pos_iff.mpr F.mark_ne_nil
  induction lines with
  | nil => exact hmark
  | cons line lines ih =>
    simp only [head, List.flatMap_cons, List.length_append, List.length_cons] at ih ⊢
    omega

private theorem readLines_first {line : List α} (h : F.PlainLine line) (rounds : Nat) (rest : List α) :
    F.readLines (rounds + 1) (line ++ (F.mark ++ rest)) =
      (F.readLines rounds rest).bind fun r => some (line :: r.1, r.2) := by
  obtain ⟨hne, hplain⟩ := h
  have hzero : line.length ≠ 0 := by
    rw [Ne, List.length_eq_zero_iff]
    exact hne
  have htake : (line ++ (F.mark ++ rest)).take line.length = line := List.take_left
  have hdrop : (line ++ (F.mark ++ rest)).drop (line.length + F.mark.length) = rest := by
    rw [← List.append_assoc, ← List.length_append, List.drop_left]
  rw [readLines, firstIndex_append_mark hplain F.mark_ne_nil]
  simp only [Option.bind_eq_bind, Option.bind_some, if_neg hzero, htake, hdrop]

/-- The lines of a head are read back. -/
theorem readLines_head {rounds : Nat} (hlines : ∀ line ∈ lines, F.PlainLine line) (hrounds : lines.length < rounds)
    (rest : List α) : F.readLines rounds (F.head lines ++ rest) = some (lines, rest) := by
  induction lines generalizing rounds with
  | nil =>
    obtain ⟨rounds, rfl⟩ : ∃ k, rounds = k + 1 := Nat.exists_eq_add_one.mpr hrounds
    have hfirst : firstIndex F.mark (F.mark ++ rest) = some 0 :=
      firstIndex_append_mark (fun x _ => List.not_mem_nil (a := x)) F.mark_ne_nil rest
    have hdrop : (F.mark ++ rest).drop (0 + F.mark.length) = rest := by
      rw [Nat.zero_add, List.drop_left]
    rw [head, List.flatMap_nil, List.nil_append, readLines, hfirst]
    simp only [Option.bind_eq_bind, Option.bind_some, if_true, hdrop]
  | cons line lines ih =>
    obtain ⟨rounds, rfl⟩ : ∃ k, rounds = k + 1 := Nat.exists_eq_add_one.mpr (Nat.zero_lt_of_lt hrounds)
    have hrest := ih (fun l hl => hlines l (List.mem_cons_of_mem line hl)) (Nat.lt_of_succ_lt_succ hrounds)
    have hhead : F.head (line :: lines) ++ rest = line ++ (F.mark ++ (F.head lines ++ rest)) := by
      simp only [head, List.flatMap_cons, List.append_assoc]
    rw [hhead, readLines_first (hlines line List.mem_cons_self), hrest, Option.bind_some]

/-- A head is read with the block it announces, if enough follows. -/
theorem readRecord_head (hlines : ∀ line ∈ lines, F.PlainLine line) (hlength : F.blockLength lines = some n)
    (body : List α) :
    F.readRecord (F.head lines ++ body) =
      if body.length < n + F.trailer.length then none
      else some ((lines, body.take n), body.drop (n + F.trailer.length)) := by
  have hrounds : lines.length < (F.head lines ++ body).length := by
    rw [List.length_append]
    exact Nat.lt_add_right _ length_lines_lt_head
  rw [readRecord, readLines_head hlines hrounds]
  simp only [Option.bind_eq_bind, Option.bind_some, hlength]

theorem readRecord_letters (record : F.Record) (rest : List α) :
    F.readRecord (record.letters ++ rest) = some ((record.lines, record.block), rest) := by
  have hbody : record.letters ++ rest = F.head record.lines ++ (record.block ++ (F.trailer ++ rest)) := by
    simp only [Record.letters, List.append_assoc]
  have henough : ¬ (record.block ++ (F.trailer ++ rest)).length < record.block.length + F.trailer.length := by
    simp only [List.length_append]
    omega
  rw [hbody, readRecord_head record.lines_plain record.announced, if_neg henough, List.take_left, ← List.append_assoc,
    ← List.length_append, List.drop_left]

/-- A record that ends too early is none. -/
theorem not_wellFormed_of_short (hlines : ∀ line ∈ lines, F.PlainLine line) (hlength : F.blockLength lines = some n)
    (hshort : body.length < n + F.trailer.length) : ¬ F.WellFormed (F.head lines ++ body) := by
  rintro ⟨record, hrecord⟩
  have hread := readRecord_letters record []
  rw [List.append_nil, hrecord, readRecord_head hlines hlength, if_pos hshort] at hread
  cases hread

/-- Lines that announce no length are the end of reading, whatever follows the first of them. -/
theorem readRecord_none {line : List α} (hline : F.PlainLine line)
    (hnone : ∀ lines, F.blockLength (line :: lines) = none) (rest : List α) :
    F.readRecord (line ++ (F.mark ++ rest)) = none := by
  have hlong : (line ++ (F.mark ++ rest)).length = (line ++ (F.mark ++ rest)).length - 1 + 1 := by
    have hpos := List.length_pos_iff.mpr hline.1
    rw [List.length_append]
    omega
  rw [readRecord, hlong, readLines_first hline]
  cases F.readLines ((line ++ (F.mark ++ rest)).length - 1) rest with
  | none => rfl
  | some r => simp only [Option.bind_eq_bind, Option.bind_some, hnone, Option.bind_none]

theorem readRecords_none (hread : F.readRecord s = none) (hne : s ≠ []) (rounds : Nat) :
    F.readRecords rounds s = none := by
  cases s with
  | nil => exact absurd rfl hne
  | cons x s =>
    cases rounds with
    | zero => rfl
    | succ rounds => rw [readRecords, hread, Option.bind_eq_bind, Option.bind_none]

/-- What cannot be read behind a record cannot be read with it either. -/
theorem readRecords_none_of_rest {record : List (List α) × List α} (hread : F.readRecord s = some (record, rest))
    (hne : s ≠ []) (hrest : ∀ rounds, F.readRecords rounds rest = none) (rounds : Nat) :
    F.readRecords rounds s = none := by
  cases s with
  | nil => exact absurd rfl hne
  | cons x s =>
    cases rounds with
    | zero => rfl
    | succ rounds => simp only [readRecords, hread, Option.bind_eq_bind, Option.bind_some, hrest, Option.bind_none]

omit [DecidableEq α] in
theorem letters_pos (record : F.Record) : 0 < record.letters.length := by
  rw [Record.letters, List.length_append]
  exact Nat.lt_add_right _ (Nat.zero_lt_of_lt length_lines_lt_head)

/-- A concatenation of records is read back into exactly these. -/
theorem readAll_letters (records : List F.Record) :
    F.readAll (records.flatMap Record.letters) = some (records.map fun record => (record.lines, record.block)) := by
  have hall : ∀ rounds, (records.flatMap Record.letters).length ≤ rounds →
      F.readRecords rounds (records.flatMap Record.letters) =
        some (records.map fun record => (record.lines, record.block)) := by
    induction records with
    | nil =>
      intro rounds _
      cases rounds <;> rfl
    | cons record records ih =>
      intro rounds hrounds
      have hpos := letters_pos record
      rw [List.flatMap_cons, List.length_append] at hrounds
      rw [List.flatMap_cons]
      have hread := readRecord_letters record (records.flatMap Record.letters)
      cases hs : record.letters ++ records.flatMap Record.letters with
      | nil =>
        rw [(List.append_eq_nil_iff.mp hs).1] at hpos
        cases hpos
      | cons x s =>
        obtain ⟨rounds, rfl⟩ : ∃ k, rounds = k + 1 := Nat.exists_eq_add_one.mpr (by omega)
        rw [hs] at hread
        simp only [readRecords, hread, Option.bind_eq_bind, Option.bind_some, ih rounds (by omega), List.map_cons]
  exact hall _ le_rfl

/-- Well-formed texts, one behind the other, are read as that many records. -/
theorem readAll_wellFormed {texts : List (List α)} (h : ∀ text ∈ texts, F.WellFormed text) :
    ∃ records, F.readAll texts.flatten = some records ∧ records.length = texts.length := by
  obtain ⟨records, hletters, hlength⟩ : ∃ records : List F.Record,
      records.flatMap Record.letters = texts.flatten ∧ records.length = texts.length := by
    induction texts with
    | nil => exact ⟨[], rfl, rfl⟩
    | cons text texts ih =>
      obtain ⟨record, rfl⟩ := h text List.mem_cons_self
      obtain ⟨records, hletters, hlength⟩ := ih fun text htext => h text (List.mem_cons_of_mem _ htext)
      refine ⟨record :: records, ?_, congrArg (· + 1) hlength⟩
      rw [List.flatMap_cons, hletters, List.flatten_cons]
  refine ⟨_, hletters ▸ readAll_letters records, ?_⟩
  rw [List.length_map, hlength]

end Framing
end Webshot.Foundation.FramedRecords
