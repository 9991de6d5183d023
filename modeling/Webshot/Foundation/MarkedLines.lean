import Webshot.Foundation.Occurrences

/-! Lines that a mark of two letters ends, such as CRLF, and the empty line behind a block of them. A line may hold
either letter, but not the mark. -/
namespace Webshot.Foundation.MarkedLines
open Occurrences
variable {α : Type*} {a b : α} {line rest : List α}

theorem not_prefix_append (hab : a ≠ b) {y : α} (hline : ¬ [a, b] <:+: y :: line) (rest : List α) :
    ¬ [a, b] <+: y :: (line ++ a :: rest) := by
  intro hp
  obtain ⟨rfl, hsecond⟩ := List.cons_prefix_cons.mp hp
  cases line with
  | nil => exact hab (List.cons_prefix_cons.mp hsecond).1.symm
  | cons z line =>
    rw [List.cons_append] at hsecond
    obtain ⟨rfl, _⟩ := List.cons_prefix_cons.mp hsecond
    exact hline (List.prefix_append [a, b] line).isInfix

/-- Letters that the mark does not have keep texts apart. -/
theorem not_infix_append_cons {s t : List α} {c : α} (hc : c ∉ [a, b]) (hs : ¬ [a, b] <:+: s) (ht : ¬ [a, b] <:+: t) :
    ¬ [a, b] <:+: s ++ c :: t := by
  rw [List.mem_cons, List.mem_singleton, not_or] at hc
  induction s with
  | nil =>
    rw [List.nil_append, List.infix_cons_iff, not_or]
    exact ⟨fun hp => hc.1 (List.cons_prefix_cons.mp hp).1.symm, ht⟩
  | cons y s ih =>
    rw [List.infix_cons_iff, not_or] at hs
    rw [List.cons_append, List.infix_cons_iff, not_or]
    refine ⟨?_, ih hs.2⟩
    intro hp
    obtain ⟨rfl, hsecond⟩ := List.cons_prefix_cons.mp hp
    cases s with
    | nil => exact hc.2 (List.cons_prefix_cons.mp hsecond).1.symm
    | cons z s =>
      rw [List.cons_append] at hsecond
      obtain ⟨rfl, _⟩ := List.cons_prefix_cons.mp hsecond
      exact hs.1 (List.prefix_append [a, b] s)

/-- Each line and its mark. -/
def endedLines (a b : α) (lines : List (List α)) : List α := lines.flatMap (· ++ [a, b])

variable [DecidableEq α]

/-- A line ends at the first mark. -/
theorem firstIndex_line (hab : a ≠ b) (hline : ¬ [a, b] <:+: line) (rest : List α) :
    firstIndex [a, b] (line ++ a :: b :: rest) = some line.length := by
  induction line with
  | nil => exact firstIndex_cons_pos (List.prefix_append [a, b] rest)
  | cons y line ih =>
    have hrest : ¬ [a, b] <:+: line := fun h => hline (h.trans (List.suffix_cons y line).isInfix)
    rw [List.cons_append, firstIndex_cons_neg (not_prefix_append hab hline _), ih hrest,
      Option.map_some, List.length_cons]

/-- Two marks in a row, right behind a line. -/
theorem firstIndex_twice (hab : a ≠ b) (hline : ¬ [a, b] <:+: line) (rest : List α) :
    firstIndex [a, b, a, b] (line ++ a :: b :: a :: b :: rest) = some line.length := by
  induction line with
  | nil => exact firstIndex_cons_pos (List.prefix_append [a, b, a, b] rest)
  | cons y line ih =>
    have hrest : ¬ [a, b] <:+: line := fun h => hline (h.trans (List.suffix_cons y line).isInfix)
    have hnot : ¬ [a, b, a, b] <+: y :: (line ++ a :: b :: a :: b :: rest) := by
      intro hp
      exact not_prefix_append hab hline _ ((List.prefix_append [a, b] [a, b]).trans hp)
    rw [List.cons_append, firstIndex_cons_neg hnot, ih hrest, Option.map_some, List.length_cons]

/-- With something else behind its mark, a line is passed over. -/
theorem firstIndex_twice_append (hab : a ≠ b) (hline : ¬ [a, b] <:+: line) (hrest : ¬ [a, b] <+: rest) :
    firstIndex [a, b, a, b] (line ++ a :: b :: rest) =
      (firstIndex [a, b, a, b] rest).map (· + (line.length + 2)) := by
  induction line with
  | nil =>
    have hfirst : ¬ [a, b, a, b] <+: a :: b :: rest := by
      intro hp
      exact hrest (List.cons_prefix_cons.mp (List.cons_prefix_cons.mp hp).2).2
    have hsecond : ¬ [a, b, a, b] <+: b :: rest := fun hp => hab (List.cons_prefix_cons.mp hp).1
    rw [List.nil_append, firstIndex_cons_neg hfirst, firstIndex_cons_neg hsecond, Option.map_map]
    rfl
  | cons y line ih =>
    have htail : ¬ [a, b] <:+: line := fun h => hline (h.trans (List.suffix_cons y line).isInfix)
    have hnot : ¬ [a, b, a, b] <+: y :: (line ++ a :: b :: rest) := by
      intro hp
      exact not_prefix_append hab hline _ ((List.prefix_append [a, b] [a, b]).trans hp)
    rw [List.cons_append, firstIndex_cons_neg hnot, ih htail, Option.map_map, List.length_cons]
    rfl

/-- A block of lines without an empty one ends at the first empty line behind it. -/
theorem firstIndex_block (hab : a ≠ b) {lines : List (List α)} (hlines : ∀ l ∈ lines, l ≠ [] ∧ ¬ [a, b] <:+: l)
    (hne : lines ≠ []) (rest : List α) :
    firstIndex [a, b, a, b] (endedLines a b lines ++ a :: b :: rest) = some ((endedLines a b lines).length - 2) := by
  induction lines with
  | nil => exact absurd rfl hne
  | cons line lines ih =>
    have hline := (hlines line List.mem_cons_self).2
    cases lines with
    | nil =>
      have htext : endedLines a b [line] ++ a :: b :: rest = line ++ a :: b :: a :: b :: rest := by simp [endedLines]
      have hlength : (endedLines a b [line]).length - 2 = line.length := by simp [endedLines]
      rw [htext, hlength]
      exact firstIndex_twice hab hline rest
    | cons next lines =>
      have hothers : ∀ l ∈ next :: lines, l ≠ [] ∧ ¬ [a, b] <:+: l := fun l hl => hlines l (List.mem_cons_of_mem line hl)
      have hnext := hothers next List.mem_cons_self
      have htext : endedLines a b (line :: next :: lines) ++ a :: b :: rest =
          line ++ a :: b :: (endedLines a b (next :: lines) ++ a :: b :: rest) := by
        simp [endedLines]
      have hstarts : ¬ [a, b] <+: endedLines a b (next :: lines) ++ a :: b :: rest := by
        have hfirst : endedLines a b (next :: lines) ++ a :: b :: rest =
            next ++ a :: (b :: (endedLines a b lines ++ a :: b :: rest)) := by
          simp [endedLines]
        obtain ⟨y, next, rfl⟩ := List.exists_cons_of_ne_nil hnext.1
        rw [hfirst]
        exact not_prefix_append hab hnext.2 _
      have hlength : (endedLines a b (line :: next :: lines)).length =
          line.length + 2 + (endedLines a b (next :: lines)).length := by
        rw [endedLines, List.flatMap_cons, List.length_append, List.length_append]
        rfl
      have hlong : 2 ≤ (endedLines a b (next :: lines)).length := by
        simp [endedLines]
        omega
      rw [htext, firstIndex_twice_append hab hline hstarts, ih hothers (List.cons_ne_nil next lines), Option.map_some,
        hlength]
      congr 1
      omega

end Webshot.Foundation.MarkedLines
