import Mathlib.Data.List.Forall2
import Webshot.Foundation.Octets

/-! The string literals of a JSON text, and what a rewriting of the text that leaves quotes and backslashes alone
makes of them. -/
namespace Webshot.Foundation.JsonLiterals

abbrev Octets := List (Fin 256)

def quote : Fin 256 := 34

def backslash : Fin 256 := 92

/-- A literal, by what stands between its quotes, or a character outside of literals. -/
inductive Token where
  | mark (c : Fin 256)
  | literal (raw : Octets)
  deriving DecidableEq

namespace Token

def literal? : Token → Option Octets
  | mark _ => none
  | literal raw => some raw

def map (g : Octets → Octets) : Token → Token
  | mark c => mark c
  | literal raw => literal (g raw)

end Token

def literals (tokens : List Token) : List Octets := tokens.filterMap Token.literal?

@[simp] theorem literals_nil : literals [] = [] := rfl

@[simp] theorem literals_mark (c : Fin 256) (tokens : List Token) : literals (.mark c :: tokens) = literals tokens := rfl

@[simp] theorem literals_literal (raw : Octets) (tokens : List Token) :
    literals (.literal raw :: tokens) = raw :: literals tokens := rfl

theorem literals_map (g : Octets → Octets) (tokens : List Token) : literals (tokens.map (Token.map g)) = (literals tokens).map g := by
  induction tokens with
  | nil => rfl
  | cons token tokens ih =>
    cases token with
    | mark c => exact ih
    | literal raw => exact congrArg (g raw :: ·) ih

/-- Where a reader stands; within a literal, with what was read of it. -/
inductive Place where
  | outside
  | inside (read : Octets)
  | escaped (read : Octets)

/-- The tokens of a text, which is ASCII outside of literals. -/
def scanFrom : Place → Octets → Option (List Token)
  | .outside, [] => some []
  | .inside _, [] => none
  | .escaped _, [] => none
  | .outside, c :: rest =>
    if c = quote then scanFrom (.inside []) rest
    else if c.val < 128 then (scanFrom .outside rest).map (.mark c :: ·)
    else none
  | .inside read, c :: rest =>
    if c = quote then (scanFrom .outside rest).map (.literal read :: ·)
    else if c = backslash then scanFrom (.escaped (read ++ [c])) rest
    else scanFrom (.inside (read ++ [c])) rest
  | .escaped read, c :: rest => scanFrom (.inside (read ++ [c])) rest

def scan (text : Octets) : Option (List Token) := scanFrom .outside text

/-- A stretch of a literal without escapes. -/
structure Plain (piece : Octets) : Prop where
  quote : quote ∉ piece
  backslash : backslash ∉ piece

/-- What may stand between two quotes: every quote and every backslash is escaped. -/
inductive Closed : Octets → Prop
  | plain {piece : Octets} : Plain piece → Closed piece
  | mark {piece rest : Octets} {c : Fin 256} : Plain piece → c = quote ∨ c = backslash → Closed rest →
      Closed (piece ++ backslash :: c :: rest)
  | letter {piece rest : Octets} {c : Fin 256} : Plain piece → Plain [c] → Closed (c :: rest) →
      Closed (piece ++ backslash :: c :: rest)

inductive Scanned : Octets → List Token → Prop
  | nil : Scanned [] []
  | mark {c : Fin 256} {rest : Octets} {tokens : List Token} : c ≠ quote → c.val < 128 → Scanned rest tokens →
      Scanned (c :: rest) (.mark c :: tokens)
  | literal {raw rest : Octets} {tokens : List Token} : Closed raw → Scanned rest tokens →
      Scanned (quote :: (raw ++ quote :: rest)) (.literal raw :: tokens)

theorem plain_nil : Plain [] := ⟨List.not_mem_nil, List.not_mem_nil⟩

theorem Plain.cons {c : Fin 256} {piece : Octets} (hc : Plain [c]) (h : Plain piece) : Plain (c :: piece) :=
  ⟨fun hmem => (List.mem_cons.mp hmem).elim (fun heq => hc.quote (by rw [← heq]; exact List.mem_cons_self)) h.quote,
    fun hmem => (List.mem_cons.mp hmem).elim (fun heq => hc.backslash (by rw [← heq]; exact List.mem_cons_self)) h.backslash⟩

theorem plain_singleton {c : Fin 256} : Plain [c] ↔ c ≠ quote ∧ c ≠ backslash := by
  constructor
  · exact fun h => ⟨fun hc => h.quote (by rw [hc]; exact List.mem_cons_self),
      fun hc => h.backslash (by rw [hc]; exact List.mem_cons_self)⟩
  · exact fun h => ⟨fun hmem => h.1 (List.mem_singleton.mp hmem).symm, fun hmem => h.2 (List.mem_singleton.mp hmem).symm⟩

theorem Closed.cons {c : Fin 256} {raw : Octets} (hc : Plain [c]) (h : Closed raw) : Closed (c :: raw) := by
  cases h with
  | plain hpiece => exact .plain (hc.cons hpiece)
  | mark hpiece hmark hrest => exact .mark (hc.cons hpiece) hmark hrest
  | letter hpiece hletter hrest => exact .letter (hc.cons hpiece) hletter hrest

section Scanning

theorem scanFrom_plain {piece : Octets} (h : Plain piece) (read text : Octets) :
    scanFrom (.inside read) (piece ++ text) = scanFrom (.inside (read ++ piece)) text := by
  induction piece generalizing read with
  | nil => rw [List.nil_append, List.append_nil]
  | cons c piece ih =>
    have hquote : c ≠ quote := fun hc => h.quote (by rw [hc]; exact List.mem_cons_self)
    have hbackslash : c ≠ backslash := fun hc => h.backslash (by rw [hc]; exact List.mem_cons_self)
    have hpiece : Plain piece := ⟨fun hmem => h.quote (List.mem_cons_of_mem _ hmem),
      fun hmem => h.backslash (List.mem_cons_of_mem _ hmem)⟩
    rw [List.cons_append, scanFrom, if_neg hquote, if_neg hbackslash, ih hpiece, List.append_assoc, List.singleton_append]

theorem scanFrom_escape (read text : Octets) (c : Fin 256) :
    scanFrom (.inside read) (backslash :: c :: text) = scanFrom (.inside (read ++ [backslash, c])) text := by
  rw [scanFrom, if_neg (by decide), if_pos rfl, scanFrom, List.append_assoc]
  rfl

/-- A literal is read up to its closing quote. -/
theorem Closed.scanFrom {raw : Octets} (h : Closed raw) (read text : Octets) :
    scanFrom (.inside read) (raw ++ quote :: text) = (scanFrom .outside text).map (.literal (read ++ raw) :: ·) := by
  induction h generalizing read with
  | plain hpiece => rw [scanFrom_plain hpiece, JsonLiterals.scanFrom, if_pos rfl]
  | @mark piece rest c hpiece _ _ ih =>
    rw [List.append_assoc, scanFrom_plain hpiece, List.cons_append, List.cons_append, scanFrom_escape, ih]
    simp only [List.append_assoc, List.cons_append, List.nil_append]
  | @letter piece rest c hpiece hletter _ ih =>
    have hread := ih (read ++ (piece ++ [backslash]))
    have hstep := scanFrom_plain hletter (read ++ (piece ++ [backslash])) (rest ++ quote :: text)
    rw [List.append_assoc, scanFrom_plain hpiece, List.cons_append, List.cons_append, scanFrom_escape]
    simp only [List.append_assoc, List.cons_append, List.nil_append] at hread hstep ⊢
    rw [← hstep, hread]

theorem Scanned.scan_eq {text : Octets} {tokens : List Token} (h : Scanned text tokens) : scan text = some tokens := by
  induction h with
  | nil => rfl
  | mark hquote hascii _ ih =>
    rw [scan, scanFrom, if_neg hquote, if_pos hascii]
    exact congrArg (Option.map _) ih
  | literal hraw _ ih =>
    rw [scan, scanFrom, if_pos rfl, hraw.scanFrom, List.nil_append]
    exact congrArg (Option.map _) ih

/-- What the reader has seen of a text when it is at one of the places. -/
def Place.Reads (text : Octets) (tokens : List Token) : Place → Prop
  | .outside => Scanned text tokens
  | .inside read => ∃ raw rest later, Closed raw ∧ text = raw ++ quote :: rest ∧ tokens = .literal (read ++ raw) :: later ∧
      Scanned rest later
  | .escaped read => ∃ c raw rest later, (c = quote ∨ c = backslash ∨ Plain [c]) ∧ Closed raw ∧
      text = c :: (raw ++ quote :: rest) ∧ tokens = .literal (read ++ c :: raw) :: later ∧ Scanned rest later

theorem scanFrom_reads {place : Place} {text : Octets} {tokens : List Token} (h : scanFrom place text = some tokens) :
    place.Reads text tokens := by
  induction text generalizing place tokens with
  | nil =>
    cases place with
    | outside =>
      cases h
      exact .nil
    | inside read => cases h
    | escaped read => cases h
  | cons c text ih =>
    cases place with
    | outside =>
      rw [scanFrom] at h
      split at h
      · rename_i hc
        obtain ⟨raw, rest, later, hraw, rfl, rfl, hrest⟩ := ih h
        subst hc
        exact .literal hraw hrest
      · rename_i hc
        split at h
        · rename_i hascii
          obtain ⟨later, hlater, rfl⟩ := Option.map_eq_some_iff.mp h
          exact .mark hc hascii (ih hlater)
        · cases h
    | inside read =>
      rw [scanFrom] at h
      split at h
      · rename_i hc
        obtain ⟨later, hlater, rfl⟩ := Option.map_eq_some_iff.mp h
        subst hc
        exact ⟨[], text, later, .plain plain_nil, rfl, by rw [List.append_nil], ih hlater⟩
      · rename_i hquote
        split at h
        · rename_i hc
          obtain ⟨d, raw, rest, later, hd, hraw, rfl, rfl, hrest⟩ := ih h
          subst hc
          have hclosed : Closed ([] ++ backslash :: d :: raw) := by
            rcases hd with hd | hd | hd
            · exact .mark plain_nil (Or.inl hd) hraw
            · exact .mark plain_nil (Or.inr hd) hraw
            · exact .letter plain_nil hd (hraw.cons hd)
          exact ⟨backslash :: d :: raw, rest, later, hclosed, rfl, by rw [List.append_assoc]; rfl, hrest⟩
        · rename_i hbackslash
          obtain ⟨raw, rest, later, hraw, rfl, rfl, hrest⟩ := ih h
          exact ⟨c :: raw, rest, later, hraw.cons (plain_singleton.mpr ⟨hquote, hbackslash⟩), rfl,
            by rw [List.append_assoc]; rfl, hrest⟩
    | escaped read =>
      rw [scanFrom] at h
      obtain ⟨raw, rest, later, hraw, rfl, rfl, hrest⟩ := ih h
      refine ⟨c, raw, rest, later, ?_, hraw, rfl, by rw [List.append_assoc]; rfl, hrest⟩
      by_cases hquote : c = quote
      · exact Or.inl hquote
      by_cases hbackslash : c = backslash
      · exact Or.inr (Or.inl hbackslash)
      exact Or.inr (Or.inr (plain_singleton.mpr ⟨hquote, hbackslash⟩))

theorem scan_iff {text : Octets} {tokens : List Token} : scan text = some tokens ↔ Scanned text tokens :=
  ⟨fun h => scanFrom_reads h, fun h => h.scan_eq⟩

end Scanning

/-- A rewriting of texts that leaves quotes and backslashes where they are and makes no new ones. -/
structure KeepsMarks (valid : Octets → Prop) (g : Octets → Octets) : Prop where
  valid_split : ∀ a c b, c.val < 128 → valid (a ++ c :: b) → valid a ∧ valid (c :: b) ∧ valid b
  ascii : ∀ c, c.val < 128 → g [c] = [c]
  append : ∀ a c b, c.val < 128 → valid a → valid (c :: b) → g (a ++ c :: b) = g a ++ g (c :: b)
  mark : ∀ c b, c = quote ∨ c = backslash → valid b → g (c :: b) = c :: g b
  mem : ∀ a c, c = quote ∨ c = backslash → valid a → c ∈ g a → c ∈ a
  nil : ∀ a, valid a → (g a = [] ↔ a = [])

namespace KeepsMarks
variable {valid : Octets → Prop} {g : Octets → Octets} (hg : KeepsMarks valid g)
include hg

theorem append_mark {a b : Octets} {c : Fin 256} (hc : c = quote ∨ c = backslash) (h : valid (a ++ c :: b)) :
    g (a ++ c :: b) = g a ++ c :: g b ∧ valid a ∧ valid b := by
  have hascii : c.val < 128 := by
    rcases hc with rfl | rfl
    · decide
    · decide
  obtain ⟨ha, hcb, hb⟩ := hg.valid_split a c b hascii h
  rw [hg.append a c b hascii ha hcb, hg.mark c b hc hb]
  exact ⟨rfl, ha, hb⟩

theorem plain {piece : Octets} (h : Plain piece) (hvalid : valid piece) : Plain (g piece) :=
  ⟨fun hmem => h.quote (hg.mem _ _ (Or.inl rfl) hvalid hmem), fun hmem => h.backslash (hg.mem _ _ (Or.inr rfl) hvalid hmem)⟩

/-- An unescaped character stays one, though perhaps not the same. -/
theorem plain_head {raw rest : Octets} {c : Fin 256} (h : Closed raw) (hraw : raw = c :: rest) (hc : Plain [c])
    (hvalid : valid raw) : ∃ d later, g raw = d :: later ∧ Plain [d] := by
  have hhead : ∀ {piece : Octets}, Plain piece → piece ≠ [] → ∀ text, ∃ d later, piece ++ text = d :: later ∧ Plain [d] := by
    intro piece hpiece hne text
    obtain ⟨d, later, rfl⟩ := List.exists_cons_of_ne_nil hne
    refine ⟨d, later ++ text, rfl, plain_singleton.mpr ⟨fun hd => hpiece.quote ?_, fun hd => hpiece.backslash ?_⟩⟩
    · rw [hd]
      exact List.mem_cons_self
    · rw [hd]
      exact List.mem_cons_self
  have hescape : ∀ {piece text : Octets}, Plain piece → piece ++ backslash :: text = c :: rest →
      valid (piece ++ backslash :: text) → ∃ d later, g (piece ++ backslash :: text) = d :: later ∧ Plain [d] := by
    intro piece text hpiece heq hvalid
    obtain ⟨hcut, hvpiece, _⟩ := hg.append_mark (Or.inr rfl) hvalid
    rw [hcut]
    refine hhead (hg.plain hpiece hvpiece) (fun hnil => ?_) _
    rw [(hg.nil _ hvpiece).mp hnil] at heq
    cases heq
    exact hc.backslash List.mem_cons_self
  cases h with
  | plain hpiece =>
    have hne : g raw ≠ [] := fun hnil => by
      rw [(hg.nil _ hvalid).mp hnil] at hraw
      cases hraw
    have hresult := hhead (hg.plain hpiece hvalid) hne []
    rwa [List.append_nil] at hresult
  | mark hpiece _ _ => exact hescape hpiece hraw hvalid
  | letter hpiece _ _ => exact hescape hpiece hraw hvalid

theorem closed {raw : Octets} (h : Closed raw) (hvalid : valid raw) : Closed (g raw) := by
  induction h with
  | plain hpiece => exact .plain (hg.plain hpiece hvalid)
  | @mark piece rest c hpiece hc _ ih =>
    obtain ⟨hcut, hvpiece, hvescaped⟩ := hg.append_mark (Or.inr rfl) hvalid
    have hescaped : valid ([] ++ c :: rest) := hvescaped
    obtain ⟨_, _, hvrest⟩ := hg.append_mark hc hescaped
    rw [hcut, hg.mark c rest hc hvrest]
    exact .mark (hg.plain hpiece hvpiece) hc (ih hvrest)
  | @letter piece rest c hpiece hc hrest ih =>
    obtain ⟨hcut, hvpiece, hvescaped⟩ := hg.append_mark (Or.inr rfl) hvalid
    obtain ⟨d, later, hlater, hd⟩ := hg.plain_head hrest rfl hc hvescaped
    have hclosed := ih hvescaped
    rw [hlater] at hclosed
    rw [hcut, hlater]
    exact .letter (hg.plain hpiece hvpiece) hd hclosed

/-- The text is scanned as before, each literal rewritten on its own. -/
theorem scanned {text : Octets} {tokens : List Token} (h : Scanned text tokens) (hvalid : valid text) :
    Scanned (g text) (tokens.map (Token.map g)) := by
  induction h with
  | nil =>
    rw [(hg.nil [] hvalid).mpr rfl]
    exact .nil
  | @mark c rest tokens hquote hascii hrest ih =>
    have hvmark : valid ([] ++ c :: rest) := hvalid
    obtain ⟨_, _, hvrest⟩ := hg.valid_split [] c rest hascii hvmark
    have hcut : g (c :: rest) = c :: g rest := by
      -- What follows is nothing, or a character that the rewriting does not merge with one before it.
      have hnext : rest = [] ∨ ∃ d later, rest = d :: later ∧ d.val < 128 := by
        cases hrest with
        | nil => exact Or.inl rfl
        | mark _ hd _ => exact Or.inr ⟨_, _, rfl, hd⟩
        | literal _ _ => exact Or.inr ⟨_, _, rfl, by decide⟩
      rcases hnext with rfl | ⟨d, later, rfl, hd⟩
      · rw [(hg.nil [] hvrest).mpr rfl]
        exact hg.ascii c hascii
      · have hvpair : valid ([c] ++ d :: later) := hvalid
        obtain ⟨hvc, hvd, _⟩ := hg.valid_split [c] d later hd hvpair
        have hpair := hg.append [c] d later hd hvc hvd
        rw [hg.ascii c hascii] at hpair
        exact hpair
    rw [hcut]
    exact .mark hquote hascii (ih hvrest)
  | @literal raw rest tokens hraw _ ih =>
    have hvopen : valid ([] ++ quote :: (raw ++ quote :: rest)) := hvalid
    obtain ⟨_, _, hvinside⟩ := hg.append_mark (Or.inl rfl) hvopen
    obtain ⟨hcut, hvraw, hvrest⟩ := hg.append_mark (Or.inl rfl) hvinside
    rw [hg.mark quote _ (Or.inl rfl) hvinside, hcut]
    exact .literal (hg.closed hraw hvraw) (ih hvrest)

theorem scan_eq {text : Octets} {tokens : List Token} (h : scan text = some tokens) (hvalid : valid text) :
    scan (g text) = some (tokens.map (Token.map g)) :=
  scan_iff.mpr (hg.scanned (scan_iff.mp h) hvalid)

end KeepsMarks

end Webshot.Foundation.JsonLiterals
