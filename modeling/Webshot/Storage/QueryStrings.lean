import Webshot.Foundation.FirstCuts
import Webshot.Foundation.PercentEncoding
import Webshot.Foundation.Splitting
import Webshot.Text.Strings

/-! Query strings as the S3 client takes them apart, and which parts of the text each parameter is read from. -/
namespace Webshot.Storage
open Text Foundation Foundation.FirstCuts Foundation.Splitting

def ampersand : Byte := 38

def equals : Byte := 61

/-- What query decoding takes from libraries: ada's `percent_decode` is standard percent-decoding when it is told the
first percent sign. -/
structure QueryEnv where
  una : UniAlgo
  percentDecode : (input : Bytes) → (firstPercent : Option Nat) → Bytes
  percentDecode_standard : ∀ input, percentDecode input (input.idxOf? PercentEncoding.percent) = PercentEncoding.decode input

inductive QueryStringError where
  | invalidUtf8Key
  | invalidUtf8Value
  deriving DecidableEq

/-- `size_t` subtraction: below zero it wraps. -/
def subSize (a b : Nat) : Nat := if b ≤ a then a - b else 2 ^ 64 - (b - a)

theorem subSize_add (a b : Nat) : subSize (b + a) b = a := by
  rw [subSize, if_pos (Nat.le_add_right b a), Nat.add_sub_cancel_left]

/-- `std::string::find` of a character from a position on. -/
def findFrom (c : Byte) (text : Bytes) (pos : Nat) : Option Nat := ((text.drop pos).idxOf? c).map (pos + ·)

/-- The positions that a round of the loop finds; without an ampersand the round is the last. -/
structure QueryRound where
  pos : Nat
  amp : Option Nat
  eq : Nat

namespace QueryRound

def keyPart (search : Bytes) (round : QueryRound) : Bytes := (search.drop round.pos).take (round.eq - round.pos)

/-- The length that is handed to `substr`; `none` is `npos`. -/
def valueLength (round : QueryRound) : Option Nat := round.amp.map fun amp => subSize (subSize amp round.eq) 1

def valuePart (search : Bytes) (round : QueryRound) : Bytes :=
  round.valueLength.elim (search.drop (round.eq + 1)) (search.drop (round.eq + 1)).take

end QueryRound

/-- `none` ends the loop: no text is left, or no equals sign in it. -/
def nextRound (search : Bytes) (pos : Nat) : Option QueryRound :=
  if search.length ≤ pos then none
  else (findFrom equals search pos).map fun eq => ⟨pos, findFrom ampersand search pos, eq⟩

/-- The search without the question mark in front. -/
def withoutMark (search : Bytes) : Bytes := if search.head? = some questionMark then search.drop 1 else search

namespace QueryEnv
variable (env : QueryEnv)

def decodePart (part : Bytes) : Option Bytes :=
  fromBytes env.una (env.percentDecode part (part.idxOf? PercentEncoding.percent))

/-- The loop of `DecodeQueryString`; every round that goes on takes at least one byte. -/
def decodeLoop (search : Bytes) : Nat → Nat → Except QueryStringError (List (Bytes × Bytes))
  | 0, _ => .ok []
  | fuel + 1, pos =>
    match nextRound search pos with
    | none => .ok []
    | some round =>
      match env.decodePart (round.keyPart search) with
      | none => .error .invalidUtf8Key
      | some key =>
        match env.decodePart (round.valuePart search) with
        | none => .error .invalidUtf8Value
        | some value =>
          match round.amp with
          | none => .ok [(key, value)]
          | some amp => (decodeLoop search fuel (amp + 1)).map ((key, value) :: ·)

def decodeQueryString (search : Bytes) : Except QueryStringError (List (Bytes × Bytes)) :=
  if search.isEmpty then .ok []
  else env.decodeLoop (withoutMark search) (withoutMark search).length 0

end QueryEnv

/-- The rounds of the loop. -/
def queryRounds (search : Bytes) : Nat → Nat → List QueryRound
  | 0, _ => []
  | fuel + 1, pos =>
    match nextRound search pos with
    | none => []
    | some round => round :: round.amp.elim [] fun amp => queryRounds search fuel (amp + 1)

/-- The length of the value did not wrap. -/
def QueryRound.Unwrapped (round : QueryRound) : Prop := ∀ amp, round.amp = some amp → round.eq + 1 ≤ amp

/-- Begin and end of what a round decodes. -/
def QueryRound.spans (search : Bytes) (round : QueryRound) : List (Nat × Nat) :=
  [(round.pos, round.pos + (round.keyPart search).length),
    (round.eq + 1, round.eq + 1 + (round.valuePart search).length)]

/-- A pair decoded from two texts. -/
def DecodedFrom (una : UniAlgo) (key value : Bytes) (pair : Bytes × Bytes) : Prop :=
  fromBytes una (PercentEncoding.decode key) = some pair.1 ∧ fromBytes una (PercentEncoding.decode value) = some pair.2

/-- A pair decoded from a segment that is split at its first equals sign. -/
def SplitDecoded (una : UniAlgo) (segment : Bytes) (pair : Bytes × Bytes) : Prop :=
  ∃ key value, segment = key ++ equals :: value ∧ equals ∉ key ∧ DecodedFrom una key value pair

/-- Every parameter is reported once, from its own part of the search. -/
structure ReportsOnce (una : UniAlgo) (search : Bytes) (rounds : List QueryRound) (pairs : List (Bytes × Bytes)) : Prop where
  decoded : List.Forall₂ (fun round pair => DecodedFrom una (round.keyPart search) (round.valuePart search) pair) rounds pairs
  disjoint : (rounds.flatMap (QueryRound.spans search)).Pairwise fun a b => a.2 ≤ b.1
  unwrapped : ∀ round ∈ rounds, round.Unwrapped
  segments : (∀ segment ∈ search.splitOn ampersand, equals ∈ segment) →
    List.Forall₂ (SplitDecoded una) (search.splitOn ampersand) pairs

/-- No segment without an equals sign stands in front of one with it. -/
def BareSegmentsLast (search : Bytes) : Prop :=
  (search.splitOn ampersand).Pairwise fun earlier later => equals ∈ later → equals ∈ earlier

instance (search : Bytes) : Decidable (BareSegmentsLast search) :=
  inferInstanceAs (Decidable ((search.splitOn ampersand).Pairwise fun earlier later => equals ∈ later → equals ∈ earlier))

section Rounds
variable {search : Bytes} {pos : Nat} {round : QueryRound}

theorem nextRound_eq_none : nextRound search pos = none ↔ equals ∉ search.drop pos := by
  rw [nextRound]
  split
  · rename_i hend
    rw [List.drop_eq_nil_iff.mpr hend]
    exact ⟨fun _ => List.not_mem_nil, fun _ => rfl⟩
  · rw [Option.map_eq_none_iff, findFrom, Option.map_eq_none_iff, List.idxOf?_eq_none_iff]

theorem nextRound_spec (h : nextRound search pos = some round) : round.pos = pos ∧
    (∃ i, (search.drop pos).idxOf? equals = some i ∧ round.eq = pos + i) ∧
      round.amp = ((search.drop pos).idxOf? ampersand).map (pos + ·) := by
  rw [nextRound] at h
  split at h
  · cases h
  · obtain ⟨eq, heq, hround⟩ := Option.map_eq_some_iff.mp h
    obtain ⟨i, hi, rfl⟩ := Option.map_eq_some_iff.mp heq
    cases hround
    exact ⟨rfl, ⟨i, hi, rfl⟩, rfl⟩

/-- What is left at a round begins with a segment; behind it nothing is left, or an ampersand. -/
structure SegmentAt (search : Bytes) (pos : Nat) (round : QueryRound) (segment : Bytes) : Prop where
  amp_notMem : ampersand ∉ segment
  shape : (round.amp = none ∧ search.drop pos = segment) ∨
    ∃ rest, round.amp = some (pos + segment.length) ∧ search.drop pos = segment ++ ampersand :: rest ∧
      search.drop (pos + segment.length + 1) = rest

theorem nextRound_segment (h : nextRound search pos = some round) : ∃ segment, SegmentAt search pos round segment := by
  obtain ⟨_, _, hamp⟩ := nextRound_spec h
  cases hfound : (search.drop pos).idxOf? ampersand with
  | none =>
    rw [hfound, Option.map_none] at hamp
    exact ⟨search.drop pos, List.idxOf?_eq_none_iff.mp hfound, Or.inl ⟨hamp, rfl⟩⟩
  | some j =>
    rw [hfound, Option.map_some] at hamp
    obtain ⟨hnot, htext⟩ := eq_append_of_idxOf? hfound
    obtain ⟨hlt, _⟩ := List.idxOf?_eq_some_iff.mp hfound
    have hlength : ((search.drop pos).take j).length = j := List.length_take_of_le hlt.le
    refine ⟨(search.drop pos).take j, hnot, Or.inr ⟨(search.drop pos).drop (j + 1), ?_, htext, ?_⟩⟩
    · rw [hamp, hlength]
    · rw [hlength, List.drop_drop, Nat.add_assoc]

variable {segment : Bytes}

/-- With an equals sign in its segment, a round reads the two sides of the first one. -/
theorem SegmentAt.parts (hsegment : SegmentAt search pos round segment) (h : nextRound search pos = some round)
    (hmem : equals ∈ segment) : ∃ key value, segment = key ++ equals :: value ∧ equals ∉ key ∧
      round.pos = pos ∧ round.eq = pos + key.length ∧ round.keyPart search = key ∧ round.valuePart search = value := by
  obtain ⟨hpos, ⟨i, hi, heq⟩, _⟩ := nextRound_spec h
  obtain ⟨key, value, rfl, hkey⟩ := List.eq_append_cons_of_mem hmem
  obtain ⟨behind, htext, hamp⟩ : ∃ behind, search.drop pos = key ++ equals :: (value ++ behind) ∧
      (round.amp = none ∧ behind = [] ∨ round.amp = some (pos + (key ++ equals :: value).length)) := by
    rcases hsegment.shape with ⟨hamp, htext⟩ | ⟨rest, hamp, htext, _⟩
    · exact ⟨[], by rw [htext, List.append_nil], Or.inl ⟨hamp, rfl⟩⟩
    · exact ⟨ampersand :: rest, by rw [htext, List.append_assoc, List.cons_append], Or.inr hamp⟩
  rw [htext, idxOf?_append_cons hkey] at hi
  cases hi
  have hvalue : search.drop (round.eq + 1) = value ++ behind := by
    rw [heq, Nat.add_assoc, ← List.drop_drop, htext, drop_length_succ]
  refine ⟨key, value, rfl, hkey, hpos, heq, ?_, ?_⟩
  · rw [QueryRound.keyPart, hpos, heq, Nat.add_sub_cancel_left, htext, List.take_left]
  · rw [QueryRound.valuePart, QueryRound.valueLength, hvalue]
    rcases hamp with ⟨hamp, rfl⟩ | hamp
    · rw [hamp, Option.map_none, Option.elim_none, List.append_nil]
    · have hlength : subSize (subSize (pos + (key ++ equals :: value).length) round.eq) 1 = value.length := by
        rw [heq, List.length_append, List.length_cons, ← Nat.add_assoc, subSize_add, Nat.add_comm, subSize_add]
      rw [hamp, Option.map_some, hlength, Option.elim_some, List.take_left]

/-- The equals sign that is found is the segment's own exactly if the length of the value does not wrap. -/
theorem SegmentAt.unwrapped_iff (hsegment : SegmentAt search pos round segment) (h : nextRound search pos = some round) :
    round.Unwrapped ↔ equals ∈ segment := by
  obtain ⟨_, ⟨i, hi, heq⟩, _⟩ := nextRound_spec h
  rcases hsegment.shape with ⟨hamp, htext⟩ | ⟨rest, hamp, htext, _⟩
  · have hmem : equals ∈ segment := by
      rw [← htext]
      exact List.isSome_idxOf?.mp (by rw [hi]; rfl)
    refine ⟨fun _ => hmem, fun _ amp h => ?_⟩
    rw [hamp] at h
    cases h
  · rw [QueryRound.Unwrapped, hamp, heq]
    rw [htext] at hi
    constructor
    · intro hle
      have hlt : i < segment.length := by
        have := hle _ rfl
        omega
      obtain ⟨hbound, hget, _⟩ := List.idxOf?_eq_some_iff.mp hi
      rw [List.getElem_append_left hlt] at hget
      exact hget ▸ List.getElem_mem hlt
    · intro hmem amp h
      cases h
      obtain ⟨key, value, rfl, hkey⟩ := List.eq_append_cons_of_mem hmem
      rw [List.append_assoc, List.cons_append, idxOf?_append_cons hkey] at hi
      cases hi
      rw [List.length_append, List.length_cons]
      omega

/-- A letter of a list other than the separator is in one of its segments. -/
theorem exists_mem_splitOn {x y : Byte} {text : Bytes} (h : y ∈ text) (hne : y ≠ x) : ∃ part ∈ text.splitOn x, y ∈ part := by
  have hjoined : [x].intercalate (text.splitOn x) = text := List.intercalate_splitOn x
  rw [← hjoined] at h
  rcases mem_intercalate h with rfl | hpart
  · exact absurd rfl hne
  · exact hpart

theorem pairwise_of_notMem {text : Bytes} (h : equals ∉ text) : BareSegmentsLast text := by
  apply List.pairwise_of_forall_mem_list
  intro earlier _ later hlater hmem
  exact absurd ((mem_splitOn hlater).2 hmem) h

/-- A round with an ampersand, and the segments behind it. -/
theorem SegmentAt.bareSegmentsLast_iff {rest : Bytes} (hsegment : SegmentAt search pos round segment)
    (h : nextRound search pos = some round) (htext : search.drop pos = segment ++ ampersand :: rest) :
    BareSegmentsLast (search.drop pos) ↔ equals ∈ segment ∧ BareSegmentsLast rest := by
  have hsplit : (search.drop pos).splitOn ampersand = segment :: rest.splitOn ampersand := by
    rw [htext, List.splitOn_append_cons_self_of_not_mem hsegment.amp_notMem]
  rw [BareSegmentsLast, hsplit, List.pairwise_cons]
  constructor
  · rintro ⟨hfirst, hrest⟩
    refine ⟨?_, hrest⟩
    have hmem : equals ∈ search.drop pos := by
      by_contra hnot
      rw [nextRound_eq_none.mpr hnot] at h
      cases h
    rw [htext] at hmem
    rcases List.mem_append.mp hmem with hmem | hmem
    · exact hmem
    · have hbehind : equals ∈ rest := by
        rcases List.mem_cons.mp hmem with heq | hmem
        · exact absurd heq (by decide)
        · exact hmem
      obtain ⟨part, hpart, hin⟩ := exists_mem_splitOn (x := ampersand) hbehind (by decide)
      exact hfirst part hpart hin
  · rintro ⟨hfirst, hrest⟩
    exact ⟨fun _ _ _ => hfirst, hrest⟩

/-- The lengths of all values are right exactly if no bare segment stands in front of one with an equals sign. -/
theorem unwrapped_rounds_iff {fuel : Nat} (hfuel : (search.drop pos).length ≤ fuel) :
    (∀ round ∈ queryRounds search fuel pos, round.Unwrapped) ↔ BareSegmentsLast (search.drop pos) := by
  induction fuel generalizing pos with
  | zero =>
    rw [List.length_eq_zero_iff.mp (Nat.le_zero.mp hfuel)]
    exact ⟨fun _ => pairwise_of_notMem List.not_mem_nil, fun _ round h => absurd h List.not_mem_nil⟩
  | succ fuel ih =>
    rw [queryRounds]
    cases hround : nextRound search pos with
    | none =>
      exact ⟨fun _ => pairwise_of_notMem (nextRound_eq_none.mp hround), fun _ round h => absurd h List.not_mem_nil⟩
    | some round =>
      obtain ⟨segment, hsegment⟩ := nextRound_segment hround
      simp only [List.forall_mem_cons]
      rw [hsegment.unwrapped_iff hround]
      rcases hsegment.shape with ⟨hamp, htext⟩ | ⟨rest, hamp, htext, hdrop⟩
      · have hmem : equals ∈ segment := by
          rw [← htext]
          by_contra hnot
          rw [nextRound_eq_none.mpr hnot] at hround
          cases hround
        rw [hamp, Option.elim_none, htext, BareSegmentsLast, List.splitOn_eq_singleton hsegment.amp_notMem]
        exact ⟨fun _ => List.pairwise_singleton _ _, fun _ => ⟨hmem, fun _ h => absurd h List.not_mem_nil⟩⟩
      · have hrest : (search.drop (pos + segment.length + 1)).length ≤ fuel := by
          rw [hdrop]
          rw [htext, List.length_append, List.length_cons] at hfuel
          omega
        rw [hamp, Option.elim_some, hsegment.bareSegmentsLast_iff hround htext, ih hrest, hdrop]

/-- The parts that are read follow one another. -/
theorem disjoint_rounds {fuel : Nat} (h : ∀ round ∈ queryRounds search fuel pos, round.Unwrapped) :
    ((queryRounds search fuel pos).flatMap (QueryRound.spans search)).Pairwise (fun a b => a.2 ≤ b.1) ∧
      ∀ span ∈ (queryRounds search fuel pos).flatMap (QueryRound.spans search), pos ≤ span.1 := by
  induction fuel generalizing pos with
  | zero => exact ⟨List.Pairwise.nil, fun _ h => absurd h List.not_mem_nil⟩
  | succ fuel ih =>
    rw [queryRounds] at h ⊢
    cases hround : nextRound search pos with
    | none => exact ⟨List.Pairwise.nil, fun _ h => absurd h List.not_mem_nil⟩
    | some round =>
      rw [hround] at h
      simp only at h ⊢
      obtain ⟨segment, hsegment⟩ := nextRound_segment hround
      have hmem := (hsegment.unwrapped_iff hround).mp (h round List.mem_cons_self)
      obtain ⟨key, value, rfl, _, hpos, heq, hkey, hvalue⟩ := hsegment.parts hround hmem
      have hspans : round.spans search = [(pos, pos + key.length),
          (pos + key.length + 1, pos + key.length + 1 + value.length)] := by
        rw [QueryRound.spans, hkey, hvalue, hpos, heq]
      have hothers : ((round.amp.elim [] fun amp => queryRounds search fuel (amp + 1)).flatMap
            (QueryRound.spans search)).Pairwise (fun a b => a.2 ≤ b.1) ∧
          ∀ span ∈ (round.amp.elim [] fun amp => queryRounds search fuel (amp + 1)).flatMap (QueryRound.spans search),
            pos + key.length + 1 + value.length ≤ span.1 := by
        rcases hsegment.shape with ⟨hamp, _⟩ | ⟨rest, hamp, _⟩
        · rw [hamp]
          exact ⟨List.Pairwise.nil, fun _ h => absurd h List.not_mem_nil⟩
        · rw [hamp] at h ⊢
          obtain ⟨hpairwise, hlater⟩ := ih fun round hround => h round (List.mem_cons_of_mem _ hround)
          refine ⟨hpairwise, ?_⟩
          intro span hspan
          have hle := hlater span hspan
          rw [List.length_append, List.length_cons] at hle
          omega
      simp only [List.flatMap_cons, hspans, List.cons_append, List.nil_append, List.pairwise_cons, List.forall_mem_cons]
      refine ⟨⟨⟨by omega, ?_⟩, hothers.2, hothers.1⟩, le_rfl, by omega, ?_⟩
      · intro span hspan
        have hle := hothers.2 span hspan
        omega
      · intro span hspan
        have hle := hothers.2 span hspan
        omega

variable {env : QueryEnv} {pairs : List (Bytes × Bytes)}

theorem decodePart_eq (env : QueryEnv) (part : Bytes) :
    env.decodePart part = fromBytes env.una (PercentEncoding.decode part) := by
  rw [QueryEnv.decodePart, env.percentDecode_standard]

/-- What a successful loop has done in its first round. -/
theorem decodeLoop_succ {fuel : Nat} (hround : nextRound search pos = some round)
    (h : env.decodeLoop search (fuel + 1) pos = .ok pairs) : ∃ pair rest, pairs = pair :: rest ∧
      DecodedFrom env.una (round.keyPart search) (round.valuePart search) pair ∧
      (round.amp.elim (.ok []) fun amp => env.decodeLoop search fuel (amp + 1)) = .ok rest := by
  rw [QueryEnv.decodeLoop, hround] at h
  simp only at h
  split at h
  · cases h
  · rename_i key hkey
    split at h
    · cases h
    · rename_i value hvalue
      rw [decodePart_eq] at hkey hvalue
      cases hamp : round.amp with
      | none =>
        rw [hamp] at h
        cases h
        exact ⟨(key, value), [], rfl, ⟨hkey, hvalue⟩, rfl⟩
      | some amp =>
        rw [hamp] at h
        simp only [Option.elim_some] at h ⊢
        cases hrest : env.decodeLoop search fuel (amp + 1) with
        | error e =>
          rw [hrest] at h
          cases h
        | ok rest =>
          rw [hrest] at h
          cases h
          exact ⟨(key, value), rest, rfl, ⟨hkey, hvalue⟩, rfl⟩

/-- Each pair is decoded from the parts of its round. -/
theorem decoded_rounds {fuel : Nat} (h : env.decodeLoop search fuel pos = .ok pairs) :
    List.Forall₂ (fun round pair => DecodedFrom env.una (round.keyPart search) (round.valuePart search) pair)
      (queryRounds search fuel pos) pairs := by
  induction fuel generalizing pos pairs with
  | zero =>
    cases h
    exact .nil
  | succ fuel ih =>
    rw [queryRounds]
    cases hround : nextRound search pos with
    | none =>
      rw [QueryEnv.decodeLoop, hround] at h
      cases h
      exact .nil
    | some round =>
      obtain ⟨pair, rest, rfl, hpair, hrest⟩ := decodeLoop_succ hround h
      refine .cons hpair ?_
      cases hamp : round.amp with
      | none =>
        rw [hamp] at hrest
        cases hrest
        exact .nil
      | some amp =>
        rw [hamp] at hrest
        exact ih hrest

/-- With an equals sign in every segment, the pairs are the segments, each split at its first one. -/
theorem decoded_segments {fuel : Nat} (hfuel : (search.drop pos).length ≤ fuel)
    (h : env.decodeLoop search fuel pos = .ok pairs)
    (hall : ∀ segment ∈ (search.drop pos).splitOn ampersand, equals ∈ segment) :
    List.Forall₂ (SplitDecoded env.una) ((search.drop pos).splitOn ampersand) pairs := by
  induction fuel generalizing pos pairs with
  | zero =>
    rw [List.length_eq_zero_iff.mp (Nat.le_zero.mp hfuel)] at hall
    exact absurd (hall [] List.mem_cons_self) List.not_mem_nil
  | succ fuel ih =>
    cases hround : nextRound search pos with
    | none =>
      obtain ⟨segment, hsegment⟩ := List.exists_mem_of_ne_nil _ (List.splitOn_ne_nil ampersand (search.drop pos))
      exact absurd ((mem_splitOn hsegment).2 (hall segment hsegment)) (nextRound_eq_none.mp hround)
    | some round =>
      obtain ⟨segment, hsegment⟩ := nextRound_segment hround
      obtain ⟨pair, rest, rfl, hpair, hrest⟩ := decodeLoop_succ hround h
      have hfirst : equals ∈ segment → SplitDecoded env.una segment pair := by
        intro hmem
        obtain ⟨key, value, hcut, hnot, _, _, hkey, hvalue⟩ := hsegment.parts hround hmem
        rw [hkey, hvalue] at hpair
        exact ⟨key, value, hcut, hnot, hpair⟩
      rcases hsegment.shape with ⟨hamp, htext⟩ | ⟨behind, hamp, htext, hdrop⟩
      · rw [htext, List.splitOn_eq_singleton hsegment.amp_notMem] at hall ⊢
        rw [hamp] at hrest
        cases hrest
        exact .cons (hfirst (hall segment List.mem_cons_self)) .nil
      · rw [hamp, Option.elim_some] at hrest
        have hlength : (search.drop (pos + segment.length + 1)).length ≤ fuel := by
          rw [hdrop]
          rw [htext, List.length_append, List.length_cons] at hfuel
          omega
        rw [htext, List.splitOn_append_cons_self_of_not_mem hsegment.amp_notMem] at hall ⊢
        have hothers := ih hlength hrest
        rw [hdrop] at hothers
        refine .cons (hfirst (hall segment List.mem_cons_self)) (hothers ?_)
        exact fun other hother => hall other (List.mem_cons_of_mem segment hother)

theorem SplitDecoded.mem {una : UniAlgo} {pair : Bytes × Bytes} (h : SplitDecoded una segment pair) :
    equals ∈ segment := by
  obtain ⟨key, value, rfl, _⟩ := h
  exact List.mem_append_right key List.mem_cons_self

/-- Segments that can all be decoded are. -/
theorem decodeLoop_of_segments {fuel : Nat} (hfuel : (search.drop pos).length ≤ fuel)
    (h : List.Forall₂ (SplitDecoded env.una) ((search.drop pos).splitOn ampersand) pairs) :
    env.decodeLoop search fuel pos = .ok pairs := by
  induction fuel generalizing pos pairs with
  | zero =>
    rw [List.length_eq_zero_iff.mp (Nat.le_zero.mp hfuel), List.splitOn_nil] at h
    cases h with
    | cons hfirst _ => exact absurd hfirst.mem List.not_mem_nil
  | succ fuel ih =>
    have hequals : equals ∈ search.drop pos := by
      cases hsplit : (search.drop pos).splitOn ampersand with
      | nil => exact absurd hsplit (List.splitOn_ne_nil ampersand _)
      | cons segment segments =>
        rw [hsplit] at h
        cases h with
        | cons hfirst _ => exact (mem_splitOn (hsplit ▸ List.mem_cons_self)).2 hfirst.mem
    cases hround : nextRound search pos with
    | none => exact absurd hequals (nextRound_eq_none.mp hround)
    | some round =>
      obtain ⟨segment, hsegment⟩ := nextRound_segment hround
      have hfirst : ∀ pair, SplitDecoded env.una segment pair →
          env.decodePart (round.keyPart search) = some pair.1 ∧ env.decodePart (round.valuePart search) = some pair.2 := by
        intro pair hpair
        obtain ⟨key, value, hcut, hnot, _, _, hkey, hvalue⟩ := hsegment.parts hround hpair.mem
        obtain ⟨key', value', hcut', hnot', hdecoded⟩ := hpair
        obtain ⟨rfl, hrest⟩ := append_inj_of_notMem hnot hnot' (Or.inr rfl) (Or.inr rfl) (hcut.symm.trans hcut')
        cases hrest
        rw [hkey, hvalue, decodePart_eq, decodePart_eq]
        exact hdecoded
      rw [QueryEnv.decodeLoop, hround]
      rcases hsegment.shape with ⟨hamp, htext⟩ | ⟨behind, hamp, htext, hdrop⟩
      · rw [htext, List.splitOn_eq_singleton hsegment.amp_notMem] at h
        cases h with
        | cons hpair hnil =>
          cases hnil
          obtain ⟨hkey, hvalue⟩ := hfirst _ hpair
          simp only [hkey, hvalue, hamp]
      · rw [htext, List.splitOn_append_cons_self_of_not_mem hsegment.amp_notMem] at h
        cases h with
        | cons hpair hothers =>
          obtain ⟨hkey, hvalue⟩ := hfirst _ hpair
          have hlength : (search.drop (pos + segment.length + 1)).length ≤ fuel := by
            rw [hdrop]
            rw [htext, List.length_append, List.length_cons] at hfuel
            omega
          rw [← hdrop] at hothers
          simp only [hkey, hvalue, hamp, ih hlength hothers]
          rfl

end Rounds

/-- Whenever a query is decoded, it reports each parameter once exactly if no segment without an equals sign stands in
front of one with it. -/
theorem decodeQueryString_reportsOnce_iff {env : QueryEnv} {search : Bytes} {pairs : List (Bytes × Bytes)}
    (h : env.decodeQueryString search = .ok pairs) :
    ReportsOnce env.una (withoutMark search) (queryRounds (withoutMark search) (withoutMark search).length 0) pairs ↔
      BareSegmentsLast (withoutMark search) := by
  have hfuel : ((withoutMark search).drop 0).length ≤ (withoutMark search).length := le_rfl
  have hloop : env.decodeLoop (withoutMark search) (withoutMark search).length 0 = .ok pairs := by
    rw [QueryEnv.decodeQueryString] at h
    split at h
    · rename_i hempty
      rw [List.isEmpty_iff.mp hempty]
      exact h
    · exact h
  rw [← List.drop_zero (l := withoutMark search), ← unwrapped_rounds_iff hfuel, List.drop_zero]
  constructor
  · exact fun hreports => hreports.unwrapped
  · intro hunwrapped
    exact {
      decoded := decoded_rounds hloop
      disjoint := (disjoint_rounds hunwrapped).1
      unwrapped := hunwrapped
      segments := decoded_segments hfuel hloop }

/-- Percent-decoding over ASCII. -/
def asciiQueryEnv : QueryEnv where
  una := asciiUna
  percentDecode input _ := PercentEncoding.decode input
  percentDecode_standard _ := rfl

theorem decodeQueryString_reportsOnce_sample :
    ReportsOnce asciiUna (ascii "a=1&b") (queryRounds (ascii "a=1&b") 5 0) [(ascii "a", ascii "1")] := by
  have hdecoded : asciiQueryEnv.decodeQueryString (ascii "a=1&b") = .ok [(ascii "a", ascii "1")] := by decide +kernel
  exact (decodeQueryString_reportsOnce_iff hdecoded).mpr (by decide)

/-- Behind a bare segment the parameter is reported twice, the first time with that segment in its name. -/
theorem decodeQueryString_reportsTwice :
    asciiQueryEnv.decodeQueryString (ascii "x&f=b") = .ok [(ascii "x&f", ascii "b"), (ascii "f", ascii "b")] ∧
      (queryRounds (ascii "x&f=b") 5 0).map (QueryRound.spans (ascii "x&f=b")) = [[(0, 3), (4, 5)], [(2, 3), (4, 5)]] ∧
      (queryRounds (ascii "x&f=b") 5 0).map QueryRound.valueLength = [some (2 ^ 64 - 3), none] ∧
      ¬ ∀ (env : QueryEnv) (search : Bytes) (pairs : List (Bytes × Bytes)), env.decodeQueryString search = .ok pairs →
        ReportsOnce env.una (withoutMark search) (queryRounds (withoutMark search) (withoutMark search).length 0) pairs := by
  have hdecoded : asciiQueryEnv.decodeQueryString (ascii "x&f=b") =
      .ok [(ascii "x&f", ascii "b"), (ascii "f", ascii "b")] := by
    decide +kernel
  have hspans : (queryRounds (ascii "x&f=b") 5 0).map (QueryRound.spans (ascii "x&f=b")) =
      [[(0, 3), (4, 5)], [(2, 3), (4, 5)]] := by
    rfl
  refine ⟨hdecoded, hspans, rfl, ?_⟩
  intro hall
  have hdisjoint := (hall asciiQueryEnv _ _ hdecoded).disjoint
  have hmark : withoutMark (ascii "x&f=b") = ascii "x&f=b" := rfl
  have hlength : (ascii "x&f=b").length = 5 := rfl
  rw [hmark, hlength, List.flatMap_def, hspans] at hdisjoint
  exact absurd hdisjoint (by decide)

end Webshot.Storage
