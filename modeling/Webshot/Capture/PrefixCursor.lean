import Webshot.Capture.Cursor

/-! The cursor of prefix listings and the byte range of a prefix. -/
namespace Webshot.Capture
open Text Storage Foundation.SignedWords

structure PrefixCursor where
  normalizedPrefix : Bytes
  link : Bytes
  direction : PageDirection
  createdAt : Option TimePoint
  id : Option Uuid
  deriving DecidableEq

inductive PaginationPrefixCursor.D where
  | next
  | previous
  deriving DecidableEq

/-- The DTO inside a token. -/
structure PaginationPrefixCursor where
  p : Bytes
  l : Bytes
  d : PaginationPrefixCursor.D
  t : Option Int
  i : Option Uuid
  deriving DecidableEq

def PaginationPrefixCursor.Plain (cur : PaginationPrefixCursor) : Prop := IsAscii cur.p ∧ IsAscii cur.l

def toDto : PageDirection → PaginationPrefixCursor.D
  | .next => .next
  | .previous => .previous

def fromDto : PaginationPrefixCursor.D → PageDirection
  | .next => .next
  | .previous => .previous

theorem fromDto_toDto (direction : PageDirection) : fromDto (toDto direction) = direction := by
  cases direction <;> rfl

abbrev PrefixCodec := TokenCodec PaginationPrefixCursor PaginationPrefixCursor.Plain

/-- Time and id are taken over only together. -/
def decodePrefixCursor (una : UniAlgo) (codec : PrefixCodec) (token : Bytes) : Option PrefixCursor := do
  let cur ← decodeToken una codec token
  let normalizedPrefix ← fromBytes una cur.p
  let link ← fromBytes una cur.l
  let direction := fromDto cur.d
  match cur.t, cur.i with
  | some t, some i => return ⟨normalizedPrefix, link, direction, some (microsToTimePoint t), some i⟩
  | _, _ => return ⟨normalizedPrefix, link, direction, none, none⟩

/-- The overload for a page that starts at an adjacent link. -/
def encodePrefixCursor (una : UniAlgo) (codec : PrefixCodec) (normalizedPrefix link : Bytes)
    (direction : PageDirection) : Option Bytes :=
  encodeToken una codec ⟨normalizedPrefix, link, toDto direction, none, none⟩

/-- The overload for a page that resumes within a link. -/
def encodePrefixCursorAt (una : UniAlgo) (codec : PrefixCodec) (normalizedPrefix link : Bytes)
    (createdAt : TimePoint) (id : Uuid) (direction : PageDirection) : Option Bytes :=
  encodeToken una codec ⟨normalizedPrefix, link, toDto direction, some (timePointToMicros createdAt), some id⟩

section RoundTrip
variable (una : UniAlgo) (codec : PrefixCodec) {normalizedPrefix link : Bytes}

theorem encodePrefixCursor_spec (hp : IsAscii normalizedPrefix) (hl : IsAscii link) (direction : PageDirection) :
    ∃ token, encodePrefixCursor una codec normalizedPrefix link direction = some token ∧ token ≠ [] ∧
      decodePrefixCursor una codec token = some ⟨normalizedPrefix, link, direction, none, none⟩ := by
  obtain ⟨token, henc, hne, hdec⟩ := encodeToken_spec una codec
    (show PaginationPrefixCursor.Plain ⟨normalizedPrefix, link, toDto direction, none, none⟩ from ⟨hp, hl⟩)
  refine ⟨token, henc, hne, ?_⟩
  simp only [decodePrefixCursor, hdec, fromBytes_ascii una hp, fromBytes_ascii una hl, fromDto_toDto,
    Option.bind_eq_bind, Option.bind_some, Option.pure_def]

theorem encodePrefixCursorAt_spec (hp : IsAscii normalizedPrefix) (hl : IsAscii link) {createdAt : TimePoint}
    (hfits : InInt64 createdAt) (ht : (1000 : Int) ∣ createdAt) (id : Uuid) (direction : PageDirection) :
    ∃ token, encodePrefixCursorAt una codec normalizedPrefix link createdAt id direction = some token ∧ token ≠ [] ∧
      decodePrefixCursor una codec token = some ⟨normalizedPrefix, link, direction, some createdAt, some id⟩ := by
  obtain ⟨token, henc, hne, hdec⟩ := encodeToken_spec una codec
    (show PaginationPrefixCursor.Plain
      ⟨normalizedPrefix, link, toDto direction, some (timePointToMicros createdAt), some id⟩ from ⟨hp, hl⟩)
  refine ⟨token, henc, hne, ?_⟩
  simp only [decodePrefixCursor, hdec, fromBytes_ascii una hp, fromBytes_ascii una hl, fromDto_toDto,
    microsToTimePoint_timePointToMicros hfits ht, Option.bind_eq_bind, Option.bind_some, Option.pure_def]

end RoundTrip

/-- The loop of `UpperExclusiveBound`, from the byte before `i` down. -/
def bumpLastByte (bytes : Bytes) : Nat → Bytes
  | 0 => bytes
  | i + 1 =>
    match bytes[i]? with
    | some c => if c.val < 255 then bytes.take i ++ [c + 1] else bumpLastByte bytes i
    | none => bytes

def upperExclusiveBound (s : Bytes) : Bytes := bumpLastByte s s.length

theorem upperExclusiveBound_concat (a : Bytes) {c : Byte} (hc : c.val < 255) :
    upperExclusiveBound (a ++ [c]) = a ++ [c + 1] := by
  rw [upperExclusiveBound, List.length_append, List.length_singleton, bumpLastByte]
  simp [hc]

/-- Bytewise, the strings from the prefix up to its bound are those that start with it. -/
theorem concat_range_iff (a : Bytes) {c : Byte} (hc : c.val < 255) (l : Bytes) :
    (a ++ [c] ≤ l ∧ l < a ++ [c + 1]) ↔ a ++ [c] <+: l := by
  have hsucc : (c + 1).val = c.val + 1 := Fin.val_add_one_of_lt' (by omega)
  induction a generalizing l with
  | nil =>
    cases l with
    | nil => simp
    | cons x xs =>
      simp only [List.nil_append, ← not_lt, List.cons_lt_cons_iff, List.not_lt_nil, and_false, or_false,
        List.cons_prefix_cons, List.nil_prefix, and_true, Fin.lt_def, hsucc]
      rw [← Fin.val_inj]
      constructor
      · rintro ⟨h1, h2⟩
        omega
      · intro h
        exact ⟨by omega, by omega⟩
  | cons x a ih =>
    cases l with
    | nil => simp
    | cons y l =>
      simp only [List.cons_append, ← not_lt, List.cons_lt_cons_iff, List.cons_prefix_cons, ← ih]
      constructor
      · rintro ⟨h1, h2⟩
        rw [not_or, not_and] at h1
        rcases h2 with h2 | ⟨rfl, h2⟩
        · exact absurd h2 h1.1
        · exact ⟨rfl, h1.2 rfl, h2⟩
      · rintro ⟨rfl, h1, h2⟩
        refine ⟨?_, Or.inr ⟨rfl, h2⟩⟩
        rintro (h | ⟨_, h⟩)
        · exact lt_irrefl _ h
        · exact h1 h

/-- The range handed to the link queries is that of the prefix. -/
theorem prefix_range_iff {s : Bytes} (hne : s ≠ []) (hs : ∀ x ∈ s, x.val < 255) (l : Bytes) :
    (s ≤ l ∧ l < upperExclusiveBound s) ↔ s <+: l := by
  rcases List.eq_nil_or_concat s with rfl | ⟨a, c, rfl⟩
  · exact absurd rfl hne
  · rw [List.concat_eq_append] at hs ⊢
    have hc : c.val < 255 := hs c (List.mem_append_right _ (List.mem_singleton_self c))
    rw [upperExclusiveBound_concat a hc]
    exact concat_range_iff a hc l

end Webshot.Capture
