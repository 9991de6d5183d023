import Webshot.Capture.CursorJson
import Webshot.Capture.LinkCursor

/-! Cursor tokens of clients: the numbers that fit the clock, whose time points count nanoseconds in an `int64_t`. -/
namespace Webshot.Capture
open Text Storage Foundation.SignedWords

/-- `MicrosToTimePoint` with an overflow of its `int64_t` product told apart, which the language leaves undefined
and the build makes wrap as in `microsToTimePoint`. -/
def microsToTimePoint64 (micros : Int) : Option TimePoint :=
  if InInt64 (micros * 1000) then some (microsToTimePoint micros) else none

/-- The numbers of microseconds that a time point can hold. -/
def ClockMicros (micros : Int) : Prop := -9223372036854775 ≤ micros ∧ micros ≤ 9223372036854775

instance (micros : Int) : Decidable (ClockMicros micros) := inferInstanceAs (Decidable (_ ∧ _))

theorem inInt64_mul_iff (micros : Int) : InInt64 (micros * 1000) ↔ ClockMicros micros := by
  rw [InInt64, ClockMicros]
  omega

theorem timePointToMicros_microsToTimePoint {micros : Int} (h : ClockMicros micros) :
    timePointToMicros (microsToTimePoint micros) = micros := by
  rw [microsToTimePoint, wrap64_eq ((inInt64_mul_iff micros).mpr h), timePointToMicros]
  exact Int.mul_tdiv_cancel micros (by decide)

theorem microsToTimePoint64_eq {micros : Int} (h : ClockMicros micros) :
    microsToTimePoint64 micros = some (microsToTimePoint micros) := if_pos ((inInt64_mul_iff micros).mpr h)

theorem microsToTimePoint64_overflow {micros : Int} (h : ¬ ClockMicros micros) : microsToTimePoint64 micros = none :=
  if_neg fun hfits => h ((inInt64_mul_iff micros).mp hfits)

/-- A time point of the clock in whole microseconds is converted back without an overflow. -/
theorem clockMicros_timePointToMicros {tp : TimePoint} (h : InInt64 tp) (hwhole : (1000 : Int) ∣ tp) :
    ClockMicros (timePointToMicros tp) := by
  have hback : timePointToMicros tp * 1000 = tp := Int.tdiv_mul_cancel hwhole
  rw [← inInt64_mul_iff, hback]
  exact h

/-- What decoding a token comes to. -/
inductive Decoding (Cursor : Type) where
  | malformed
  | overflow
  | decoded (cursor : Cursor)
  deriving DecidableEq

/-- `DecodeCursor`. -/
def decodeCursor64 (una : UniAlgo) (codec : LinkCodec) (token : Bytes) : Decoding Cursor :=
  match decodeToken una codec token with
  | none => .malformed
  | some cur =>
    match microsToTimePoint64 cur.t with
    | none => .overflow
    | some createdAt => .decoded ⟨createdAt, cur.i, PaginationCursor.fromDto cur.d⟩

/-- `DecodePrefixCursor`. -/
def decodePrefixCursor64 (una : UniAlgo) (codec : PrefixCodec) (token : Bytes) : Decoding PrefixCursor :=
  match decodeToken una codec token with
  | none => .malformed
  | some cur =>
    match fromBytes una cur.p, fromBytes una cur.l with
    | some normalizedPrefix, some link =>
      match cur.t, cur.i with
      | some t, some i =>
        match microsToTimePoint64 t with
        | none => .overflow
        | some createdAt => .decoded ⟨normalizedPrefix, link, fromDto cur.d, some createdAt, some i⟩
      | _, _ => .decoded ⟨normalizedPrefix, link, fromDto cur.d, none, none⟩
    | _, _ => .malformed

section Links
variable (una : UniAlgo) (codec : LinkCodec) {token : Bytes}

/-- What is decoded without an overflow is what the service decodes. -/
theorem decodeCursor_of_decoded {cursor : Cursor} (h : decodeCursor64 una codec token = .decoded cursor) :
    decodeCursor una codec token = some cursor := by
  rw [decodeCursor64] at h
  split at h
  · cases h
  · rename_i cur hcur
    rw [microsToTimePoint64] at h
    split at h
    · cases h
    · rename_i createdAt htime
      obtain ⟨-, hsome⟩ := Option.ite_none_right_eq_some.mp htime
      cases hsome
      cases h
      rw [decodeCursor, hcur, Option.bind_eq_bind, Option.bind_some]
      rfl

/-- A time of the clock is encoded and decoded without an overflow. -/
theorem encodeCursor_decoded {createdAt : TimePoint} (hfits : InInt64 createdAt) (hwhole : (1000 : Int) ∣ createdAt)
    (id : Uuid) (direction : PageDirection) :
    ∃ token, encodeCursor una codec createdAt id direction = some token ∧
      decodeCursor64 una codec token = .decoded ⟨createdAt, id, direction⟩ := by
  obtain ⟨token, henc, -, hdto⟩ := @encodeToken_spec _ _ una codec
    ⟨timePointToMicros createdAt, id, PaginationCursor.toDto direction⟩ trivial
  refine ⟨token, henc, ?_⟩
  simp only [decodeCursor64, hdto, microsToTimePoint64_eq (clockMicros_timePointToMicros hfits hwhole),
    microsToTimePoint_timePointToMicros hfits hwhole, PaginationCursor.fromDto_toDto]

/-- A number of the client's survives in the range of the clock, and overflows elsewhere. -/
theorem decodeCursor64_cases {cur : PaginationCursor} (h : decodeToken una codec token = some cur) :
    (ClockMicros cur.t ∧ ∃ cursor, decodeCursor64 una codec token = .decoded cursor ∧
        timePointToMicros cursor.createdAt = cur.t) ∨
      (¬ ClockMicros cur.t ∧ decodeCursor64 una codec token = .overflow) := by
  by_cases hrange : ClockMicros cur.t
  · refine .inl ⟨hrange, ⟨microsToTimePoint cur.t, cur.i, PaginationCursor.fromDto cur.d⟩, ?_,
      timePointToMicros_microsToTimePoint hrange⟩
    simp only [decodeCursor64, h, microsToTimePoint64_eq hrange]
  · refine .inr ⟨hrange, ?_⟩
    simp only [decodeCursor64, h, microsToTimePoint64_overflow hrange]

end Links

section Prefixes
variable (una : UniAlgo) (codec : PrefixCodec) {token : Bytes}

/-- The time of a DTO that is used. -/
def PaginationPrefixCursor.usedTime (cur : PaginationPrefixCursor) : Option Int :=
  match cur.t, cur.i with
  | some t, some _ => some t
  | _, _ => none

theorem decodePrefixCursor_of_decoded {cursor : PrefixCursor} (h : decodePrefixCursor64 una codec token = .decoded cursor) :
    decodePrefixCursor una codec token = some cursor := by
  simp only [decodePrefixCursor64] at h
  split at h
  · cases h
  · rename_i cur hcur
    split at h
    · rename_i normalizedPrefix link hp hl
      simp only [decodePrefixCursor, hcur, hp, hl, Option.bind_eq_bind, Option.bind_some]
      -- the time and the id are used only together
      cases ht : cur.t with
      | none =>
        simp only [ht] at h
        cases h
        rfl
      | some t =>
        cases hi : cur.i with
        | none =>
          simp only [ht, hi] at h
          cases h
          rfl
        | some i =>
          simp only [ht, hi] at h
          split at h
          · cases h
          · rename_i createdAt htime
            obtain ⟨-, hsome⟩ := Option.ite_none_right_eq_some.mp htime
            cases hsome
            cases h
            rfl
    · cases h

theorem encodePrefixCursor_decoded {normalizedPrefix link : Bytes} (hp : IsAscii normalizedPrefix) (hl : IsAscii link)
    (direction : PageDirection) :
    ∃ token, encodePrefixCursor una codec normalizedPrefix link direction = some token ∧
      decodePrefixCursor64 una codec token = .decoded ⟨normalizedPrefix, link, direction, none, none⟩ := by
  obtain ⟨token, henc, -, hdto⟩ := encodeToken_spec una codec
    (show PaginationPrefixCursor.Plain ⟨normalizedPrefix, link, toDto direction, none, none⟩ from ⟨hp, hl⟩)
  refine ⟨token, henc, ?_⟩
  simp only [decodePrefixCursor64, hdto, fromBytes_ascii una hp, fromBytes_ascii una hl, fromDto_toDto]

theorem encodePrefixCursorAt_decoded {normalizedPrefix link : Bytes} (hp : IsAscii normalizedPrefix) (hl : IsAscii link)
    {createdAt : TimePoint} (hfits : InInt64 createdAt) (hwhole : (1000 : Int) ∣ createdAt) (id : Uuid)
    (direction : PageDirection) :
    ∃ token, encodePrefixCursorAt una codec normalizedPrefix link createdAt id direction = some token ∧
      decodePrefixCursor64 una codec token =
        .decoded ⟨normalizedPrefix, link, direction, some createdAt, some id⟩ := by
  obtain ⟨token, henc, -, hdto⟩ := encodeToken_spec una codec (show PaginationPrefixCursor.Plain
    ⟨normalizedPrefix, link, toDto direction, some (timePointToMicros createdAt), some id⟩ from ⟨hp, hl⟩)
  refine ⟨token, henc, ?_⟩
  simp only [decodePrefixCursor64, hdto, fromBytes_ascii una hp, fromBytes_ascii una hl, fromDto_toDto,
    microsToTimePoint64_eq (clockMicros_timePointToMicros hfits hwhole),
    microsToTimePoint_timePointToMicros hfits hwhole]

theorem decodePrefixCursor64_cases {cur : PaginationPrefixCursor} (h : decodeToken una codec token = some cur)
    (htexts : decodePrefixCursor64 una codec token ≠ .malformed) :
    ((∀ t, cur.usedTime = some t → ClockMicros t) ∧ ∃ cursor, decodePrefixCursor64 una codec token = .decoded cursor ∧
        cursor.createdAt.map timePointToMicros = cur.usedTime) ∨
      (∃ t, cur.usedTime = some t ∧ ¬ ClockMicros t ∧ decodePrefixCursor64 una codec token = .overflow) := by
  simp only [decodePrefixCursor64, h] at htexts ⊢
  cases hp : fromBytes una cur.p with
  | none => simp only [hp, ne_eq, not_true_eq_false] at htexts
  | some normalizedPrefix =>
    cases hl : fromBytes una cur.l with
    | none => simp only [hp, hl, ne_eq, not_true_eq_false] at htexts
    | some link =>
      cases ht : cur.t with
      | none =>
        have hunused : cur.usedTime = none := by rw [PaginationPrefixCursor.usedTime, ht]
        rw [hunused]
        exact .inl ⟨fun _ h => (by cases h), _, rfl, rfl⟩
      | some t =>
        cases hi : cur.i with
        | none =>
          have hunused : cur.usedTime = none := by rw [PaginationPrefixCursor.usedTime, ht, hi]
          rw [hunused]
          exact .inl ⟨fun _ h => (by cases h), _, rfl, rfl⟩
        | some i =>
          have hused : cur.usedTime = some t := by rw [PaginationPrefixCursor.usedTime, ht, hi]
          rw [hused]
          by_cases hrange : ClockMicros t
          · refine .inl ⟨fun t' h => ?_, ?_⟩
            · cases h
              exact hrange
            · simp only [microsToTimePoint64_eq hrange]
              exact ⟨_, rfl, congrArg some (timePointToMicros_microsToTimePoint hrange)⟩
          · refine .inr ⟨t, rfl, hrange, ?_⟩
            simp only [microsToTimePoint64_overflow hrange]

end Prefixes

section Codec
variable (una : UniAlgo) (linkCodec : LinkCodec) (prefixCodec : PrefixCodec)

/-- Every field the service encodes is decoded; a token of a client is decoded with the number it was made with exactly
if a time point can hold that number, and the conversion overflows otherwise. -/
theorem cursor_codec_iff :
    (∀ createdAt id direction, InInt64 createdAt → (1000 : Int) ∣ createdAt → ∃ token,
      encodeCursor una linkCodec createdAt id direction = some token ∧
        decodeCursor64 una linkCodec token = .decoded ⟨createdAt, id, direction⟩) ∧
    (∀ normalizedPrefix link direction, IsAscii normalizedPrefix → IsAscii link →
      (∃ token, encodePrefixCursor una prefixCodec normalizedPrefix link direction = some token ∧
        decodePrefixCursor64 una prefixCodec token = .decoded ⟨normalizedPrefix, link, direction, none, none⟩) ∧
      ∀ createdAt id, InInt64 createdAt → (1000 : Int) ∣ createdAt → ∃ token,
        encodePrefixCursorAt una prefixCodec normalizedPrefix link createdAt id direction = some token ∧
          decodePrefixCursor64 una prefixCodec token =
            .decoded ⟨normalizedPrefix, link, direction, some createdAt, some id⟩) ∧
    (∀ token cur, decodeToken una linkCodec token = some cur →
      ((∃ cursor, decodeCursor64 una linkCodec token = .decoded cursor ∧ timePointToMicros cursor.createdAt = cur.t) ↔
        ClockMicros cur.t)) ∧
    ∀ token cur, decodeToken una prefixCodec token = some cur →
      decodePrefixCursor64 una prefixCodec token ≠ .malformed →
      ((∃ cursor, decodePrefixCursor64 una prefixCodec token = .decoded cursor ∧
          cursor.createdAt.map timePointToMicros = cur.usedTime) ↔ ∀ t, cur.usedTime = some t → ClockMicros t) := by
  refine ⟨?_, ?_, ?_, ?_⟩
  · intro createdAt id direction hfits hwhole
    exact encodeCursor_decoded una linkCodec hfits hwhole id direction
  · intro normalizedPrefix link direction hp hl
    constructor
    · exact encodePrefixCursor_decoded una prefixCodec hp hl direction
    · intro createdAt id hfits hwhole
      exact encodePrefixCursorAt_decoded una prefixCodec hp hl hfits hwhole id direction
  · intro token cur hcur
    rcases decodeCursor64_cases una linkCodec hcur with ⟨hrange, hdecoded⟩ | ⟨hrange, hoverflow⟩
    · exact iff_of_true hdecoded hrange
    · refine iff_of_false ?_ hrange
      rintro ⟨cursor, hdecoded, -⟩
      cases hoverflow.symm.trans hdecoded
  · intro token cur hcur htexts
    rcases decodePrefixCursor64_cases una prefixCodec hcur htexts with
      ⟨hrange, hdecoded⟩ | ⟨t, hused, hrange, hoverflow⟩
    · exact iff_of_true hdecoded hrange
    · refine iff_of_false ?_ fun hall => hrange (hall t hused)
      rintro ⟨cursor, hdecoded, -⟩
      cases hoverflow.symm.trans hdecoded

end Codec

theorem cursor_codec_sample :
    (∃ token, encodeCursor asciiUna LinkCursorJson.codec 1000 (smallUuid 1) .next = some token ∧
      decodeCursor64 asciiUna LinkCursorJson.codec token = .decoded ⟨1000, smallUuid 1, .next⟩ ∧
      ∃ cursor, decodeCursor64 asciiUna LinkCursorJson.codec token = .decoded cursor ∧
        timePointToMicros cursor.createdAt = 1) ∧
    (∃ token, encodePrefixCursor asciiUna CursorJson.codec (ascii "a") (ascii "a/b") .next = some token ∧
      decodePrefixCursor64 asciiUna CursorJson.codec token = .decoded ⟨ascii "a", ascii "a/b", .next, none, none⟩) ∧
    ∃ token, encodePrefixCursorAt asciiUna CursorJson.codec (ascii "a") (ascii "a/b") 1000 (smallUuid 1) .previous =
        some token ∧
      decodePrefixCursor64 asciiUna CursorJson.codec token =
        .decoded ⟨ascii "a", ascii "a/b", .previous, some 1000, some (smallUuid 1)⟩ ∧
      ∃ cursor, decodePrefixCursor64 asciiUna CursorJson.codec token = .decoded cursor ∧
        cursor.createdAt.map timePointToMicros = some 1 := by
  obtain ⟨hlink, hlist, hlinkRange, hlistRange⟩ := cursor_codec_iff asciiUna LinkCursorJson.codec CursorJson.codec
  have hfits : InInt64 1000 := by decide
  have hp : IsAscii (ascii "a") := .ofList rfl
  have hl : IsAscii (ascii "a/b") := .ofList rfl
  refine ⟨?_, (hlist (ascii "a") (ascii "a/b") .next hp hl).1, ?_⟩
  · obtain ⟨token, henc, hdec⟩ := hlink 1000 (smallUuid 1) .next hfits dvd_rfl
    obtain ⟨token', henc', -, hdto⟩ :=
      @encodeToken_spec _ _ asciiUna LinkCursorJson.codec ⟨1, smallUuid 1, .next⟩ trivial
    cases henc.symm.trans henc'
    exact ⟨token, henc, hdec, (hlinkRange token _ hdto).mpr (by decide)⟩
  · obtain ⟨token, henc, hdec⟩ := (hlist _ _ .previous hp hl).2 1000 (smallUuid 1) hfits dvd_rfl
    obtain ⟨token', henc', -, hdto⟩ := @encodeToken_spec _ _ asciiUna CursorJson.codec
      ⟨ascii "a", ascii "a/b", .previous, some 1, some (smallUuid 1)⟩ ⟨hp, hl⟩
    cases henc.symm.trans henc'
    have htexts : decodePrefixCursor64 asciiUna CursorJson.codec token ≠ .malformed := by
      rw [hdec]
      rintro ⟨⟩
    refine ⟨token, henc, hdec, (hlistRange token _ hdto htexts).mpr ?_⟩
    intro t ht
    cases ht
    decide

/-- The largest number the DTO can hold, as a client may send it. -/
def latestCursor : PaginationCursor := ⟨2 ^ 63 - 1, smallUuid 0, .next⟩

/-- Its token is well formed, and no time point can hold its number. -/
theorem client_cursor_overflows :
    InInt64 latestCursor.t ∧ ∃ token, encodeToken asciiUna LinkCursorJson.codec latestCursor = some token ∧
      decodeToken asciiUna LinkCursorJson.codec token = some latestCursor ∧
      decodeCursor64 asciiUna LinkCursorJson.codec token = .overflow := by
  obtain ⟨token, henc, -, hdec⟩ := @encodeToken_spec _ _ asciiUna LinkCursorJson.codec latestCursor trivial
  rcases decodeCursor64_cases asciiUna LinkCursorJson.codec hdec with ⟨hrange, -⟩ | ⟨-, hoverflow⟩
  · exact absurd hrange.2 (by decide)
  · exact ⟨by decide, token, henc, hdec, hoverflow⟩

end Webshot.Capture
