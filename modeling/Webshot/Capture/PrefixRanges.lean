import Webshot.Capture.CaptureTable
import Webshot.Capture.PrefixCursor
import Webshot.Text.Utf8

/-! The byte ranges that the link queries are given for a prefix. -/
namespace Webshot.Capture
open Text

/-- No octet of a text is the last one, so that the bound of a prefix ends where its strings end. -/
theorem utf8_prefix_range_iff {s : Bytes} (hne : s ≠ []) (hs : Utf8 s) (l : Bytes) :
    (s ≤ l ∧ l < upperExclusiveBound s) ↔ s <+: l := by
  apply prefix_range_iff hne
  intro x hx
  have hle : x.val ≤ 0xF4 := hs.le x hx
  omega

/-- The range of a prefix holds the strings with that prefix and no others, and the queries of distinct links select
among the links with the prefix: the first ones, those behind a link, and those before it from the nearest on. -/
theorem prefix_range_exact {s : Bytes} (hne : s ≠ []) (hs : Utf8 s) :
    (∀ l, (s ≤ l ∧ l < upperExclusiveBound s) ↔ s <+: l) ∧
    ∀ table : CaptureTable, ∃ links : List Bytes, links.Pairwise (· < ·) ∧
      (∀ l, l ∈ links ↔ l ∈ table.distinctLinks ∧ s <+: l) ∧
      ∀ limit fromLink,
        table.repo.getDistinctLinksByPrefixFirst s (upperExclusiveBound s) limit = .ok (links.take limit) ∧
        table.repo.getDistinctLinksByPrefixNext s (upperExclusiveBound s) fromLink limit =
          .ok ((links.filter (fromLink < ·)).take limit) ∧
        table.repo.getDistinctLinksByPrefixPrev s (upperExclusiveBound s) fromLink limit =
          .ok ((links.filter (· < fromLink)).reverse.take limit) := by
  have hrange := utf8_prefix_range_iff hne hs
  refine ⟨hrange, fun table => ⟨table.linksIn s (upperExclusiveBound s), table.linksIn_strict _ _, ?_, ?_⟩⟩
  · intro l
    rw [CaptureTable.mem_linksIn, hrange]
  · intro limit fromLink
    exact ⟨CaptureTable.linksFirst_eq limit, CaptureTable.linksNext_filter_eq fromLink limit,
      CaptureTable.linksPrev_filter_eq fromLink limit⟩

/-- A prefix of one character of two octets, and a link with it. -/
theorem prefix_range_exact_sample :
    ([0xC3, 0xA9] : Bytes) ≤ [0xC3, 0xA9, 47] ∧ ([0xC3, 0xA9, 47] : Bytes) < upperExclusiveBound [0xC3, 0xA9] := by
  have htext : Utf8 [0xC3, 0xA9] := (validUtf8_iff _).mp (by decide)
  exact ((prefix_range_exact (List.cons_ne_nil _ _) htext).1 _).mpr (List.prefix_append [0xC3, 0xA9] [47])

end Webshot.Capture
