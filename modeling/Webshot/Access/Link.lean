import Mathlib.Data.List.Basic
import Webshot.Text.Bytes

/-! Accepted links: the parsed URL after normalization, with what the URL parser and
`NormalizeUrl` guarantee about its components. -/
namespace Webshot.Access
open Text

/-- The components that survive `NormalizeUrl`: no credentials, port or fragment is left.
A parsed http(s) URL has an absolute pathname and ASCII components, and `HasValidDomain`
admits only hostnames whose labels have between 1 and 63 bytes. -/
structure Link where
  hostname : Bytes
  pathname : Bytes
  query : Option Bytes
  hostname_ascii : IsAscii hostname
  hostname_slash : slash ∉ hostname
  hostname_labels : ∀ l ∈ hostname.splitOn dot, 0 < l.length ∧ l.length ≤ 63
  pathname_ascii : IsAscii pathname
  pathname_absolute : pathname.head? = some slash
  query_ascii : ∀ q ∈ query, IsAscii q

theorem noQuery_ascii : ∀ q ∈ (none : Option Bytes), IsAscii q := fun _ hq => nomatch hq

section
/-! The host `a.b` of the small links and keys. -/

theorem smallHost_ascii : IsAscii (ascii "a.b") := .ofList rfl

theorem smallHost_slash : slash ∉ ascii "a.b" := by decide

theorem smallHost_labels : ∀ l ∈ (ascii "a.b").splitOn dot, 0 < l.length ∧ l.length ≤ 63 := by decide

end

namespace Link

/-- The serialized URL under the given scheme. -/
def href (link : Link) (scheme : Bytes) : Bytes :=
  scheme ++ ascii "://" ++ link.hostname ++ link.pathname ++ link.query.elim [] (ascii "?" ++ ·)

end Link

/-- `absl::ConsumeSuffix(&href, "/")`. -/
def consumeSlash (href : Bytes) : Bytes :=
  if href.getLast? = some slash then href.dropLast else href

def serializeHref (link : Link) (scheme : Bytes) : Bytes := consumeSlash (link.href scheme)

namespace Link

/-- The scheme-less key: the http form without its first seven bytes. -/
def toKey (una : UniAlgo) (link : Link) : Option Bytes :=
  fromBytes una ((serializeHref link (ascii "http")).drop (ascii "http://").length)

end Link

theorem consumeSlash_subset (href : Bytes) : consumeSlash href ⊆ href := by
  unfold consumeSlash
  split
  · exact List.dropLast_subset href
  · exact List.Subset.refl href

theorem Link.href_ascii (link : Link) {scheme : Bytes} (hs : IsAscii scheme) :
    IsAscii (link.href scheme) := by
  have hq : IsAscii (link.query.elim [] (ascii "?" ++ ·)) := by
    cases h : link.query with
    | none => exact fun x hx => absurd hx (List.not_mem_nil)
    | some q => exact IsAscii.append (.ofList rfl) (link.query_ascii q (by rw [h]; rfl))
  exact (((hs.append (.ofList rfl)).append link.hostname_ascii).append link.pathname_ascii).append hq

theorem Link.hostname_ne_nil (link : Link) : link.hostname ≠ [] := by
  intro h
  have hl := link.hostname_labels [] (by rw [h]; decide)
  exact absurd hl.1 (by decide)

/-- Every link has a key; it is a non-empty ASCII string. -/
theorem Link.toKey_spec (una : UniAlgo) (link : Link) :
    ∃ key, link.toKey una = some key ∧ key ≠ [] ∧ IsAscii key := by
  have hascii : IsAscii (serializeHref link (ascii "http")) :=
    (link.href_ascii (.ofList rfl)).of_subset (consumeSlash_subset _)
  have hkey : IsAscii ((serializeHref link (ascii "http")).drop (ascii "http://").length) :=
    hascii.of_subset (List.drop_subset _ _)
  refine ⟨_, fromBytes_ascii una hkey, ?_, hkey⟩
  have hhost := List.length_pos_iff.mpr link.hostname_ne_nil
  have hpath : 0 < link.pathname.length := by
    have := link.pathname_absolute
    cases h : link.pathname with
    | nil => rw [h] at this; cases this
    | cons _ _ => exact Nat.succ_pos _
  have hlen : (ascii "http://").length + 2 ≤ (link.href (ascii "http")).length := by
    simp only [Link.href, List.length_append]
    have h1 : (ascii "http://").length = 7 := by decide
    have h2 : (ascii "http").length = 4 := by decide
    have h3 : (ascii "://").length = 3 := by decide
    omega
  apply List.length_pos_iff.mp
  simp only [serializeHref, consumeSlash, List.length_drop]
  split
  · rw [List.length_dropLast]; omega
  · omega

/-- The keys that requests and stored rows carry. -/
structure LinkKey where
  bytes : Bytes
  ne_nil : bytes ≠ []
  ascii : IsAscii bytes

/-- The key of every accepted link is a `LinkKey`. -/
theorem Link.exists_linkKey (una : UniAlgo) (link : Link) : ∃ key : LinkKey, link.toKey una = some key.bytes := by
  obtain ⟨key, hkey, hne, hascii⟩ := link.toKey_spec una
  exact ⟨⟨key, hne, hascii⟩, hkey⟩

end Webshot.Access
