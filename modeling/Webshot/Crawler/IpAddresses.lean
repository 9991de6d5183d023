import Webshot.Text.Bytes

/-! IP addresses, the ranges that are not public, and the IPv6 addresses that stand for an IPv4 address. -/
namespace Webshot.Crawler
open Text

abbrev Ip4 := Vector Byte 4

abbrev Ip6 := Vector Byte 16

inductive Ip where
  | v4 (addr : Ip4)
  | v6 (addr : Ip6)
  deriving DecidableEq

def inIpv4Range (ip network mask : BitVec 32) : Bool := ip &&& mask = network &&& mask

def ipv4HostOrder (ip : Ip4) : BitVec 32 :=
  (BitVec.ofNat 32 ip[0].val <<< 24) ||| (BitVec.ofNat 32 ip[1].val <<< 16) ||| (BitVec.ofNat 32 ip[2].val <<< 8) |||
    BitVec.ofNat 32 ip[3].val

/-- Network and mask of each range that `IsPublicRoutable` refuses, in its order. -/
def nonPublicIpv4Ranges : List (BitVec 32 × BitVec 32) :=
  [(0x00000000, 0xFF000000), (0x0A000000, 0xFF000000), (0x64400000, 0xFFC00000), (0x7F000000, 0xFF000000),
    (0xA9FE0000, 0xFFFF0000), (0xAC100000, 0xFFF00000), (0xC0A80000, 0xFFFF0000), (0xC6120000, 0xFFFE0000),
    (0xE0000000, 0xF0000000), (0xF0000000, 0xF0000000)]

def isPublicRoutable4 (addr : Ip4) : Bool :=
  nonPublicIpv4Ranges.all fun range => !inIpv4Range (ipv4HostOrder addr) range.1 range.2

def loopback6 : Ip6 := #v[0, 0, 0, 0, 0, 0, 0, 0, 0, 0, 0, 0, 0, 0, 0, 1]

def isPublicRoutable6 (addr : Ip6) : Bool :=
  if addr.toList.all (· = 0) then false
  else if addr = loopback6 then false
  else if addr[0].val &&& 0xFE = 0xFC then false
  else if addr[0] = 0xFE ∧ addr[1].val &&& 0xC0 = 0x80 then false
  else if addr.toList.take 10 = List.replicate 10 0 ∧ addr[10] = 0xFF ∧ addr[11] = 0xFF then false
  else if addr[0] = 0xFF then false
  else true

/-- `IsPublicRoutable`. -/
def Ip.isPublicRoutable : Ip → Bool
  | .v4 addr => isPublicRoutable4 addr
  | .v6 addr => isPublicRoutable6 addr

/-- The forms in which an IPv6 address stands for an IPv4 address; the last ten bytes of a 6to4 address are free. -/
inductive Embedding where
  | mapped
  | compatible
  | nat64
  | sixToFour (suffix : Vector Byte 10)

def Embedding.embed (a : Ip4) : Embedding → Ip6
  | .mapped => #v[0, 0, 0, 0, 0, 0, 0, 0, 0, 0, 0xFF, 0xFF, a[0], a[1], a[2], a[3]]
  | .compatible => #v[0, 0, 0, 0, 0, 0, 0, 0, 0, 0, 0, 0, a[0], a[1], a[2], a[3]]
  | .nat64 => #v[0, 0x64, 0xFF, 0x9B, 0, 0, 0, 0, 0, 0, 0, 0, a[0], a[1], a[2], a[3]]
  | .sixToFour s => #v[0x20, 0x02, a[0], a[1], a[2], a[3], s[0], s[1], s[2], s[3], s[4], s[5], s[6], s[7], s[8], s[9]]

/-- The embeddings that the table for IPv6 refuses. -/
def Embedding.Refused (a : Ip4) : Embedding → Prop
  | .mapped => True
  | .compatible => a = #v[0, 0, 0, 0] ∨ a = #v[0, 0, 0, 1]
  | .nat64 => False
  | .sixToFour _ => False

theorem ip4_eq_iff (a : Ip4) (w x y z : Byte) : a = #v[w, x, y, z] ↔ a[0] = w ∧ a[1] = x ∧ a[2] = y ∧ a[3] = z := by
  constructor
  · rintro rfl
    exact ⟨rfl, rfl, rfl, rfl⟩
  · rintro ⟨h0, h1, h2, h3⟩
    apply Vector.ext
    intro i hi
    have hcases : i = 0 ∨ i = 1 ∨ i = 2 ∨ i = 3 := by omega
    rcases hcases with rfl | rfl | rfl | rfl
    · exact h0
    · exact h1
    · exact h2
    · exact h3

theorem isPublicRoutable6_mapped (a : Ip4) : isPublicRoutable6 (Embedding.mapped.embed a) = false := by
  simp [isPublicRoutable6, Embedding.embed]

/-- Only the unspecified address and the loopback address are refused among the compatible ones. -/
theorem isPublicRoutable6_compatible (a : Ip4) :
    isPublicRoutable6 (Embedding.compatible.embed a) = false ↔ a = #v[0, 0, 0, 0] ∨ a = #v[0, 0, 0, 1] := by
  have hranges : isPublicRoutable6 (Embedding.compatible.embed a) = false ↔
      ((a[0] = 0 ∧ a[1] = 0 ∧ a[2] = 0 ∧ a[3] = 0) ∨ (a[0] = 0 ∧ a[1] = 0 ∧ a[2] = 0 ∧ a[3] = 1)) := by
    simp [isPublicRoutable6, Embedding.embed, loopback6]
    tauto
  rw [hranges, ip4_eq_iff, ip4_eq_iff]

theorem isPublicRoutable6_nat64 (a : Ip4) : isPublicRoutable6 (Embedding.nat64.embed a) = true := by
  simp [isPublicRoutable6, Embedding.embed, loopback6]

theorem isPublicRoutable6_sixToFour (a : Ip4) (suffix : Vector Byte 10) :
    isPublicRoutable6 ((Embedding.sixToFour suffix).embed a) = true := by
  simp [isPublicRoutable6, Embedding.embed, loopback6]

/-- An IPv6 address that stands for an IPv4 address is refused exactly if it is a mapped one, or one of two compatible
ones, whatever the table for IPv4 says of the address. -/
theorem isPublicRoutable6_embed_iff (a : Ip4) (form : Embedding) :
    isPublicRoutable6 (form.embed a) = false ↔ form.Refused a := by
  cases form with
  | mapped => exact ⟨fun _ => trivial, fun _ => isPublicRoutable6_mapped a⟩
  | compatible => exact isPublicRoutable6_compatible a
  | nat64 =>
    rw [isPublicRoutable6_nat64]
    exact ⟨fun h => (by cases h), fun h => h.elim⟩
  | sixToFour suffix =>
    rw [isPublicRoutable6_sixToFour]
    exact ⟨fun h => (by cases h), fun h => h.elim⟩

/-- 64:ff9b::10.0.0.1, ::10.0.0.1 and 2002:a00:1:: are public, but 10.0.0.1 is not. -/
theorem isPublicRoutable6_smuggled :
    isPublicRoutable4 #v[10, 0, 0, 1] = false ∧
      isPublicRoutable6 #v[0, 0x64, 0xFF, 0x9B, 0, 0, 0, 0, 0, 0, 0, 0, 10, 0, 0, 1] = true ∧
      isPublicRoutable6 #v[0, 0, 0, 0, 0, 0, 0, 0, 0, 0, 0, 0, 10, 0, 0, 1] = true ∧
      isPublicRoutable6 #v[0x20, 0x02, 10, 0, 0, 1, 0, 0, 0, 0, 0, 0, 0, 0, 0, 0] = true ∧
      ¬ ∀ (a : Ip4) (form : Embedding), isPublicRoutable4 a = false → isPublicRoutable6 (form.embed a) = false := by
  refine ⟨by decide, by decide, by decide, by decide, ?_⟩
  intro h
  exact absurd (h #v[10, 0, 0, 1] .nat64 (by decide)) (by decide)

end Webshot.Crawler
