import Webshot.Crawler.RunArtifacts
import Webshot.Foundation.DigestLists

/-! What the content hash of a capture identifies. -/
namespace Webshot.Crawler
open Text Foundation.JsonText Foundation.DigestLists

/-- Final URL, status, content type and body. A header that is missing reads as empty, here and below. -/
def CapturedExchange.mainTuple (exchange : CapturedExchange) : Bytes × Int × Bytes × Bytes :=
  (exchange.finalUrl, exchange.statusCode, headerValue exchange.headers (ascii "content-type"), exchange.body)

/-- URL, status and location. -/
def CapturedMainDocumentRedirect.tuple (redirect : CapturedMainDocumentRedirect) : Bytes × Int × Bytes :=
  (redirect.redirectUrl, redirect.statusCode, headerValue redirect.headers (ascii "location"))

/-- URL, method, status, type, content type and body. -/
def CapturedResource.tuple (resource : CapturedResource) : Bytes × Bytes × Int × Bytes × Bytes × Bytes :=
  (resource.resourceUrl, if resource.method.isEmpty then ascii "GET" else resource.method, resource.statusCode,
    resource.resourceType.getD [], headerValue resource.headers (ascii "content-type"), resource.body)

/-- Two exchanges hold the same main document, and the same redirects and resources as often and in any order. -/
structure SameContent (a b : CapturedExchange) : Prop where
  main : a.mainTuple = b.mainTuple
  redirects : (a.mainDocumentRedirects.map (·.tuple)).Perm (b.mainDocumentRedirects.map (·.tuple))
  resources : (a.resources.map (·.tuple)).Perm (b.resources.map (·.tuple))

/-- What one digest of the list is made of. -/
inductive HashedItem where
  | main (tuple : Bytes × Int × Bytes × Bytes)
  | redirect (tuple : Bytes × Int × Bytes)
  | resource (tuple : Bytes × Bytes × Int × Bytes × Bytes × Bytes)

namespace HashedItem

def name : HashedItem → Bytes
  | main _ => ascii "main"
  | redirect _ => ascii "redirect"
  | resource _ => ascii "resource"

/-- The strings that are hashed on their own. -/
def fields : HashedItem → List Bytes
  | main (url, status, contentType, body) => [url, intText status, contentType, body]
  | redirect (url, status, location) => [url, intText status, location]
  | resource (url, method, status, type, contentType, body) => [url, method, intText status, type, contentType, body]

/-- The string that is hashed for the item. -/
def text (sha : Sha256) (item : HashedItem) : Bytes :=
  itemDomain ++ (item.name ++ (item.fields.map sha.hash).flatten)

def main? : HashedItem → Option (Bytes × Int × Bytes × Bytes)
  | main tuple => some tuple
  | _ => none

def redirect? : HashedItem → Option (Bytes × Int × Bytes)
  | redirect tuple => some tuple
  | _ => none

def resource? : HashedItem → Option (Bytes × Bytes × Int × Bytes × Bytes × Bytes)
  | resource tuple => some tuple
  | _ => none

instance : Nonempty HashedItem := ⟨main ([], 0, [], [])⟩

/-- The three kinds have four, three and six strings. -/
theorem eq_of_fields {a b : HashedItem} (h : a.fields = b.fields) : a = b := by
  cases a <;> cases b <;> simp only [fields, List.cons.injEq, intText_injective.eq_iff, reduceCtorEq, and_false,
    and_true] at h
  · grind
  · grind
  · grind

theorem digests_length (sha : Sha256) (item : HashedItem) :
    (item.fields.map sha.hash).flatten.length = 32 * item.fields.length := by
  have hwidths : item.fields.map (List.length ∘ sha.hash) = item.fields.map fun _ => 32 :=
    List.map_congr_left fun x _ => sha.hash_length x
  rw [List.length_flatten, List.map_map, hwidths, List.map_const', List.sum_replicate_nat, Nat.mul_comm]

/-- The digests have one width, so the text shows how long the name is and with it where the name ends. -/
theorem name_length_eq {sha : Sha256} {a b : HashedItem} (h : a.text sha = b.text sha) : a.name.length = b.name.length := by
  have hlen := congrArg List.length h
  rw [text, text, List.length_append, List.length_append, List.length_append, List.length_append, digests_length,
    digests_length] at hlen
  have hname : ∀ item : HashedItem, item.name.length = 4 ∨ item.name.length = 8 := by
    intro item
    cases item with
    | main => exact Or.inl rfl
    | redirect => exact Or.inr rfl
    | resource => exact Or.inr rfl
  rcases hname a with ha | ha <;> rcases hname b with hb | hb <;> omega

theorem eq_of_text {sha : Sha256} {a b : HashedItem} (hsha : Set.InjOn sha.hash {x | x ∈ a.fields ∨ x ∈ b.fields})
    (h : a.text sha = b.text sha) : a = b := by
  have hlen := name_length_eq h
  rw [text, text] at h
  obtain ⟨_, hflat⟩ := List.append_inj (List.append_cancel_left h) hlen
  have hwidth : ∀ item : HashedItem, ∀ digest ∈ item.fields.map sha.hash, digest.length = 32 := by
    intro item digest hdigest
    obtain ⟨x, _, rfl⟩ := List.mem_map.mp hdigest
    exact sha.hash_length x
  exact eq_of_fields (eq_of_map_eq hsha (eq_of_flatten_eq (by decide) (hwidth a) (hwidth b) hflat))

end HashedItem

def hashedItems (exchange : CapturedExchange) : List HashedItem :=
  .main exchange.mainTuple :: (exchange.mainDocumentRedirects.map (HashedItem.redirect ·.tuple) ++
    exchange.resources.map (HashedItem.resource ·.tuple))

namespace Sha256
variable (sha : Sha256)

def itemDigests (exchange : CapturedExchange) : List Bytes := (hashedItems exchange).map fun item => sha.hash (item.text sha)

/-- The string that is hashed last. -/
def combinedText (exchange : CapturedExchange) : Bytes :=
  captureDomain ++ ((sha.itemDigests exchange).mergeSort fun a b => a ≤ b).flatten

/-- The strings hashed for an exchange. -/
def hashedTexts (exchange : CapturedExchange) : List Bytes :=
  sha.combinedText exchange :: (hashedItems exchange).flatMap fun item => item.text sha :: item.fields

/-- No two of the strings hashed for the exchanges collide. -/
def NoCollision (a b : CapturedExchange) : Prop :=
  Set.InjOn sha.hash {x | x ∈ sha.hashedTexts a ∨ x ∈ sha.hashedTexts b}

theorem computeContentSha256_eq (exchange : CapturedExchange) :
    sha.computeContentSha256 exchange = sha.hash (sha.combinedText exchange) := by
  rw [computeContentSha256, combinedText, itemDigests, hashedItems, List.map_cons, List.map_append, List.map_map,
    List.map_map]
  rfl

theorem itemDigests_length {exchange : CapturedExchange} : ∀ digest ∈ sha.itemDigests exchange, digest.length = 32 := by
  intro digest hdigest
  obtain ⟨item, _, rfl⟩ := List.mem_map.mp hdigest
  exact sha.hash_length _

theorem combinedText_eq_iff {a b : CapturedExchange} :
    sha.combinedText a = sha.combinedText b ↔ (sha.itemDigests a).Perm (sha.itemDigests b) := by
  rw [combinedText, combinedText, List.append_cancel_left_eq]
  exact sorted_row_eq_iff (by decide) sha.itemDigests_length sha.itemDigests_length

end Sha256

section Collisions
variable {sha : Sha256} {a b : CapturedExchange}

theorem mem_hashedTexts {exchange : CapturedExchange} {item : HashedItem} (h : item ∈ hashedItems exchange) {x : Bytes}
    (hx : x = item.text sha ∨ x ∈ item.fields) : x ∈ sha.hashedTexts exchange :=
  List.mem_cons_of_mem _ (List.mem_flatMap.mpr ⟨item, h, List.mem_cons.mpr hx⟩)

/-- Without collisions a digest of the list tells what it was made of. -/
theorem Sha256.NoCollision.items (h : sha.NoCollision a b) :
    Set.InjOn (fun item => sha.hash (HashedItem.text sha item)) {x | x ∈ hashedItems a ∨ x ∈ hashedItems b} := by
  have hhashed : ∀ {item : HashedItem}, item ∈ hashedItems a ∨ item ∈ hashedItems b → ∀ {x : Bytes},
      (x = item.text sha ∨ x ∈ item.fields) → x ∈ sha.hashedTexts a ∨ x ∈ sha.hashedTexts b :=
    fun hitem _ hx => hitem.imp (mem_hashedTexts · hx) (mem_hashedTexts · hx)
  intro i hi j hj hdigest
  have htext : i.text sha = j.text sha := h (hhashed hi (Or.inl rfl)) (hhashed hj (Or.inl rfl)) hdigest
  apply HashedItem.eq_of_text ?_ htext
  intro x hx y hy hxy
  exact h (hx.elim (fun hx => hhashed hi (Or.inr hx)) fun hx => hhashed hj (Or.inr hx))
    (hy.elim (fun hy => hhashed hi (Or.inr hy)) fun hy => hhashed hj (Or.inr hy)) hxy

end Collisions

section Contents
variable {a b : CapturedExchange}

theorem filterMap_hashedItems (exchange : CapturedExchange) :
    (hashedItems exchange).filterMap HashedItem.main? = [exchange.mainTuple] ∧
    (hashedItems exchange).filterMap HashedItem.redirect? = exchange.mainDocumentRedirects.map (·.tuple) ∧
    (hashedItems exchange).filterMap HashedItem.resource? = exchange.resources.map (·.tuple) := by
  refine ⟨?_, ?_, ?_⟩
  · have hhead : HashedItem.main? (.main exchange.mainTuple) = some exchange.mainTuple := rfl
    rw [hashedItems, List.filterMap_cons_some hhead]
    simp [HashedItem.main?, List.filterMap_map, Function.comp_def]
  · rw [hashedItems, List.filterMap_cons_none rfl]
    simp [HashedItem.redirect?, List.filterMap_map, Function.comp_def]
  · rw [hashedItems, List.filterMap_cons_none rfl]
    simp [HashedItem.resource?, List.filterMap_map, Function.comp_def]

theorem hashedItems_perm_iff : (hashedItems a).Perm (hashedItems b) ↔ SameContent a b := by
  obtain ⟨hmain, hredirect, hresource⟩ := filterMap_hashedItems a
  obtain ⟨hmain', hredirect', hresource'⟩ := filterMap_hashedItems b
  constructor
  · intro h
    refine ⟨?_, ?_, ?_⟩
    · have hperm := h.filterMap HashedItem.main?
      rw [hmain, hmain', List.perm_singleton] at hperm
      exact List.singleton_inj.mp hperm
    · have hperm := h.filterMap HashedItem.redirect?
      rw [hredirect, hredirect'] at hperm
      exact hperm
    · have hperm := h.filterMap HashedItem.resource?
      rw [hresource, hresource'] at hperm
      exact hperm
  · intro h
    rw [hashedItems, hashedItems, h.main]
    have hredirects := h.redirects.map HashedItem.redirect
    have hresources := h.resources.map HashedItem.resource
    rw [List.map_map, List.map_map] at hredirects hresources
    exact (hredirects.append hresources).cons _

/-- The content does not depend on the order of redirects and resources, nor on what the tuples leave out. -/
theorem SameContent.computeContentSha256_eq (h : SameContent a b) (sha : Sha256) :
    sha.computeContentSha256 a = sha.computeContentSha256 b := by
  rw [sha.computeContentSha256_eq, sha.computeContentSha256_eq]
  exact congrArg sha.hash (sha.combinedText_eq_iff.mpr ((hashedItems_perm_iff.mpr h).map _))

end Contents

section Samples

/-- A document with two resources. -/
def sampleExchange (resources : List CapturedResource) (timestamp : Bytes) : CapturedExchange :=
  ⟨[], [], [], 0, [], ∅, [], timestamp, [], [], resources, none⟩

def sampleResource (body timestamp : Bytes) : CapturedResource := ⟨[], [], none, 0, [], ∅, body, timestamp⟩

def sampleCapture : CapturedExchange :=
  sampleExchange [sampleResource [] (ascii "1"), sampleResource (ascii "0") (ascii "2")] (ascii "1")

/-- The same content, captured again. -/
def sampleRecapture : CapturedExchange :=
  sampleExchange [sampleResource (ascii "0") (ascii "4"), sampleResource [] (ascii "5")] (ascii "3")

def emptyDigest : Bytes :=
  [227, 176, 196, 66, 152, 252, 28, 20, 154, 251, 244, 200, 153, 111, 185, 36, 39, 174, 65, 228, 100, 155, 147, 76,
  164, 149, 153, 27, 120, 82, 184, 85]

def zeroDigest : Bytes :=
  [95, 236, 235, 102, 255, 200, 111, 56, 217, 82, 120, 108, 109, 105, 108, 121, 194, 219, 194, 57, 221, 78, 145,
  180, 103, 41, 215, 58, 39, 251, 87, 233]

def getDigest : Bytes :=
  [20, 227, 12, 209, 99, 199, 50, 145, 46, 4, 140, 76, 131, 126, 21, 196, 233, 12, 6, 46, 187, 121, 90, 185, 71,
  213, 119, 6, 226, 209, 13, 216]

def mainItemDigest : Bytes :=
  [27, 254, 33, 70, 199, 210, 22, 145, 41, 192, 78, 215, 2, 190, 21, 204, 243, 217, 247, 36, 121, 244, 17, 172, 193,
  172, 16, 245, 229, 66, 120, 16]

def emptyItemDigest : Bytes :=
  [209, 102, 122, 47, 171, 253, 138, 29, 94, 152, 122, 246, 35, 124, 105, 119, 86, 8, 63, 167, 228, 163, 108, 162,
  44, 198, 191, 17, 60, 137, 99, 37]

def zeroItemDigest : Bytes :=
  [233, 254, 2, 21, 244, 196, 157, 203, 49, 167, 84, 218, 252, 138, 102, 123, 162, 17, 84, 49, 180, 106, 86, 173,
  224, 205, 10, 185, 163, 56, 152, 78]

def captureDigest : Bytes :=
  [128, 2, 199, 219, 16, 132, 82, 158, 189, 180, 70, 206, 181, 102, 208, 255, 248, 141, 234, 69, 238, 150, 117, 252,
  146, 19, 67, 71, 52, 19, 45, 235]

/-- The strings that are hashed for the two captures, with their digests. -/
def sampleDigests : List (Bytes × Bytes) :=
  [([], emptyDigest), (ascii "0", zeroDigest), (ascii "GET", getDigest),
    (itemDomain ++ (ascii "main" ++ (emptyDigest ++ (zeroDigest ++ (emptyDigest ++ emptyDigest)))), mainItemDigest),
    (itemDomain ++ (ascii "resource" ++ (emptyDigest ++ (getDigest ++ (zeroDigest ++ (emptyDigest ++
      (emptyDigest ++ emptyDigest)))))), emptyItemDigest),
    (itemDomain ++ (ascii "resource" ++ (emptyDigest ++ (getDigest ++ (zeroDigest ++ (emptyDigest ++
      (emptyDigest ++ zeroDigest)))))), zeroItemDigest),
    (captureDomain ++ (mainItemDigest ++ (emptyItemDigest ++ zeroItemDigest)), captureDigest)]

theorem sampleDigests_length : ∀ entry ∈ sampleDigests, entry.2.length = 32 := by decide

/-- SHA-256 on these strings. -/
def sampleSha : Sha256 where
  hash data := (sampleDigests.find? (·.1 = data)).elim (List.replicate 32 0) Prod.snd
  hash_length data := by
    cases h : sampleDigests.find? (·.1 = data) with
    | none => rfl
    | some entry => exact sampleDigests_length entry (List.mem_of_find?_eq_some h)

theorem sample_combinedText :
    sampleSha.combinedText sampleCapture = captureDomain ++ (mainItemDigest ++ (emptyItemDigest ++ zeroItemDigest)) ∧
    sampleSha.combinedText sampleRecapture = sampleSha.combinedText sampleCapture := by
  have hdigests : sampleSha.itemDigests sampleCapture = [mainItemDigest, emptyItemDigest, zeroItemDigest] := by
    decide +kernel
  have hdigests' : sampleSha.itemDigests sampleRecapture = [mainItemDigest, zeroItemDigest, emptyItemDigest] := by
    decide +kernel
  have hsorted : [mainItemDigest, emptyItemDigest, zeroItemDigest].Pairwise (· ≤ ·) := by decide
  constructor
  · rw [Sha256.combinedText, hdigests, List.mergeSort_eq_self (· ≤ ·) hsorted]
    rfl
  · rw [Sha256.combinedText_eq_iff, hdigests, hdigests']
    exact (List.Perm.swap _ _ _).cons _

theorem sampleSha_noCollision : sampleSha.NoCollision sampleCapture sampleRecapture := by
  obtain ⟨hcombined, hsame⟩ := sample_combinedText
  have hlast : captureDomain ++ (mainItemDigest ++ (emptyItemDigest ++ zeroItemDigest)) ∈ sampleDigests.map Prod.fst := by
    decide
  have hitems : ∀ item ∈ hashedItems sampleCapture ++ hashedItems sampleRecapture,
      ∀ x ∈ item.text sampleSha :: item.fields, x ∈ sampleDigests.map Prod.fst := by decide
  have hkeys : ∀ x, x ∈ sampleSha.hashedTexts sampleCapture ∨ x ∈ sampleSha.hashedTexts sampleRecapture →
      x ∈ sampleDigests.map Prod.fst := by
    rw [Sha256.hashedTexts, Sha256.hashedTexts, hsame, hcombined]
    intro x hx
    rw [List.mem_cons, List.mem_cons, ← or_or_distrib_left, List.mem_flatMap, List.mem_flatMap] at hx
    rcases hx with rfl | ⟨item, hitem, hx⟩ | ⟨item, hitem, hx⟩
    · exact hlast
    · exact hitems item (List.mem_append_left _ hitem) x hx
    · exact hitems item (List.mem_append_right _ hitem) x hx
  have hnodup : ((sampleDigests.map Prod.fst).map sampleSha.hash).Nodup := by decide +kernel
  intro x hx y hy hxy
  exact List.inj_on_of_nodup_map hnodup (hkeys x hx) (hkeys y hy) hxy

end Samples

end Webshot.Crawler
