import Webshot.Crawler.LocationHeaders

/-! How the URL standard writes URLs, and what the canonical form of a text says of it. -/
namespace Webshot.Crawler
open Text

/-- The standard reads a query up to its end: there is no fragment, and nothing at the end is trimmed. -/
def queryWhole (location : Bytes) : Bool :=
  !location.contains 35 &&
    (location.filter fun b => b ≠ 9 && b ≠ 10 && b ≠ 13).getLast?.all fun b => 32 < b.val

def schemeText (url : Url) : Bytes := ascii (if url.isHttps then "https" else "http")

/-- The URL standard: how URLs are written. -/
structure UrlSpelling (env : CaptureEnv) extends UrlStandard env where
  /-- What a reference is resolved to, without the fragment. -/
  resolveHref : (base text : Bytes) → Option Bytes
  credentials : Url → Bytes
  /-- The fragment with its sign, if there is one. -/
  fragment : Url → Bytes
  /-- The URL without its fragment. -/
  plainHref : Url → Bytes
  href_eq : ∀ text url, env.urlFromText text = some url → url.href = plainHref url ++ fragment url
  fragment_sign : ∀ text url, env.urlFromText text = some url → fragment url = [] ∨ (fragment url).head? = some 35
  plain_sign : ∀ text url, env.urlFromText text = some url → 35 ∉ plainHref url
  /-- A serialization is parsed to what it was made of. -/
  reparse : ∀ text url, env.urlFromText text = some url → env.urlFromText url.href = some url
  plain_parsed : ∀ text url, env.urlFromText text = some url → ∃ plain, env.urlFromText (plainHref url) = some plain ∧
    plain.href = plainHref url ∧ target plain = target url ∧ fragment plain = [] ∧
      url.hrefWithoutPort = plain.hrefWithoutPort ++ fragment url
  without_port_rest : ∀ text url url', env.urlFromText text = some url → env.urlFromText url.hrefWithoutPort = some url' →
    credentials url' = credentials url ∧ fragment url' = fragment url
  href_ext : ∀ text url text' url', env.urlFromText text = some url → env.urlFromText text' = some url' →
    ((target url).isHttp || (target url).isHttps) = true → target url = target url' → credentials url = credentials url' →
      fragment url = fragment url' → url.href = url'.href
  text_ascii : ∀ text url, env.urlFromText text = some url →
    IsAscii url.pathWithSearch ∧ IsAscii url.hrefWithoutPort ∧ IsAscii url.origin
  /-- The serialized result of resolving. -/
  resolved : ∀ base text request, resolveHref base text = some request → (∃ page, env.urlFromText base = some page) ∧
    ∃ url, env.urlFromText request = some url ∧ url.href = request ∧ fragment url = [] ∧
      resolve base text = some (target url)
  /-- What begins like a reference is no URL. -/
  reference_parsed : ∀ text, isReference text = true → env.urlFromText text = none
  path_slashes : ∀ text url, env.urlFromText text = some url →
    startsWith url.pathWithSearch (ascii "//") = (target url).doubleSlash
  /-- Two slashes in front stand for the scheme of the page and two slashes. -/
  resolve_scheme : ∀ base page text, env.IsPage base page → startsWith text (ascii "//") = true →
    resolveHref base text = (env.urlFromText (schemeText page ++ ascii ":" ++ text)).map plainHref
  origin_scheme : ∀ base page text url, env.IsPage base page → text.head? = some 47 →
    env.urlFromText (page.origin ++ text) = some url → (target url).scheme = (target page).scheme
  /-- A path that is normal already is written behind the origin as it is. -/
  origin_path : ∀ base page text url, env.IsPage base page → env.urlFromText text = some url →
    (target url).scheme = (target page).scheme → (target url).doubleSlash = false →
    ∃ url', env.urlFromText (page.origin ++ url.pathWithSearch) = some url' ∧
      url'.href = page.origin ++ url.pathWithSearch ∧ fragment url' = [] ∧ credentials url' = [] ∧
      target url' = { target page with path := (target url).path, query := (target url).query.filter (· ≠ []) }
  /-- A query is put in the place of that of the page; the sign of a fragment is an octet of the query to
  `WithSearch`, and so is what the standard would trim. -/
  search_parsed : ∀ base page text request, env.IsPage base page → startsWith text (ascii "?") = true →
    resolveHref base text = some request → ∃ url, env.urlFromText (page.hrefWithSearch text) = some url ∧
      url.href = page.hrefWithSearch text ∧ fragment url = [] ∧
      (queryWhole text = true → request = page.hrefWithSearch text) ∧
      (queryWhole text = false → ∀ t, resolve base text = some t → t.query ≠ (target url).query)

namespace UrlSpelling
variable {env : CaptureEnv} (std : UrlSpelling env)

/-- A text that is the serialization of a URL without fragment. -/
def Serialized (text : Bytes) (url : Url) : Prop :=
  env.urlFromText text = some url ∧ url.href = text ∧ std.fragment url = []

/-- The location leads from the base where the URL leads, the ports of local test servers aside. -/
def Leads (base location : Bytes) (url : Url) : Prop :=
  ∃ text, std.resolveHref base location = some text ∧
    env.canonicalizeCapturedUrl text = env.canonicalizeCapturedUrl (std.plainHref url)

/-- A text is a URL without fragment and is written as the standard writes it, or is written anew because it is on the
port of a local test server. -/
def WrittenOut (text : Bytes) (url : Url) : Prop :=
  env.urlFromText text = some url ∧ std.fragment url = [] ∧ (url.href = text ∨ (std.target url).onFixturePort = true)

section Serialization
variable {text text' : Bytes} {url url' : Url}

theorem href_without_fragment (hurl : env.urlFromText text = some url) (hfragment : std.fragment url = []) :
    std.plainHref url = url.href := by
  rw [std.href_eq text url hurl, hfragment, List.append_nil]

theorem Serialized.no_sign (h : std.Serialized text url) : 35 ∉ text := by
  obtain ⟨hurl, htext, hfragment⟩ := h
  have hplain := std.plain_sign text url hurl
  rwa [std.href_without_fragment hurl hfragment, htext] at hplain

/-- A text with a fragment behind it is not one without. -/
theorem fragment_eq_nil (hurl : env.urlFromText text = some url) {front : Bytes} (h : 35 ∉ front ++ std.fragment url) :
    std.fragment url = [] := by
  refine (std.fragment_sign text url hurl).resolve_right fun hsign => ?_
  exact h (List.mem_append_right _ (List.mem_of_mem_head? hsign))

/-- The canonical form of a serialization is one too, and only the port is missing. -/
theorem Serialized.canonical (h : std.Serialized text url) :
    ∃ url', std.Serialized (env.canonicalizeCapturedUrl text) url' ∧
      std.target url' = (std.target url).withoutFixturePort ∧ std.credentials url' = std.credentials url := by
  obtain ⟨hurl, htext, hfragment⟩ := h
  rw [std.canonicalizeCapturedUrl_eq hurl, Target.withoutFixturePort]
  cases hport : (std.target url).onFixturePort with
  | false => exact ⟨url, ⟨hurl, htext, hfragment⟩, rfl, rfl⟩
  | true =>
    obtain ⟨url', hparsed, hhref, htarget⟩ := std.without_port text url (std.isPage_of_onFixturePort hurl hport)
    obtain ⟨hcredentials, hrest⟩ := std.without_port_rest text url url' hurl hparsed
    exact ⟨url', ⟨hparsed, hhref, hrest.trans hfragment⟩, htarget, hcredentials⟩

/-- Two serializations with the same canonical form are of the same target and have the same credentials. -/
theorem Serialized.same (h : std.Serialized text url) (h' : std.Serialized text' url')
    (heq : env.canonicalizeCapturedUrl text = env.canonicalizeCapturedUrl text') :
    SameTarget (some (std.target url)) (some (std.target url')) ∧ std.credentials url = std.credentials url' := by
  obtain ⟨c, hc, htarget, hcredentials⟩ := h.canonical
  obtain ⟨c', hc', htarget', hcredentials'⟩ := h'.canonical
  have hsame : c = c' := by
    have hparsed := hc.1
    rw [heq, hc'.1] at hparsed
    exact (Option.some.inj hparsed).symm
  rw [← hcredentials, ← hcredentials', hsame]
  refine ⟨?_, rfl⟩
  show some (std.target url).withoutFixturePort = some (std.target url').withoutFixturePort
  rw [← htarget, ← htarget', hsame]

/-- On pages that is all the canonical form tells. -/
theorem Serialized.same_iff (h : std.Serialized text url) (h' : std.Serialized text' url')
    (hpage : ((std.target url).isHttp || (std.target url).isHttps) = true) :
    env.canonicalizeCapturedUrl text = env.canonicalizeCapturedUrl text' ↔
      SameTarget (some (std.target url)) (some (std.target url')) ∧ std.credentials url = std.credentials url' := by
  refine ⟨h.same std h', fun ⟨hsame, hequal⟩ => ?_⟩
  obtain ⟨c, hc, htarget, hcredentials⟩ := h.canonical
  obtain ⟨c', hc', htarget', hcredentials'⟩ := h'.canonical
  have hscheme : ((std.target c).isHttp || (std.target c).isHttps) = true := by
    simp only [Target.isHttp, Target.isHttps, htarget, Target.withoutFixturePort_scheme] at hpage ⊢
    exact hpage
  have htargets : std.target c = std.target c' := by
    rw [htarget, htarget']
    exact Option.some.inj hsame
  have hhref := std.href_ext _ c _ c' hc.1 hc'.1 hscheme htargets (hcredentials.trans (hequal.trans hcredentials'.symm))
    (hc.2.2.trans hc'.2.2.symm)
  rwa [hc.2.1, hc'.2.1] at hhref

/-- A text has the canonical form of a serialization if it is written out and is of the same URL. -/
theorem canonical_eq_iff (hurl : env.urlFromText text = some url) (h' : std.Serialized text' url') :
    env.canonicalizeCapturedUrl text = env.canonicalizeCapturedUrl text' ↔
      std.WrittenOut text url ∧
        env.canonicalizeCapturedUrl (std.plainHref url) = env.canonicalizeCapturedUrl text' := by
  obtain ⟨plain, hplain, hhref, htarget, -, hport⟩ := std.plain_parsed text url hurl
  obtain ⟨c, hc, -, -⟩ := h'.canonical
  have hsign := hc.no_sign
  have hcanonical := std.canonicalizeCapturedUrl_eq hplain
  rw [htarget] at hcanonical
  rw [WrittenOut, hcanonical, std.canonicalizeCapturedUrl_eq hurl]
  cases hfixture : (std.target url).onFixturePort with
  | false =>
    simp only [Bool.false_eq_true, if_false, or_false, hurl, true_and]
    constructor
    · intro heq
      have hsame : url = c := by
        rw [heq, hc.1] at hurl
        exact (Option.some.inj hurl).symm
      have hself : url.href = text := by rw [hsame, hc.2.1, heq]
      have hfragment : std.fragment url = [] := by rw [hsame, hc.2.2]
      exact ⟨⟨hfragment, hself⟩, (std.href_without_fragment hurl hfragment).trans (hself.trans heq)⟩
    · rintro ⟨⟨hfragment, hself⟩, heq⟩
      rw [← heq, std.href_without_fragment hurl hfragment, hself]
  | true =>
    simp only [if_true, or_true, hurl, true_and, and_true, hport]
    constructor
    · intro heq
      have hfragment := std.fragment_eq_nil hurl (heq ▸ hsign)
      rw [hfragment, List.append_nil] at heq
      exact ⟨hfragment, heq⟩
    · rintro ⟨hfragment, heq⟩
      rw [hfragment, List.append_nil, heq]

/-- A text that is no URL is not the canonical form of one. -/
theorem canonical_eq_iff_exists (h' : std.Serialized text' url') :
    env.canonicalizeCapturedUrl text = env.canonicalizeCapturedUrl text' ↔
      ∃ url, std.WrittenOut text url ∧
        env.canonicalizeCapturedUrl (std.plainHref url) = env.canonicalizeCapturedUrl text' := by
  cases hurl : env.urlFromText text with
  | some url =>
    rw [std.canonical_eq_iff hurl h']
    constructor
    · exact fun h => ⟨url, h⟩
    · rintro ⟨other, hother, heq⟩
      cases hurl.symm.trans hother.1
      exact ⟨hother, heq⟩
  | none =>
    refine iff_of_false (fun heq => ?_) ?_
    · obtain ⟨c, hc, -, -⟩ := h'.canonical
      have htext : env.canonicalizeCapturedUrl text = text := by simp only [CaptureEnv.canonicalizeCapturedUrl, hurl]
      rw [← heq, htext] at hc
      cases hurl.symm.trans hc.1
    · rintro ⟨other, hother, -⟩
      cases hurl.symm.trans hother.1

end Serialization

section Resolved
variable {base resolved location text text' : Bytes} {page url url' : Url}
variable (hresolved : std.resolveHref base location = some resolved)

include hresolved in
theorem leads_iff : std.Leads base location url ↔
    env.canonicalizeCapturedUrl (std.plainHref url) = env.canonicalizeCapturedUrl resolved := by
  constructor
  · rintro ⟨text, htext, hleads⟩
    cases hresolved.symm.trans htext
    exact hleads.symm
  · exact fun heq => ⟨resolved, hresolved, heq.symm⟩

include hresolved in
theorem resolved_serialized :
    ∃ url, std.Serialized resolved url ∧ std.resolve base location = some (std.target url) := by
  obtain ⟨-, url, hurl, hhref, hfragment, htarget⟩ := std.resolved base location resolved hresolved
  exact ⟨url, ⟨hurl, hhref, hfragment⟩, htarget⟩

/-- What has the canonical form of a serialization leads where that does. -/
theorem joined_target (h' : std.Serialized text' url')
    (h : env.canonicalizeCapturedUrl text = env.canonicalizeCapturedUrl text') :
    ∃ url, env.urlFromText text = some url ∧ SameTarget (some (std.target url)) (some (std.target url')) := by
  obtain ⟨url, hwritten, heq⟩ := (std.canonical_eq_iff_exists h').mp h
  obtain ⟨plain, hplain, hhref, htarget, hfragment, -⟩ := std.plain_parsed text url hwritten.1
  have hsame := (Serialized.same std ⟨hplain, hhref, hfragment⟩ h' heq).1
  rw [htarget] at hsame
  exact ⟨url, hwritten.1, hsame⟩

theorem resolve_of_scheme (hpage : env.IsPage base page) (hdouble : startsWith text (ascii "//") = true)
    (hurl : env.urlFromText (schemeText page ++ ascii ":" ++ text) = some url) :
    std.resolve base text = some (std.target url) := by
  have hresolve := std.resolve_scheme base page text hpage hdouble
  rw [hurl, Option.map_some] at hresolve
  obtain ⟨plain, hplain, -, htarget, -, -⟩ := std.plain_parsed _ url hurl
  obtain ⟨-, url', hurl', -, -, htarget'⟩ := std.resolved base text _ hresolve
  cases hplain.symm.trans hurl'
  rw [htarget', htarget]

/-- A reference with slashes stays with the scheme of the page. -/
theorem joined_scheme (hpage : env.IsPage base page) (hhead : text.head? = some 47)
    (hurl : env.urlFromText
      (if startsWith text (ascii "//") then schemeText page ++ ascii ":" ++ text else page.origin ++ text) = some url) :
    (std.target url).scheme = (std.target page).scheme := by
  cases hdouble : startsWith text (ascii "//") with
  | false =>
    rw [hdouble, if_neg Bool.false_ne_true] at hurl
    exact std.origin_scheme base page text url hpage hhead hurl
  | true =>
    rw [hdouble, if_pos rfl] at hurl
    exact std.resolve_slash base page text _ hpage hhead (std.resolve_of_scheme hpage hdouble hurl)

end Resolved

end UrlSpelling

end Webshot.Crawler
