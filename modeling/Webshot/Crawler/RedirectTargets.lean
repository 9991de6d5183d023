import Webshot.Crawler.UrlSpelling
import Webshot.Text.Strings

/-! Targets of redirects: is the URL put together from a Location header the one the browser requests? -/
namespace Webshot.Crawler
open Text Foundation.KeyedMaps

/-- The Location header of a response, before it is rewritten. -/
def locationHeader (response : NetworkResponse) : Option Bytes :=
  (response.headers.elim ∅ CaptureEnv.normalizeHeaders).lookup (ascii "location")

/-- The URL of the request is taken as it is: there is nothing in the location, or it is a relative path, or the base is no
page and the location a reference. -/
def CaptureEnv.TakenOver (env : CaptureEnv) (page : Url) (location : Bytes) : Prop :=
  location = [] ∨ (isReference location = false ∧ env.urlFromText location = none) ∨
    (isReference location = true ∧ (page.isHttp || page.isHttps) = false)

section Slashes
variable {text : Bytes}

theorem slash_of_head (h : text.head? = some 47) : startsWith text (ascii "/") = true := by
  obtain ⟨rest, rfl⟩ := List.head?_eq_some_iff.mp h
  have hslash : ascii "/" = [47] := rfl
  rw [startsWith, hslash, List.isPrefixOf_iff_prefix]
  exact ⟨rest, rfl⟩

theorem slash_cons (h : startsWith text (ascii "/") = true) : ∃ rest, text = 47 :: rest := by
  obtain ⟨rest, hrest⟩ := List.isPrefixOf_iff_prefix.mp h
  have hslash : ascii "/" = [47] := rfl
  rw [hslash] at hrest
  exact ⟨rest, hrest.symm⟩

theorem slash_of_double (h : startsWith text (ascii "//") = true) : startsWith text (ascii "/") = true := by
  have hslashes : ascii "/" <+: ascii "//" := ⟨ascii "/", rfl⟩
  exact List.isPrefixOf_iff_prefix.mpr (hslashes.trans (List.isPrefixOf_iff_prefix.mp h))

theorem not_double_slash (h : startsWith text (ascii "/") = false) :
    startsWith text (ascii "//") = false := by
  by_contra hdouble
  rw [Bool.not_eq_false] at hdouble
  rw [slash_of_double hdouble] at h
  cases h

theorem not_slash_of_query (h : startsWith text (ascii "?") = true) :
    startsWith text (ascii "/") = false := by
  by_contra hslash
  rw [Bool.not_eq_false] at hslash
  obtain ⟨rest, rfl⟩ := slash_cons hslash
  cases h

end Slashes

section Forms
variable {env : CaptureEnv} {base request header : Bytes} {page url : Url} {response : NetworkResponse}

theorem recorded_header {value : Bytes} (h : locationHeader response = some value) :
    (env.normalizeHeadersForCapture response.headers base).lookup (ascii "location") =
      some (env.canonicalizeCapturedLocationHeader base value) := by
  rw [locationHeader] at h
  simp only [CaptureEnv.normalizeHeadersForCapture, h]
  rw [lookup_insert_eq, if_pos rfl]

section Recorded
variable (hrecorded : (env.normalizeHeadersForCapture response.headers base).lookup (ascii "location") = some header)
include hrecorded

theorem redirect_of_no_text (h : header = [] ∨ fromBytes env.una header = none) :
    env.resolveRedirectTargetUrl base request (some response) = some (env.canonicalizeCapturedUrl request) := by
  simp only [CaptureEnv.resolveRedirectTargetUrl, hrecorded]
  rcases h with hempty | hnone
  · rw [hempty]
    rfl
  · rw [hnone]
    split <;> rfl

theorem redirect_of_own (hne : header ≠ []) (htext : fromBytes env.una header = some header)
    (hurl : env.urlFromText header = some url) :
    env.resolveRedirectTargetUrl base request (some response) = some (env.canonicalizeCapturedUrl url.href) := by
  simp only [CaptureEnv.resolveRedirectTargetUrl, hrecorded, List.isEmpty_iff, if_neg hne, htext, hurl]

theorem redirect_of_no_page (hbase : env.urlFromText base = some page) (hpage : (page.isHttp || page.isHttps) = false)
    (htext : fromBytes env.una header = some header) (hurl : env.urlFromText header = none) :
    env.resolveRedirectTargetUrl base request (some response) = some (env.canonicalizeCapturedUrl request) := by
  have horigin : env.makeUrlOrigin base = none := by
    rw [CaptureEnv.makeUrlOrigin, hbase, Option.bind_some, hpage]
    rfl
  simp only [CaptureEnv.resolveRedirectTargetUrl, hrecorded, htext, hurl, horigin]
  exact ite_self _

/-- The forms of a reference. -/
theorem redirect_of_reference (hpage : env.IsPage base page) (hne : header ≠ [])
    (htext : fromBytes env.una header = some header) (hurl : env.urlFromText header = none) :
    env.resolveRedirectTargetUrl base request (some response) =
      if startsWith header (ascii "//") then
        (env.format (schemeText page ++ ascii ":" ++ header)).map env.canonicalizeCapturedUrl
      else if startsWith header (ascii "/") then (env.format (page.origin ++ header)).map env.canonicalizeCapturedUrl
      else if startsWith header (ascii "?") then some (env.canonicalizeCapturedUrl (page.hrefWithSearch header))
      else some (env.canonicalizeCapturedUrl request) := by
  have horigin : env.makeUrlOrigin base = some page.origin := by
    rw [CaptureEnv.makeUrlOrigin, hpage.1, Option.bind_some, hpage.2, if_pos rfl]
  simp only [CaptureEnv.resolveRedirectTargetUrl, hrecorded, List.isEmpty_iff, if_neg hne, htext, hurl, horigin, hpage.1]
  rfl

end Recorded
end Forms

namespace UrlSpelling
variable {env : CaptureEnv} (std : UrlSpelling env)

/-- The location is put together with the base: it is a URL of its own on another server, or the base is a page and the
location is no relative path. -/
def Rebuilt (page : Url) (location : Bytes) : Prop :=
  (∃ url, env.urlFromText location = some url ∧ ¬ (std.target url).withoutFixturePort.sameHost (std.target page)) ∨
    ((page.isHttp || page.isHttps) = true ∧
      ((∃ url, env.urlFromText location = some url) ∨ startsWith location (ascii "/") = true ∨
        startsWith location (ascii "?") = true))

/-- The condition on what is put together. A URL of its own on another server has no fragment and leads from the base
where it leads alone. One on the server of the base, of which only the path is recorded, leads there as it is
recorded, and without credentials. A reference with slashes, behind the scheme or the origin, is written as
the standard writes it and leads where the reference leads. A query has no fragment. -/
def RedirectKept (base : Bytes) (page : Url) (location : Bytes) : Prop :=
  (∀ url, env.urlFromText location = some url →
    if (std.target url).withoutFixturePort.sameHost (std.target page) then
      std.LocationKept base page location ∧
        ∃ text url', std.resolveHref base location = some text ∧ env.urlFromText text = some url' ∧ std.credentials url' = []
    else std.fragment url = [] ∧ std.Leads base location url) ∧
  (startsWith location (ascii "//") = true → ∃ url, std.WrittenOut (schemeText page ++ ascii ":" ++ location) url) ∧
  (startsWith location (ascii "/") = true → startsWith location (ascii "//") = false →
    ∃ url, std.WrittenOut (page.origin ++ location) url ∧ std.Leads base location url) ∧
  (startsWith location (ascii "?") = true → queryWhole location = true)

section Redirects
variable {base request resolved location : Bytes} {page url : Url} {response : NetworkResponse}
variable (hresolved : std.resolveHref base location = some resolved)

/-- Texts are put together without being changed. -/
theorem format_append (laws : TextLaws env.una) {front : Bytes} (hfront : IsAscii front) {x : Byte} {rest : Bytes}
    (hx : x.val < 128) (htext : fromBytes env.una (x :: rest) = some (x :: rest)) :
    env.format (front ++ x :: rest) = some (front ++ x :: rest) := by
  rw [CaptureEnv.format, laws.fromBytes_append (env.una.ascii_valid front hfront) (env.una.ascii_nfc front hfront) hx
    (valid_of_fromBytes htext), laws.nfc_text htext]

section Recorded
variable (laws : TextLaws env.una) {header : Bytes}
  (hrecorded : (env.normalizeHeadersForCapture response.headers base).lookup (ascii "location") = some header)
  (hpage : env.IsPage base page)
include std laws hrecorded hpage

/-- A reference with slashes is put behind the scheme or the origin. -/
theorem redirect_of_slashes (hslash : startsWith header (ascii "/") = true)
    (htext : fromBytes env.una header = some header) (hurl : env.urlFromText header = none) :
    env.resolveRedirectTargetUrl base request (some response) = some (env.canonicalizeCapturedUrl
      (if startsWith header (ascii "//") then schemeText page ++ ascii ":" ++ header else page.origin ++ header)) := by
  obtain ⟨rest, rfl⟩ := slash_cons hslash
  have hscheme : IsAscii (schemeText page ++ ascii ":") := by
    rw [schemeText]
    split <;> exact .append (.ofList rfl) (.ofList rfl)
  have horigin := (std.text_ascii base page hpage.1).2.2
  rw [redirect_of_reference hrecorded hpage (List.cons_ne_nil _ _) htext hurl, hslash,
    format_append laws hscheme (by decide) htext, format_append laws horigin (by decide) htext]
  split <;> rfl

end Recorded

section References
variable (laws : TextLaws env.una)
  (hrecorded : (env.normalizeHeadersForCapture response.headers base).lookup (ascii "location") = some location)
  (hpage : env.IsPage base page) (htext : fromBytes env.una location = some location)
  (hurl : env.urlFromText location = none)
include laws hresolved hrecorded hpage htext hurl

theorem slashes_iff (hslash : startsWith location (ascii "/") = true) :
    env.resolveRedirectTargetUrl base request (some response) = some (env.canonicalizeCapturedUrl resolved) ↔
      if startsWith location (ascii "//") then ∃ url, std.WrittenOut (schemeText page ++ ascii ":" ++ location) url
      else ∃ url, std.WrittenOut (page.origin ++ location) url ∧ std.Leads base location url := by
  obtain ⟨url, hserial, -⟩ := std.resolved_serialized hresolved
  rw [std.redirect_of_slashes laws hrecorded hpage hslash htext hurl, Option.some.injEq,
    std.canonical_eq_iff_exists hserial]
  cases hdouble : startsWith location (ascii "//") with
  | false => simp only [Bool.false_eq_true, if_false, std.leads_iff hresolved]
  | true =>
    simp only [if_true]
    refine exists_congr fun url => and_iff_left_of_imp fun hwritten => ?_
    -- The text with the scheme in front leads where the reference does.
    have hresolve := std.resolve_scheme base page location hpage hdouble
    rw [hwritten.1, Option.map_some, hresolved, Option.some.injEq] at hresolve
    rw [hresolve]

omit laws in
theorem query_iff (hquery : startsWith location (ascii "?") = true) :
    env.resolveRedirectTargetUrl base request (some response) = some (env.canonicalizeCapturedUrl resolved) ↔
      queryWhole location = true := by
  have hne : location ≠ [] := by
    rintro rfl
    cases hquery
  have hslash := not_slash_of_query hquery
  simp only [redirect_of_reference hrecorded hpage hne htext hurl, hslash, not_double_slash hslash, hquery,
    Bool.false_eq_true, if_false, if_true, Option.some.injEq]
  obtain ⟨found, hserial, htarget⟩ := std.resolved_serialized hresolved
  obtain ⟨url, hparsed, hhref, hfragment, hwhole, hcut⟩ :=
    std.search_parsed base page location resolved hpage hquery hresolved
  cases hqueryWhole : queryWhole location with
  | true =>
    rw [← hwhole hqueryWhole]
    exact iff_of_true rfl rfl
  | false =>
    refine iff_of_false (fun heq => ?_) Bool.false_ne_true
    have hsame := (Serialized.same std ⟨hparsed, hhref, hfragment⟩ hserial heq).1
    exact hcut hqueryWhole _ htarget hsame.parts.2.2.symm

end References

section Own
variable (laws : TextLaws env.una) {value : Bytes} (hheader : locationHeader response = some value)
  (hvalue : fromBytes env.una value = some location) (href : isReference location = false)
  (hurl : env.urlFromText location = some url)
include laws hheader hvalue href hurl

/-- A URL of its own on another server is recorded in its serialized form. -/
theorem redirect_of_other_server (hbase : env.urlFromText base = some page)
    (hother : ¬ (std.target url).withoutFixturePort.sameHost (std.target page)) :
    env.resolveRedirectTargetUrl base request (some response) = some (env.canonicalizeCapturedUrl url.href) := by
  obtain ⟨url', hparsed, -, hchanged⟩ := std.header_changed hbase href hurl hvalue
  rw [if_neg hother] at hchanged
  have hrecorded : (env.normalizeHeadersForCapture response.headers base).lookup (ascii "location") = some _ :=
    recorded_header hheader
  rw [hchanged] at hrecorded
  have hne : env.canonicalizeCapturedUrl location ≠ [] := by
    intro hempty
    rw [hempty, std.reference_parsed [] rfl] at hparsed
    cases hparsed
  have hreparsed := std.canonicalizeCapturedUrl_eq (std.reparse location url hurl)
  have hcanonical := std.canonicalizeCapturedUrl_eq hurl
  cases hport : (std.target url).onFixturePort with
  | false =>
    rw [hport, if_neg Bool.false_ne_true] at hcanonical
    rw [hcanonical] at hrecorded hne
    have htext := laws.fromBytes_text hvalue
    exact redirect_of_own hrecorded hne htext hurl
  | true =>
    rw [hport, if_pos rfl] at hcanonical hreparsed
    rw [hcanonical] at hrecorded hne
    obtain ⟨bare, hbare, hhref, htarget⟩ := std.without_port location url (std.isPage_of_onFixturePort hurl hport)
    have htext := fromBytes_ascii env.una (std.text_ascii location url hurl).2.1
    have hoff : (std.target bare).onFixturePort = false := by simp [htarget, Target.onFixturePort]
    rw [redirect_of_own hrecorded hne htext hbare, hhref, std.canonicalizeCapturedUrl_eq hbare, hoff, hreparsed]
    rfl

include hresolved in
theorem other_server_iff (hbase : env.urlFromText base = some page)
    (hother : ¬ (std.target url).withoutFixturePort.sameHost (std.target page)) :
    env.resolveRedirectTargetUrl base request (some response) = some (env.canonicalizeCapturedUrl resolved) ↔
      std.fragment url = [] ∧ std.Leads base location url := by
  obtain ⟨found, hserial, -⟩ := std.resolved_serialized hresolved
  have hreparse := std.reparse location url hurl
  rw [std.redirect_of_other_server laws hheader hvalue href hurl hbase hother, Option.some.injEq,
    std.canonical_eq_iff hreparse hserial, std.leads_iff hresolved]
  refine and_congr_left fun _ => ?_
  exact ⟨fun h => h.2.1, fun h => ⟨hreparse, h, Or.inl rfl⟩⟩

omit laws in
/-- Of a URL of its own on the server of the base only the path is recorded. -/
theorem recorded_path (hbase : env.urlFromText base = some page)
    (hsame : (std.target url).withoutFixturePort.sameHost (std.target page)) :
    ∃ text url', env.urlFromText text = some url' ∧ std.target url' = (std.target url).withoutFixturePort ∧
      env.canonicalizeCapturedLocationHeader base value = url'.pathWithSearch ∧
      (env.normalizeHeadersForCapture response.headers base).lookup (ascii "location") = some url'.pathWithSearch ∧
      fromBytes env.una url'.pathWithSearch = some url'.pathWithSearch ∧ url'.host = page.host := by
  obtain ⟨url', hparsed, htarget, hchanged⟩ := std.header_changed hbase href hurl hvalue
  rw [if_pos hsame] at hchanged
  have hrecorded : (env.normalizeHeadersForCapture response.headers base).lookup (ascii "location") = some _ :=
    recorded_header hheader
  rw [hchanged] at hrecorded
  refine ⟨_, url', hparsed, htarget, hchanged, hrecorded, ?_, ?_⟩
  · exact fromBytes_ascii env.una (std.text_ascii _ url' hparsed).1
  · refine (std.host_eq_iff _ _ _ _ hparsed hbase).mpr ?_
    rw [htarget]
    exact hsame.2

include hresolved in
theorem same_server_iff (hpage : env.IsPage base page)
    (hsame : (std.target url).withoutFixturePort.sameHost (std.target page)) :
    env.resolveRedirectTargetUrl base request (some response) = some (env.canonicalizeCapturedUrl resolved) ↔
      std.LocationKept base page location ∧
        ∃ text url', std.resolveHref base location = some text ∧ env.urlFromText text = some url' ∧
          std.credentials url' = [] := by
  obtain ⟨found, hserial, hleads⟩ := std.resolved_serialized hresolved
  have hplain : (∃ text url', std.resolveHref base location = some text ∧ env.urlFromText text = some url' ∧
      std.credentials url' = []) ↔ std.credentials found = [] := by
    constructor
    · rintro ⟨text, url', htext, hurl', hcredentials⟩
      cases hresolved.symm.trans htext
      cases hserial.1.symm.trans hurl'
      exact hcredentials
    · exact fun h => ⟨resolved, found, hresolved, hserial.1, h⟩
  obtain ⟨text, url', hparsed, htarget, hchanged, hrecorded, htext, hhost⟩ :=
    std.recorded_path hheader hvalue href hurl hpage.1 hsame
  have hhead := std.path_absolute base page text url' hpage hparsed hhost
  have hslash := slash_of_head hhead
  have hreference : env.urlFromText url'.pathWithSearch = none := std.reference_parsed _ (by simp [isReference, hslash])
  have hkept := std.header_kept_iff hpage hvalue
  rw [hchanged] at hkept
  rw [hplain, std.redirect_of_slashes laws hrecorded hpage hslash htext hreference, Option.some.injEq]
  have hparts : (std.target url').scheme = (std.target url).scheme ∧
      (std.target url').doubleSlash = (std.target url).doubleSlash := by
    rw [Target.doubleSlash, htarget, Target.withoutFixturePort_scheme, Target.withoutFixturePort_path]
    exact ⟨rfl, rfl⟩
  have hslashes := std.path_slashes text url' hparsed
  rw [hparts.2] at hslashes
  by_cases hscheme : (std.target url).scheme = (std.target page).scheme
  · cases hdouble : (std.target url).doubleSlash with
    | false =>
      -- The path is written behind the origin as it is, and leads where the recorded header does.
      rw [hslashes, hdouble, if_neg Bool.false_ne_true]
      obtain ⟨joined, hjoined, hhref, hfragment, hcredentials, hplace⟩ :=
        std.origin_path base page text url' hpage hparsed (hparts.1.trans hscheme) (hparts.2.trans hdouble)
      have hresolve := std.resolve_path base page text url' hpage hparsed (hparts.1.trans hscheme)
        (hparts.2.trans hdouble)
      rw [← hplace] at hresolve
      have hhttp : ((std.target joined).isHttp || (std.target joined).isHttps) = true := by
        have hboth := hpage.2
        rw [std.isHttp_eq base page hpage.1, std.isHttps_eq base page hpage.1] at hboth
        rw [hplace]
        exact hboth
      rw [Serialized.same_iff std ⟨hjoined, hhref, hfragment⟩ hserial hhttp, hcredentials, ← hkept, hresolve, hleads]
      exact and_congr_right' eq_comm
    | true =>
      -- The path becomes a host, and the recorded header leads there too.
      have hlost : ¬ std.LocationKept base page location := by
        intro h
        have hsingle := ((h href url hurl).2 hsame).2.1
        rw [hdouble] at hsingle
        cases hsingle
      rw [hdouble] at hslashes
      refine iff_of_false (fun heq => hlost ?_) (fun h => hlost h.1)
      rw [hslashes, if_pos rfl] at heq
      obtain ⟨joined, hjoined, hplace⟩ := std.joined_target hserial heq
      rw [← hkept, std.resolve_of_scheme hpage hslashes hjoined, hleads]
      exact hplace
  · refine iff_of_false (fun heq => hscheme ?_) (fun h => hscheme ((h.1 href url hurl).2 hsame).1)
    obtain ⟨joined, hjoined, hplace⟩ := std.joined_target hserial heq
    obtain ⟨t, ht, -, -, hown⟩ := std.resolve_own base page location url hpage hurl
    rw [hleads, Option.some.injEq, hown hscheme] at ht
    rw [ht] at hplace
    exact hplace.parts.1.symm.trans (std.joined_scheme hpage hhead hjoined)

end Own

section Locations
variable (laws : TextLaws env.una) {value : Bytes} (hheader : locationHeader response = some value)
  (hvalue : fromBytes env.una value = some location) (hbase : env.urlFromText base = some page)
include std laws hheader hvalue hbase

theorem redirect_of_takenOver (h : env.TakenOver page location) :
    env.resolveRedirectTargetUrl base request (some response) = some (env.canonicalizeCapturedUrl request) := by
  have htext := laws.fromBytes_text hvalue
  have hnone : env.urlFromText location = none := by
    rcases h with rfl | ⟨-, hnone⟩ | ⟨href, -⟩
    · exact std.reference_parsed [] rfl
    · exact hnone
    · exact std.reference_parsed location href
  have hrecorded : (env.normalizeHeadersForCapture response.headers base).lookup (ascii "location") = some _ :=
    recorded_header hheader
  rw [UrlStandard.header_unchanged hvalue (Or.inr hnone)] at hrecorded
  cases hhttp : (page.isHttp || page.isHttps) with
  | false => exact redirect_of_no_page hrecorded hbase hhttp htext hnone
  | true =>
    rcases h with hempty | ⟨href, -⟩ | ⟨-, hother⟩
    · exact redirect_of_no_text hrecorded (Or.inl hempty)
    · simp only [isReference, Bool.or_eq_false_iff, List.isEmpty_eq_false_iff] at href
      obtain ⟨⟨⟨hne, hslash⟩, hquery⟩, hdouble⟩ := href
      simp only [redirect_of_reference hrecorded ⟨hbase, hhttp⟩ hne htext hnone, hslash, hquery, hdouble,
        Bool.false_eq_true, if_false]
    · cases hhttp.symm.trans hother

include hresolved in
/-- What is put together is what the location resolves to exactly under the condition. -/
theorem redirect_of_rebuilt_iff (h : std.Rebuilt page location) :
    env.resolveRedirectTargetUrl base request (some response) = some (env.canonicalizeCapturedUrl resolved) ↔
      std.RedirectKept base page location := by
  cases hurl : env.urlFromText location with
  | some url =>
    have href : isReference location = false := by
      by_contra hreference
      rw [Bool.not_eq_false] at hreference
      cases hurl.symm.trans (std.reference_parsed location hreference)
    have hforms := href
    simp only [isReference, Bool.or_eq_false_iff] at hforms
    obtain ⟨⟨⟨-, hslash⟩, hquery⟩, hdouble⟩ := hforms
    simp only [RedirectKept, hurl, Option.some.injEq, forall_eq', hslash, hquery, hdouble, Bool.false_eq_true,
      false_imp_iff, and_true]
    by_cases hsame : (std.target url).withoutFixturePort.sameHost (std.target page)
    · have hhttp : (page.isHttp || page.isHttps) = true := by
        rcases h with ⟨other, hother, hserver⟩ | hhttp
        · cases hurl.symm.trans hother
          exact absurd hsame hserver
        · exact hhttp.1
      rw [if_pos hsame]
      exact std.same_server_iff hresolved laws hheader hvalue href hurl ⟨hbase, hhttp⟩ hsame
    · rw [if_neg hsame]
      exact std.other_server_iff hresolved laws hheader hvalue href hurl hbase hsame
  | none =>
    have htext := laws.fromBytes_text hvalue
    have hrecorded : (env.normalizeHeadersForCapture response.headers base).lookup (ascii "location") = some _ :=
      recorded_header hheader
    rw [UrlStandard.header_unchanged hvalue (Or.inr hurl)] at hrecorded
    simp only [Rebuilt, hurl, reduceCtorEq, false_and, exists_false, false_or] at h
    obtain ⟨hhttp, hform⟩ := h
    simp only [RedirectKept, hurl, reduceCtorEq, false_imp_iff, implies_true, true_and]
    cases hslash : startsWith location (ascii "/") with
    | true =>
      have hquery : startsWith location (ascii "?") = false := by
        by_contra hquery
        rw [Bool.not_eq_false] at hquery
        cases hslash.symm.trans (not_slash_of_query hquery)
      rw [std.slashes_iff hresolved laws hrecorded ⟨hbase, hhttp⟩ htext hurl hslash, hquery]
      cases startsWith location (ascii "//") with
      | false => simp only [Bool.false_eq_true, if_false, false_imp_iff, true_imp_iff, true_and, and_true]
      | true => simp only [Bool.false_eq_true, reduceCtorEq, if_true, false_imp_iff, true_imp_iff, implies_true, and_true]
    | false =>
      have hquery := hform.resolve_left (by rw [hslash]; exact Bool.false_ne_true)
      rw [std.query_iff hresolved hrecorded ⟨hbase, hhttp⟩ htext hurl hquery]
      simp only [not_double_slash hslash, hquery, Bool.false_eq_true, false_imp_iff, true_imp_iff, true_and]

end Locations

/-- The URL recorded for a redirect, for a browser that resolves the location to the URL it requests. It is the
canonical form of that URL if the location is not UTF-8 or is not looked at. Otherwise it is made of the normal
form of the location: if that leads to the URL of the request as well, then it is the canonical form exactly
under the condition, and under the condition it is the canonical form only if the normal form leads there. -/
theorem redirect_target_matches_iff (laws : TextLaws env.una) {value : Bytes}
    (hheader : locationHeader response = some value) (hrequest : std.resolveHref base value = some request) :
    (fromBytes env.una value = none →
      env.resolveRedirectTargetUrl base request (some response) = some (env.canonicalizeCapturedUrl request)) ∧
    ∃ page, env.urlFromText base = some page ∧ ∀ location, fromBytes env.una value = some location →
      (env.TakenOver page location →
        env.resolveRedirectTargetUrl base request (some response) = some (env.canonicalizeCapturedUrl request)) ∧
      (std.Rebuilt page location → ∀ resolved, std.resolveHref base location = some resolved →
        (env.canonicalizeCapturedUrl resolved = env.canonicalizeCapturedUrl request →
          (env.resolveRedirectTargetUrl base request (some response) = some (env.canonicalizeCapturedUrl request) ↔
            std.RedirectKept base page location)) ∧
        (std.RedirectKept base page location →
          (env.resolveRedirectTargetUrl base request (some response) = some (env.canonicalizeCapturedUrl request) ↔
            env.canonicalizeCapturedUrl resolved = env.canonicalizeCapturedUrl request))) := by
  refine ⟨fun hvalue => ?_, ?_⟩
  · have hrecorded : (env.normalizeHeadersForCapture response.headers base).lookup (ascii "location") = some _ :=
      recorded_header hheader
    have hchanged : env.canonicalizeCapturedLocationHeader base value = value := by
      rw [CaptureEnv.canonicalizeCapturedLocationHeader, hvalue]
    rw [hchanged] at hrecorded
    exact redirect_of_no_text hrecorded (Or.inr hvalue)
  · obtain ⟨⟨page, hbase⟩, -⟩ := std.resolved base value request hrequest
    refine ⟨page, hbase, fun location hvalue => ⟨fun h => ?_, fun h resolved hresolved => ?_⟩⟩
    · exact std.redirect_of_takenOver laws hheader hvalue hbase h
    · have hkept : env.resolveRedirectTargetUrl base request (some response) = _ ↔ _ :=
        std.redirect_of_rebuilt_iff hresolved laws hheader hvalue hbase h
      refine ⟨fun hnormal => ?_, fun hcondition => ?_⟩
      · rw [← hnormal]
        exact hkept
      · rw [hkept.mpr hcondition, Option.some.injEq]

end Redirects

end UrlSpelling

section Samples

/-- The pages of a server, with a fragment on one of them. -/
def spelledPages : List (Bytes × Bytes) := [(ascii "/", []), (ascii "/d", []), (ascii "/d", ascii "#f")]

def spelledText (p : Bytes × Bytes) : Bytes := ascii "https://h" ++ p.1 ++ p.2

def spelledUrl (p : Bytes × Bytes) : Url :=
  { servedUrl p.1 with href := spelledText p, hrefWithoutPort := spelledText p }

def spelledEnv : CaptureEnv where
  una := asciiUna
  urlFromText text := (spelledPages.find? fun p => text = spelledText p).map spelledUrl

def plainText (url : Url) : Bytes := url.origin ++ url.pathWithSearch

/-- References on that server: a URL, and a path with one slash or two in front. -/
def resolveSpelled (text : Bytes) : Option Bytes :=
  match spelledEnv.urlFromText text with
  | some url => some (plainText url)
  | none =>
    if startsWith text (ascii "//") then (spelledEnv.urlFromText (ascii "https" ++ ascii ":" ++ text)).map plainText
    else if startsWith text (ascii "/") then (spelledEnv.urlFromText (ascii "https://h" ++ text)).map plainText
    else none

theorem spelled_parsed {text : Bytes} {url : Url} (h : spelledEnv.urlFromText text = some url) :
    ∃ p ∈ spelledPages, text = spelledText p ∧ url = spelledUrl p := by
  obtain ⟨p, hp, rfl⟩ := Option.map_eq_some_iff.mp h
  have htext := List.find?_some hp
  exact ⟨p, List.mem_of_find?_eq_some hp, of_decide_eq_true htext, rfl⟩

theorem parse_spelled : ∀ p ∈ spelledPages, (spelledPages.find? fun q => spelledText p = spelledText q) = some p := by
  decide

theorem spelled_own {p : Bytes × Bytes} (hp : p ∈ spelledPages) :
    spelledEnv.urlFromText (spelledText p) = some (spelledUrl p) := by
  show Option.map _ _ = _
  rw [parse_spelled p hp]
  rfl

theorem spelled_plain : ∀ p ∈ spelledPages, (p.1, []) ∈ spelledPages := by decide

theorem spelled_reference : ∀ p ∈ spelledPages, isReference (spelledText p) = false := by decide

theorem spelled_path : ∀ p ∈ spelledPages, isReference p.1 = true ∧ startsWith p.1 (ascii "//") = false ∧
    startsWith p.1 (ascii "/") = true ∧ p.1.head? = some 47 := by decide

theorem parse_reference {text : Bytes} (h : isReference text = true) : spelledEnv.urlFromText text = none := by
  rw [Option.eq_none_iff_forall_ne_some]
  intro url hurl
  obtain ⟨p, hp, rfl, -⟩ := spelled_parsed hurl
  cases (spelled_reference p hp).symm.trans h

theorem plainText_spelled (p : Bytes × Bytes) : plainText (spelledUrl p) = spelledText (p.1, []) :=
  (List.append_nil _).symm

theorem resolveSpelled_own {p : Bytes × Bytes} (hp : p ∈ spelledPages) :
    resolveSpelled (spelledText p) = some (spelledText (p.1, [])) := by
  simp only [resolveSpelled, spelled_own hp, plainText_spelled]

theorem resolveSpelled_path {p : Bytes × Bytes} (hp : p ∈ spelledPages) :
    resolveSpelled p.1 = some (spelledText (p.1, [])) := by
  obtain ⟨href, hdouble, hslash, -⟩ := spelled_path p hp
  have hjoined : spelledEnv.urlFromText (ascii "https://h" ++ p.1) = some (spelledUrl (p.1, [])) := by
    rw [← spelled_own (spelled_plain p hp), spelledText, List.append_nil]
  simp only [resolveSpelled, parse_reference href, hdouble, hslash, Bool.false_eq_true, if_false, if_true, hjoined,
    Option.map_some, plainText_spelled]

theorem resolveSpelled_plain {text request : Bytes} (h : resolveSpelled text = some request) :
    ∃ p ∈ spelledPages, p.2 = [] ∧ request = spelledText p := by
  have hplain : ∀ (text : Bytes), ∀ found ∈ (spelledEnv.urlFromText text).map plainText,
      ∃ p ∈ spelledPages, p.2 = [] ∧ found = spelledText p := by
    intro text found hfound
    obtain ⟨url, hurl, rfl⟩ := Option.map_eq_some_iff.mp hfound
    obtain ⟨p, hp, -, rfl⟩ := spelled_parsed hurl
    exact ⟨(p.1, []), spelled_plain p hp, rfl, plainText_spelled p⟩
  cases hurl : spelledEnv.urlFromText text with
  | some url =>
    simp only [resolveSpelled, hurl] at h
    exact hplain text request (by rw [hurl]; exact h)
  | none =>
    simp only [resolveSpelled, hurl] at h
    split at h
    · exact hplain _ request h
    · split at h
      · exact hplain _ request h
      · cases h

def spelledTarget (url : Url) : Target := servedTarget url.hostname url.pathWithSearch

def leadsSpelled (text : Bytes) : Option Target := ((resolveSpelled text).bind spelledEnv.urlFromText).map spelledTarget

theorem leadsSpelled_of_resolved {text : Bytes} {p : Bytes × Bytes} (hp : p ∈ spelledPages)
    (h : resolveSpelled text = some (spelledText (p.1, []))) :
    leadsSpelled text = some (servedTarget (ascii "h") p.1) := by
  rw [leadsSpelled, h, Option.bind_some, spelled_own (spelled_plain p hp)]
  rfl

theorem leadsSpelled_scheme {text : Bytes} {t : Target} (h : leadsSpelled text = some t) : t.scheme = ascii "https" := by
  obtain ⟨url, -, rfl⟩ := Option.map_eq_some_iff.mp h
  rfl

theorem spelled_href (p : Bytes × Bytes) : spelledText p = plainText (spelledUrl p) ++ p.2 := rfl

theorem spelled_fragment (p : Bytes × Bytes) : (spelledUrl p).href.drop (plainText (spelledUrl p)).length = p.2 :=
  List.drop_left

theorem spelled_sign : ∀ p ∈ spelledPages, p.2 = [] ∨ p.2.head? = some 35 := by decide

theorem spelled_no_sign : ∀ p ∈ spelledPages, 35 ∉ spelledText (p.1, []) := by decide

theorem spelled_ascii : ∀ p ∈ spelledPages, IsAscii p.1 ∧ IsAscii (spelledText p) ∧ IsAscii (ascii "https://h") := by
  decide +kernel

def spelledStandard : UrlSpelling spelledEnv where
  target := spelledTarget
  resolve _ text := leadsSpelled text
  resolveHref base text := (spelledEnv.urlFromText base).bind fun _ => resolveSpelled text
  credentials _ := []
  fragment url := url.href.drop (plainText url).length
  plainHref := plainText
  isHttp_eq text url h := by
    obtain ⟨p, -, -, rfl⟩ := spelled_parsed h
    rfl
  isHttps_eq text url h := by
    obtain ⟨p, -, -, rfl⟩ := spelled_parsed h
    rfl
  hostname_eq _ _ _ := rfl
  hasPort_eq text url h := by
    obtain ⟨p, -, -, rfl⟩ := spelled_parsed h
    rfl
  port_eq text url h := by
    obtain ⟨p, -, -, rfl⟩ := spelled_parsed h
    rfl
  without_port text url h := by
    obtain ⟨p, hp, -, rfl⟩ := spelled_parsed h.1
    exact ⟨spelledUrl p, spelled_own hp, rfl, rfl⟩
  host_eq_iff text url text' url' h h' := by
    obtain ⟨p, -, -, rfl⟩ := spelled_parsed h
    obtain ⟨p', -, -, rfl⟩ := spelled_parsed h'
    exact iff_of_true rfl ⟨rfl, rfl⟩
  path_absolute base page text url _ h _ := by
    obtain ⟨p, hp, -, rfl⟩ := spelled_parsed h
    exact (spelled_path p hp).2.2.2
  resolve_without_port base page text url _ h := by
    obtain ⟨p, hp, -, rfl⟩ := spelled_parsed h.1
    exact leadsSpelled_of_resolved hp (resolveSpelled_own hp)
  resolve_own base page text url _ h := by
    obtain ⟨p, hp, rfl, rfl⟩ := spelled_parsed h
    exact ⟨_, leadsSpelled_of_resolved hp (resolveSpelled_own hp), rfl, fun _ => le_refl _, fun _ => rfl⟩
  resolve_slash base page text t _ _ ht := leadsSpelled_scheme ht
  resolve_path base page text url hpage h _ _ := by
    obtain ⟨p, hp, -, rfl⟩ := spelled_parsed h
    obtain ⟨p', -, -, rfl⟩ := spelled_parsed hpage.1
    exact leadsSpelled_of_resolved hp (resolveSpelled_path hp)
  resolve_double_slash base page text url t _ h _ hslash := by
    obtain ⟨p, hp, -, rfl⟩ := spelled_parsed h
    cases (spelled_path p hp).2.1.symm.trans hslash
  href_eq text url h := by
    obtain ⟨p, -, -, rfl⟩ := spelled_parsed h
    exact (spelled_href p).trans (congrArg _ (spelled_fragment p).symm)
  fragment_sign text url h := by
    obtain ⟨p, hp, -, rfl⟩ := spelled_parsed h
    rw [spelled_fragment]
    exact spelled_sign p hp
  plain_sign text url h := by
    obtain ⟨p, hp, -, rfl⟩ := spelled_parsed h
    rw [plainText_spelled]
    exact spelled_no_sign p hp
  reparse text url h := by
    obtain ⟨p, hp, -, rfl⟩ := spelled_parsed h
    exact spelled_own hp
  plain_parsed text url h := by
    obtain ⟨p, hp, -, rfl⟩ := spelled_parsed h
    refine ⟨spelledUrl (p.1, []), ?_, (plainText_spelled p).symm, rfl, spelled_fragment _, ?_⟩
    · rw [plainText_spelled]
      exact spelled_own (spelled_plain p hp)
    · rw [spelled_fragment]
      exact (spelled_href p).trans (congrArg (· ++ p.2) (plainText_spelled p))
  without_port_rest text url url' h h' := by
    obtain ⟨p, hp, -, rfl⟩ := spelled_parsed h
    cases (spelled_own hp).symm.trans h'
    exact ⟨rfl, rfl⟩
  href_ext text url text' url' h h' _ htarget _ hfragment := by
    obtain ⟨p, -, -, rfl⟩ := spelled_parsed h
    obtain ⟨p', -, -, rfl⟩ := spelled_parsed h'
    rw [spelled_fragment, spelled_fragment] at hfragment
    have hpath : p.1 = p'.1 := congrArg Target.path htarget
    exact congrArg spelledText (Prod.ext hpath hfragment)
  text_ascii text url h := by
    obtain ⟨p, hp, -, rfl⟩ := spelled_parsed h
    exact spelled_ascii p hp
  resolved base text request h := by
    obtain ⟨page, hbase, h⟩ := Option.bind_eq_some_iff.mp h
    obtain ⟨p, hp, hplain, rfl⟩ := resolveSpelled_plain h
    have hleads : leadsSpelled text = some (spelledTarget (spelledUrl p)) := by
      rw [leadsSpelled, h, Option.bind_some, spelled_own hp, Option.map_some]
    exact ⟨⟨page, hbase⟩, spelledUrl p, spelled_own hp, rfl, (spelled_fragment p).trans hplain, hleads⟩
  reference_parsed text h := parse_reference h
  path_slashes text url h := rfl
  resolve_scheme base page text hpage hdouble := by
    obtain ⟨p, -, -, rfl⟩ := spelled_parsed hpage.1
    have href : isReference text = true := by simp [isReference, hdouble]
    simp only [hpage.1, Option.bind_some, resolveSpelled, parse_reference href, hdouble, if_true]
    rfl
  origin_scheme base page text url hpage _ h := by
    obtain ⟨p, -, -, rfl⟩ := spelled_parsed h
    obtain ⟨p', -, -, rfl⟩ := spelled_parsed hpage.1
    rfl
  origin_path base page text url hpage h _ _ := by
    obtain ⟨p, hp, -, rfl⟩ := spelled_parsed h
    obtain ⟨p', -, -, rfl⟩ := spelled_parsed hpage.1
    refine ⟨spelledUrl (p.1, []), ?_, (plainText_spelled p).symm, spelled_fragment _, rfl, rfl⟩
    exact (congrArg spelledEnv.urlFromText (plainText_spelled p)).trans (spelled_own (spelled_plain p hp))
  search_parsed base page text request _ hquery h := by
    have href : isReference text = true := by simp [isReference, hquery]
    have hslash := not_slash_of_query hquery
    obtain ⟨-, -, h⟩ := Option.bind_eq_some_iff.mp h
    simp [resolveSpelled, parse_reference href, hslash, not_double_slash hslash] at h

def redirectTo (location : Bytes) : NetworkResponse := ⟨some 302, none, some [(ascii "Location", location)]⟩

theorem redirect_target_matches_sample :
    spelledEnv.resolveRedirectTargetUrl servedBase (ascii "https://h/d") (some (redirectTo (ascii "/d"))) =
      some (spelledEnv.canonicalizeCapturedUrl (ascii "https://h/d")) := by
  have hheader : locationHeader (redirectTo (ascii "/d")) = some (ascii "/d") := rfl
  have hrequest : spelledStandard.resolveHref servedBase (ascii "/d") = some (ascii "https://h/d") := rfl
  have hvalue : fromBytes spelledEnv.una (ascii "/d") = some (ascii "/d") := fromBytes_ascii _ (.ofList rfl)
  have hbase : spelledEnv.urlFromText servedBase = some (spelledUrl (ascii "/", [])) := rfl
  obtain ⟨-, page, hpage, hmatches⟩ :=
    spelledStandard.redirect_target_matches_iff asciiUna_laws hheader hrequest
  cases hbase.symm.trans hpage
  have hrebuilt : spelledStandard.Rebuilt (spelledUrl (ascii "/", [])) (ascii "/d") :=
    Or.inr ⟨rfl, Or.inr (Or.inl rfl)⟩
  refine (((hmatches _ hvalue).2 hrebuilt _ hrequest).1 rfl).mpr ⟨?_, ?_, ?_, ?_⟩
  · intro url hurl
    cases hurl
  · intro hdouble
    exact absurd hdouble (by decide)
  · intro _ _
    exact ⟨spelledUrl (ascii "/d", []), ⟨rfl, rfl, Or.inl rfl⟩, ascii "https://h/d", hrequest, rfl⟩
  · intro hquery
    exact absurd hquery (by decide)

/-- A fragment stays on the URL that is recorded. -/
theorem redirect_target_lost :
    locationHeader (redirectTo (ascii "/d#f")) = some (ascii "/d#f") ∧
    spelledStandard.resolveHref servedBase (ascii "/d#f") = some (ascii "https://h/d") ∧
    spelledEnv.canonicalizeCapturedUrl (ascii "https://h/d") = ascii "https://h/d" ∧
    spelledEnv.resolveRedirectTargetUrl servedBase (ascii "https://h/d") (some (redirectTo (ascii "/d#f"))) =
      some (ascii "https://h/d#f") ∧
    spelledEnv.resolveRedirectTargetUrl servedBase (ascii "https://h/d") (some (redirectTo (ascii "/d#f"))) ≠
      some (spelledEnv.canonicalizeCapturedUrl (ascii "https://h/d")) := by
  refine ⟨?_, ?_, ?_, ?_, ?_⟩
  all_goals decide +kernel

end Samples

end Webshot.Crawler
