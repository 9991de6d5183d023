import Webshot.Crawler.UrlResolution

/-! Location headers as they are recorded: does the rewritten header lead where the header led? -/
namespace Webshot.Crawler
open Text

/-- The target is on the server of the page, as far as `IsHttp` and `Host` tell. -/
def Target.sameHost (t page : Target) : Prop := t.isHttp = page.isHttp ∧ t.hostname = page.hostname ∧ t.port = page.port

instance (t page : Target) : Decidable (t.sameHost page) := inferInstanceAs (Decidable (_ ∧ _))

/-- A header that is returned before it is parsed. -/
def isReference (location : Bytes) : Bool :=
  location.isEmpty || startsWith location (ascii "/") || startsWith location (ascii "?") || startsWith location (ascii "//")

namespace UrlStandard
variable {env : CaptureEnv} (std : UrlStandard env)

/-- The condition on a header that is a URL of its own: if its text is changed, then it leads from the page where it
leads alone; and if it is cut down to its path, then it is of the scheme of the page, the path does not begin with
two slashes, and there is no empty query. -/
def LocationKept (base : Bytes) (page : Url) (location : Bytes) : Prop :=
  isReference location = false → ∀ url, env.urlFromText location = some url →
    ((std.target url).onFixturePort = true ∨ (std.target url).withoutFixturePort.sameHost (std.target page) →
      SameTarget (std.resolve base location) (some (std.target url))) ∧
    ((std.target url).withoutFixturePort.sameHost (std.target page) →
      (std.target url).scheme = (std.target page).scheme ∧ (std.target url).doubleSlash = false ∧
        (std.target url).query ≠ some [])

section Headers
variable {base location : Bytes} {page url : Url}

/-- The rewriting of a header that is no URL of its own, or begins like a reference. -/
theorem header_unchanged {value : Bytes} (hvalue : fromBytes env.una value = some location)
    (h : isReference location = true ∨ env.urlFromText location = none) :
    env.canonicalizeCapturedLocationHeader base value = location := by
  rw [CaptureEnv.canonicalizeCapturedLocationHeader, hvalue]
  cases href : isReference location with
  | true => exact if_pos href
  | false =>
    have hnone : env.urlFromText location = none := h.resolve_left (by rw [href]; exact Bool.false_ne_true)
    have hcanonical : env.canonicalizeCapturedUrl location = location := by
      simp only [CaptureEnv.canonicalizeCapturedUrl, hnone]
    refine (if_neg (by rw [isReference] at href; rw [href]; exact Bool.false_ne_true)).trans ?_
    simp only [hcanonical, hnone]

/-- The rewriting of a header that is a URL of its own. -/
theorem header_changed (hbase : env.urlFromText base = some page) (href : isReference location = false)
    (hurl : env.urlFromText location = some url) {value : Bytes} (hvalue : fromBytes env.una value = some location) :
    ∃ url', env.urlFromText (env.canonicalizeCapturedUrl location) = some url' ∧
      std.target url' = (std.target url).withoutFixturePort ∧
      env.canonicalizeCapturedLocationHeader base value =
        if (std.target url).withoutFixturePort.sameHost (std.target page) then url'.pathWithSearch
        else env.canonicalizeCapturedUrl location := by
  obtain ⟨url', hparsed, htarget⟩ := std.canonicalizeCapturedUrl_parsed hurl
  refine ⟨url', hparsed, htarget, ?_⟩
  rw [CaptureEnv.canonicalizeCapturedLocationHeader, hvalue]
  refine (if_neg (by rw [isReference] at href; rw [href]; exact Bool.false_ne_true)).trans ?_
  have hsame : (url'.isHttp = page.isHttp ∧ url'.host = page.host) ↔
      (std.target url).withoutFixturePort.sameHost (std.target page) := by
    rw [std.host_eq_iff _ _ _ _ hparsed hbase, std.isHttp_eq _ _ hparsed, std.isHttp_eq _ _ hbase, htarget]
    exact Iff.rfl
  simp only [hparsed, hbase]
  exact if_congr hsame rfl rfl

/-- A header cut down to its path leads there, or to where the header does not lead. -/
theorem resolve_path_iff (hpage : env.IsPage base page) (hurl : env.urlFromText location = some url) {text : Bytes} {url' : Url}
    (hparsed : env.urlFromText text = some url') (htarget : std.target url' = (std.target url).withoutFixturePort)
    (hsame : (std.target url).withoutFixturePort.sameHost (std.target page)) :
    SameTarget (std.resolve base url'.pathWithSearch) (std.resolve base location) ↔
      SameTarget (std.resolve base location) (some (std.target url)) ∧
        (std.target url).scheme = (std.target page).scheme ∧ (std.target url).doubleSlash = false ∧
          (std.target url).query ≠ some [] := by
  have hparts : (std.target url').scheme = (std.target url).scheme ∧ (std.target url').path = (std.target url).path ∧
      (std.target url').query = (std.target url).query ∧ (std.target url').doubleSlash = (std.target url).doubleSlash := by
    rw [Target.doubleSlash, htarget, Target.withoutFixturePort_scheme, Target.withoutFixturePort_path,
      Target.withoutFixturePort_query]
    exact ⟨rfl, rfl, rfl, rfl⟩
  obtain ⟨hscheme, hpath, hquery, hslash⟩ := hparts
  -- A path in normal form is taken as it is, so all that may be lost is an empty query.
  have hcut : (std.target url).scheme = (std.target page).scheme → (std.target url).doubleSlash = false →
      (std.target url).query ≠ some [] → std.resolve base url'.pathWithSearch = some (std.target url') := by
    intro hs hd hq
    have hfilter : (std.target url).query.filter (· ≠ []) = (std.target url).query := by
      cases hquery : (std.target url).query with
      | none => rfl
      | some query =>
        rw [hquery, ne_eq, Option.some.injEq] at hq
        simp [hq]
    have hresolve := std.resolve_path base page text url' hpage hparsed (hscheme.trans hs) (hslash.trans hd)
    rw [hresolve, hpath, hquery, hfilter]
    obtain ⟨-, hhostname, hport⟩ := hsame
    rw [← htarget] at hhostname hport
    exact congrArg some (Target.ext (hs.symm.trans hscheme.symm) hhostname.symm hport.symm hpath.symm hquery.symm)
  constructor
  · intro hkept
    obtain ⟨t, ht, htquery, htpath, htother⟩ := std.resolve_own base page location url hpage hurl
    cases hout : std.resolve base url'.pathWithSearch with
    | none =>
      rw [hout, ht] at hkept
      cases hkept
    | some u =>
      have hboth := hkept
      rw [hout, ht] at hboth
      obtain ⟨huscheme, hupath, huquery⟩ := hboth.parts
      have hs : (std.target url).scheme = (std.target page).scheme := by
        by_contra hne
        have hslash := std.path_absolute base page text url' hpage hparsed
          ((std.host_eq_iff _ _ _ _ hparsed hpage.1).mpr (by rw [htarget]; exact hsame.2))
        rw [std.resolve_slash base page _ u hpage hslash hout, htother hne] at huscheme
        exact hne huscheme.symm
      have hd : (std.target url).doubleSlash = false := by
        by_contra hdouble
        rw [Bool.not_eq_false] at hdouble
        have hshort := std.resolve_double_slash base page text url' u hpage hparsed (hscheme.trans hs) (hslash.trans hdouble)
          hout
        have hlong := htpath hdouble
        rw [hupath, hpath] at hshort
        omega
      have hq : (std.target url).query ≠ some [] := by
        intro hempty
        have hresolve := std.resolve_path base page text url' hpage hparsed (hscheme.trans hs) (hslash.trans hd)
        rw [hout, Option.some.injEq] at hresolve
        rw [hresolve, htquery, hquery, hempty] at huquery
        cases huquery
      rw [hcut hs hd hq, htarget] at hkept
      exact ⟨hkept.symm.trans (SameTarget.withoutFixturePort _), hs, hd, hq⟩
  · rintro ⟨hown, hs, hd, hq⟩
    rw [hcut hs hd hq, htarget]
    exact (SameTarget.withoutFixturePort _).trans hown.symm

/-- The recorded header leads where the header did exactly under the condition. -/
theorem header_kept_iff (hpage : env.IsPage base page) {value : Bytes} (hvalue : fromBytes env.una value = some location) :
    SameTarget (std.resolve base (env.canonicalizeCapturedLocationHeader base value)) (std.resolve base location) ↔
      std.LocationKept base page location := by
  cases href : isReference location with
  | true =>
    rw [header_unchanged hvalue (Or.inl href)]
    exact iff_of_true rfl fun h => by
      rw [href] at h
      cases h
  | false =>
    cases hurl : env.urlFromText location with
    | none =>
      rw [header_unchanged hvalue (Or.inr hurl)]
      exact iff_of_true rfl fun _ url h => by
        rw [hurl] at h
        cases h
    | some url =>
      have hcondition : std.LocationKept base page location ↔
          ((std.target url).onFixturePort = true ∨ (std.target url).withoutFixturePort.sameHost (std.target page) →
            SameTarget (std.resolve base location) (some (std.target url))) ∧
          ((std.target url).withoutFixturePort.sameHost (std.target page) →
            (std.target url).scheme = (std.target page).scheme ∧ (std.target url).doubleSlash = false ∧
              (std.target url).query ≠ some []) := by
        constructor
        · exact fun h => h href url hurl
        · intro h _ other hother
          rw [hurl] at hother
          cases hother
          exact h
      obtain ⟨url', hparsed, htarget, hheader⟩ := std.header_changed hpage.1 href hurl hvalue
      rw [hheader, hcondition]
      by_cases hsame : (std.target url).withoutFixturePort.sameHost (std.target page)
      · rw [if_pos hsame, std.resolve_path_iff hpage hurl hparsed htarget hsame]
        constructor
        · exact fun h => ⟨fun _ => h.1, fun _ => h.2⟩
        · exact fun h => ⟨h.1 (Or.inr hsame), h.2 hsame⟩
      · rw [if_neg hsame, std.resolve_canonical hpage hurl]
        cases hport : (std.target url).onFixturePort with
        | false =>
          exact iff_of_true rfl ⟨fun h => absurd h (by simp [hsame]), fun h => absurd h hsame⟩
        | true =>
          rw [if_pos rfl]
          constructor
          · exact fun h => ⟨fun _ => h.symm.trans (SameTarget.withoutFixturePort _), fun h => absurd h hsame⟩
          · exact fun h => (SameTarget.withoutFixturePort _).trans (h.1 (Or.inl rfl)).symm

end Headers

section Rewriting
variable {base : Bytes} {page : Url}

/-- A header that is not UTF-8 is recorded as it is. Of the others it is the normal form that is rewritten; if that leads
where the header leads, then the recorded header leads there exactly under the condition, and under the condition
the recorded header leads there only if the normal form does. -/
theorem recorded_location_kept_iff (hpage : env.IsPage base page) (value : Bytes) :
    (fromBytes env.una value = none →
      std.resolve base (env.canonicalizeCapturedLocationHeader base value) = std.resolve base value) ∧
    ∀ location, fromBytes env.una value = some location →
      (SameTarget (std.resolve base location) (std.resolve base value) →
        (SameTarget (std.resolve base (env.canonicalizeCapturedLocationHeader base value)) (std.resolve base value) ↔
          std.LocationKept base page location)) ∧
      (std.LocationKept base page location →
        (SameTarget (std.resolve base (env.canonicalizeCapturedLocationHeader base value)) (std.resolve base value) ↔
          SameTarget (std.resolve base location) (std.resolve base value))) := by
  refine ⟨fun hvalue => ?_, fun location hvalue => ?_⟩
  · rw [CaptureEnv.canonicalizeCapturedLocationHeader, hvalue]
  · have hkept := std.header_kept_iff hpage hvalue
    refine ⟨fun hnormal => ?_, fun hcondition => ?_⟩
    · rw [← hkept]
      exact ⟨fun h => h.trans hnormal.symm, fun h => h.trans hnormal⟩
    · have hsame := hkept.mpr hcondition
      exact ⟨fun h => hsame.symm.trans h, fun h => hsame.trans h⟩

end Rewriting

end UrlStandard
section Samples

/-- The pages of one server. -/
def servedPaths : List Bytes := [ascii "/", ascii "/a", ascii "//e/x"]

def servedUrl (path : Bytes) : Url where
  isHttp := false
  isHttps := true
  hasPort := false
  host := ascii "h"
  hostname := ascii "h"
  port := []
  pathWithSearch := path
  href := ascii "https://h" ++ path
  origin := ascii "https://h"
  hrefWithoutPort := ascii "https://h" ++ path
  hrefWithSearch search := ascii "https://h" ++ (path ++ search)

def servedEnv : CaptureEnv where
  una := asciiUna
  urlFromText text := (servedPaths.find? fun path => text = ascii "https://h" ++ path).map servedUrl

def servedTarget (hostname path : Bytes) : Target := ⟨ascii "https", hostname, none, path, none⟩

/-- Where references on that server lead. -/
def resolveServed (text : Bytes) : Option Target :=
  match servedPaths.find? fun path => text = ascii "https://h" ++ path with
  | some path => some (servedTarget (ascii "h") path)
  | none =>
    if text = ascii "//e/x" then some (servedTarget (ascii "e") (ascii "/x"))
    else if text.head? = some 47 then some (servedTarget (ascii "h") text)
    else none

theorem served_parsed {text : Bytes} {url : Url} (h : servedEnv.urlFromText text = some url) :
    ∃ path ∈ servedPaths, text = ascii "https://h" ++ path ∧ url = servedUrl path := by
  obtain ⟨path, hpath, rfl⟩ := Option.map_eq_some_iff.mp h
  have htext := List.find?_some hpath
  exact ⟨path, List.mem_of_find?_eq_some hpath, of_decide_eq_true htext, rfl⟩

theorem resolveServed_own : ∀ path ∈ servedPaths,
    resolveServed (ascii "https://h" ++ path) = some (servedTarget (ascii "h") path) := by decide

theorem resolveServed_path : ∀ path ∈ servedPaths, (servedTarget (ascii "h") path).doubleSlash = false →
    resolveServed path = some (servedTarget (ascii "h") path) := by decide

theorem resolveServed_double : ∀ path ∈ servedPaths, (servedTarget (ascii "h") path).doubleSlash = true →
    path = ascii "//e/x" := by decide

theorem resolveServed_scheme {text : Bytes} {t : Target} (h : resolveServed text = some t) : t.scheme = ascii "https" := by
  unfold resolveServed at h
  split at h
  · cases h
    rfl
  · split at h
    · cases h
      rfl
    · split at h
      · cases h
        rfl
      · cases h

def servedStandard : UrlStandard servedEnv where
  target url := servedTarget url.hostname url.pathWithSearch
  resolve _ text := resolveServed text
  isHttp_eq text url h := by
    obtain ⟨path, -, -, rfl⟩ := served_parsed h
    rfl
  isHttps_eq text url h := by
    obtain ⟨path, -, -, rfl⟩ := served_parsed h
    rfl
  hostname_eq _ _ _ := rfl
  hasPort_eq text url h := by
    obtain ⟨path, -, -, rfl⟩ := served_parsed h
    rfl
  port_eq text url h := by
    obtain ⟨path, -, -, rfl⟩ := served_parsed h
    rfl
  host_eq_iff text url text' url' h h' := by
    obtain ⟨path, -, -, rfl⟩ := served_parsed h
    obtain ⟨path', -, -, rfl⟩ := served_parsed h'
    exact iff_of_true rfl ⟨rfl, rfl⟩
  path_absolute base page text url _ h _ := by
    obtain ⟨path, hpath, -, rfl⟩ := served_parsed h
    have hslash : ∀ path ∈ servedPaths, path.head? = some 47 := by decide +kernel
    exact hslash path hpath
  without_port text url h := by
    obtain ⟨path, hpath, htext, rfl⟩ := served_parsed h.1
    refine ⟨servedUrl path, ?_, rfl, rfl⟩
    rw [← h.1, htext]
    rfl
  resolve_without_port base page text url _ h := by
    obtain ⟨path, hpath, -, rfl⟩ := served_parsed h.1
    exact resolveServed_own path hpath
  resolve_own base page text url _ h := by
    obtain ⟨path, hpath, rfl, rfl⟩ := served_parsed h
    exact ⟨_, resolveServed_own path hpath, rfl, fun _ => le_refl _, fun _ => rfl⟩
  resolve_slash base page text t hpage _ ht := resolveServed_scheme ht
  resolve_path base page text url hpage h _ hslash := by
    obtain ⟨path, hpath, -, rfl⟩ := served_parsed h
    obtain ⟨path', -, -, rfl⟩ := served_parsed hpage.1
    exact resolveServed_path path hpath hslash
  resolve_double_slash base page text url t _ h _ hslash ht := by
    obtain ⟨path, hpath, -, rfl⟩ := served_parsed h
    cases resolveServed_double path hpath hslash
    have hshort : ∀ t ∈ resolveServed (ascii "//e/x"), t.path.length < (ascii "//e/x").length := by decide +kernel
    exact hshort t ht

def servedBase : Bytes := ascii "https://h/"

theorem servedBase_page : servedEnv.IsPage servedBase (servedUrl (ascii "/")) := ⟨rfl, rfl⟩

theorem recorded_location_kept_sample :
    servedEnv.canonicalizeCapturedLocationHeader servedBase (ascii "https://h/a") = ascii "/a" ∧
    SameTarget (servedStandard.resolve servedBase
        (servedEnv.canonicalizeCapturedLocationHeader servedBase (ascii "https://h/a")))
      (servedStandard.resolve servedBase (ascii "https://h/a")) := by
  have hvalue : fromBytes servedEnv.una (ascii "https://h/a") = some (ascii "https://h/a") :=
    fromBytes_ascii _ (.ofList rfl)
  have hkept : servedStandard.LocationKept servedBase (servedUrl (ascii "/")) (ascii "https://h/a") := by
    intro _ url hurl
    cases hurl
    decide
  refine ⟨by decide +kernel, ?_⟩
  exact (((servedStandard.recorded_location_kept_iff servedBase_page _).2 _ hvalue).1 rfl).mpr hkept

/-- A path that begins with two slashes is recorded as a host. -/
theorem recorded_location_lost :
    servedEnv.IsPage servedBase (servedUrl (ascii "/")) ∧
    servedEnv.canonicalizeCapturedLocationHeader servedBase (ascii "https://h//e/x") = ascii "//e/x" ∧
    servedStandard.resolve servedBase (ascii "https://h//e/x") = some (servedTarget (ascii "h") (ascii "//e/x")) ∧
    servedStandard.resolve servedBase (ascii "//e/x") = some (servedTarget (ascii "e") (ascii "/x")) ∧
    ¬ SameTarget (servedStandard.resolve servedBase
        (servedEnv.canonicalizeCapturedLocationHeader servedBase (ascii "https://h//e/x")))
      (servedStandard.resolve servedBase (ascii "https://h//e/x")) := by
  refine ⟨servedBase_page, ?_, ?_, ?_, ?_⟩
  all_goals decide +kernel

end Samples

end Webshot.Crawler
