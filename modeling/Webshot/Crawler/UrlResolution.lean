import Webshot.Crawler.CapturedUrls

/-! Where URLs and references lead, as the URL standard has it, and what dropping the port of the local test servers
does to that. -/
namespace Webshot.Crawler
open Text

/-- Where a URL leads; its credentials and its fragment are left out. -/
@[ext]
structure Target where
  scheme : Bytes
  hostname : Bytes
  port : Option Bytes
  path : Bytes
  query : Option Bytes
  deriving DecidableEq

namespace Target
variable (t : Target)

def isHttp : Bool := t.scheme = ascii "http"

def isHttps : Bool := t.scheme = ascii "https"

/-- The port is that of a local test server. -/
def onFixturePort : Bool :=
  isLocalFixtureHost t.hostname &&
    ((t.isHttp && t.port = some (ascii "18080")) || (t.isHttps && t.port = some (ascii "18443")))

def withoutFixturePort : Target := if t.onFixturePort then { t with port := none } else t

/-- The path would be read as the name of a host. -/
def doubleSlash : Bool := startsWith t.path (ascii "//")

@[simp] theorem withoutFixturePort_scheme : t.withoutFixturePort.scheme = t.scheme := by
  unfold withoutFixturePort
  split <;> rfl

@[simp] theorem withoutFixturePort_hostname : t.withoutFixturePort.hostname = t.hostname := by
  unfold withoutFixturePort
  split <;> rfl

@[simp] theorem withoutFixturePort_path : t.withoutFixturePort.path = t.path := by
  unfold withoutFixturePort
  split <;> rfl

@[simp] theorem withoutFixturePort_query : t.withoutFixturePort.query = t.query := by
  unfold withoutFixturePort
  split <;> rfl

theorem withoutFixturePort_twice : t.withoutFixturePort.withoutFixturePort = t.withoutFixturePort := by
  have hoff : onFixturePort { t with port := none } = false := by
    simp [onFixturePort]
  cases h : t.onFixturePort with
  | false =>
    have heq : t.withoutFixturePort = t := by rw [withoutFixturePort, h, if_neg Bool.false_ne_true]
    rw [heq, heq]
  | true =>
    have heq : t.withoutFixturePort = { t with port := none } := by rw [withoutFixturePort, h, if_pos rfl]
    rw [heq, withoutFixturePort, hoff, if_neg Bool.false_ne_true]

end Target

/-- Two references lead to the same place, the ports of local test servers aside. -/
def SameTarget (a b : Option Target) : Prop := a.map Target.withoutFixturePort = b.map Target.withoutFixturePort

instance (a b : Option Target) : Decidable (SameTarget a b) := inferInstanceAs (Decidable (_ = _))

namespace SameTarget
variable {a b c : Option Target}

theorem symm (h : SameTarget a b) : SameTarget b a := Eq.symm h

theorem trans (h : SameTarget a b) (h' : SameTarget b c) : SameTarget a c := Eq.trans h h'

theorem withoutFixturePort (t : Target) : SameTarget (some t.withoutFixturePort) (some t) :=
  congrArg some t.withoutFixturePort_twice

theorem parts {t u : Target} (h : SameTarget (some t) (some u)) :
    t.scheme = u.scheme ∧ t.path = u.path ∧ t.query = u.query := by
  have heq : t.withoutFixturePort = u.withoutFixturePort := Option.some.inj h
  have hscheme := congrArg Target.scheme heq
  have hpath := congrArg Target.path heq
  have hquery := congrArg Target.query heq
  rw [Target.withoutFixturePort_scheme, Target.withoutFixturePort_scheme] at hscheme
  rw [Target.withoutFixturePort_path, Target.withoutFixturePort_path] at hpath
  rw [Target.withoutFixturePort_query, Target.withoutFixturePort_query] at hquery
  exact ⟨hscheme, hpath, hquery⟩

end SameTarget

/-- The parsed URL of a page. -/
def CaptureEnv.IsPage (env : CaptureEnv) (text : Bytes) (url : Url) : Prop :=
  env.urlFromText text = some url ∧ (url.isHttp || url.isHttps) = true

/-- The parts of what the URL parser returns, and the port that can be cleared. -/
structure UrlParts (env : CaptureEnv) where
  target : Url → Target
  isHttp_eq : ∀ text url, env.urlFromText text = some url → url.isHttp = (target url).isHttp
  isHttps_eq : ∀ text url, env.urlFromText text = some url → url.isHttps = (target url).isHttps
  hostname_eq : ∀ text url, env.urlFromText text = some url → url.hostname = (target url).hostname
  hasPort_eq : ∀ text url, env.urlFromText text = some url → url.hasPort = (target url).port.isSome
  port_eq : ∀ text url, env.urlFromText text = some url → url.port = (target url).port.getD []
  without_port : ∀ text url, env.IsPage text url → ∃ url', env.urlFromText url.hrefWithoutPort = some url' ∧
    url'.href = url.hrefWithoutPort ∧ target url' = { target url with port := none }

/-- The URL standard: where a reference leads from the URL of a page. -/
structure UrlStandard (env : CaptureEnv) extends UrlParts env where
  resolve : (base text : Bytes) → Option Target
  /-- A host is a name and a port. -/
  host_eq_iff : ∀ text url text' url', env.urlFromText text = some url → env.urlFromText text' = some url' →
    (url.host = url'.host ↔ (target url).hostname = (target url').hostname ∧ (target url).port = (target url').port)
  /-- A URL with the host of a page has no path or an absolute one. -/
  path_absolute : ∀ base page text url, env.IsPage base page → env.urlFromText text = some url → url.host = page.host →
    url.pathWithSearch.head? = some 47
  /-- The serialization of a URL leads to that URL. -/
  resolve_without_port : ∀ base page text url, env.IsPage base page → env.IsPage text url →
    resolve base url.hrefWithoutPort = some { target url with port := none }
  /-- What is a URL of its own leads somewhere, and there if it is not of the page's scheme. The query is its own
  in any case, and so is, at the end, a path with two slashes in front. -/
  resolve_own : ∀ base page text url, env.IsPage base page → env.urlFromText text = some url →
    ∃ t, resolve base text = some t ∧ t.query = (target url).query ∧
      ((target url).doubleSlash = true → (target url).path.length ≤ t.path.length) ∧
      ((target url).scheme ≠ (target page).scheme → t = target url)
  /-- A slash in front keeps the scheme. -/
  resolve_slash : ∀ base page text t, env.IsPage base page → text.head? = some 47 → resolve base text = some t →
    t.scheme = (target page).scheme
  /-- An absolute path that is normal already is taken as it is, with its query unless that is empty. -/
  resolve_path : ∀ base page text url, env.IsPage base page → env.urlFromText text = some url →
    (target url).scheme = (target page).scheme → (target url).doubleSlash = false →
    resolve base url.pathWithSearch =
      some { target page with path := (target url).path, query := (target url).query.filter (· ≠ []) }
  /-- Two slashes in front are followed by a host, and what is behind that is the path. -/
  resolve_double_slash : ∀ base page text url t, env.IsPage base page → env.urlFromText text = some url →
    (target url).scheme = (target page).scheme → (target url).doubleSlash = true →
    resolve base url.pathWithSearch = some t → t.path.length < (target url).path.length

section Canonical
variable {env : CaptureEnv} {text : Bytes} {url : Url}

namespace UrlParts
variable (parts : UrlParts env)

/-- Only a URL on the port of a local test server is changed. -/
theorem canonicalizeCapturedUrl_eq (h : env.urlFromText text = some url) :
    env.canonicalizeCapturedUrl text = if (parts.target url).onFixturePort then url.hrefWithoutPort else text := by
  simp only [CaptureEnv.canonicalizeCapturedUrl, h, Target.onFixturePort, parts.isHttp_eq text url h,
    parts.isHttps_eq text url h, parts.hasPort_eq text url h, parts.hostname_eq text url h, parts.port_eq text url h]
  obtain ⟨scheme, hostname, port, path, query⟩ := parts.target url
  cases port with
  | none => simp
  | some port =>
    simp only [Option.isSome_some, Option.getD_some, Option.some.injEq, Bool.not_true, Bool.false_eq_true, if_false]
    cases isLocalFixtureHost hostname <;> cases Target.isHttp _ <;> cases Target.isHttps _ <;> simp

theorem isPage_of_onFixturePort (h : env.urlFromText text = some url) (hport : (parts.target url).onFixturePort = true) :
    env.IsPage text url := by
  refine ⟨h, ?_⟩
  rw [parts.isHttp_eq text url h, parts.isHttps_eq text url h]
  simp only [Target.onFixturePort, Bool.and_eq_true, Bool.or_eq_true] at hport
  rcases hport.2 with hhttp | hhttps
  · rw [hhttp.1]
    rfl
  · rw [hhttps.1, Bool.or_true]

/-- A canonical text is parsed, and only the port is missing. -/
theorem canonicalizeCapturedUrl_parsed (h : env.urlFromText text = some url) :
    ∃ url', env.urlFromText (env.canonicalizeCapturedUrl text) = some url' ∧
      parts.target url' = (parts.target url).withoutFixturePort := by
  rw [parts.canonicalizeCapturedUrl_eq h, Target.withoutFixturePort]
  cases hport : (parts.target url).onFixturePort with
  | false => exact ⟨url, h, rfl⟩
  | true =>
    obtain ⟨url', hparsed, -, htarget⟩ := parts.without_port text url (parts.isPage_of_onFixturePort h hport)
    exact ⟨url', hparsed, htarget⟩

end UrlParts

theorem UrlStandard.resolve_canonical (std : UrlStandard env) {base : Bytes} {page : Url} (hpage : env.IsPage base page)
    (h : env.urlFromText text = some url) :
    std.resolve base (env.canonicalizeCapturedUrl text) =
      if (std.target url).onFixturePort then some (std.target url).withoutFixturePort else std.resolve base text := by
  rw [std.canonicalizeCapturedUrl_eq h]
  cases hport : (std.target url).onFixturePort with
  | false => rfl
  | true =>
    rw [if_pos rfl, if_pos rfl, std.resolve_without_port base page text url hpage (std.isPage_of_onFixturePort h hport),
      Target.withoutFixturePort, hport, if_pos rfl]

end Canonical
end Webshot.Crawler
