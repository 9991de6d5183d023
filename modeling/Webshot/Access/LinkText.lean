import Webshot.Access.Link
import Webshot.Foundation.JsonText
import Webshot.Foundation.Occurrences
import Webshot.Storage.Values

/-! Links from text: the URLs of the URL library, `NormalizeUrl` and `Link::FromText`. -/
namespace Webshot.Access
open Text Storage Foundation.JsonText Foundation.Occurrences

inductive LinkError.Code where
  | missingScheme
  | unsupportedScheme
  | failedToParse
  | missingHostname
  | ipAddressNotAllowed
  | invalidHost
  | inputTooLong
  | normalizedHrefTooLong
  deriving DecidableEq

inductive UrlError.Code where
  | inputTooLong
  | failedToParse
  deriving DecidableEq

def http : Bytes := ascii "http"

def https : Bytes := ascii "https"

/-- What the URL standard does not forbid in a domain. -/
def domainByte (x : Byte) : Bool := 32 < x.val && x.val < 127 && x ∉ ascii "#%/:<>?@[\\]^|"

/-- The last label is a number, so that the host is read as an address. -/
def endsInNumber (host : Bytes) : Bool :=
  (host.splitOn dot).getLast?.any fun label => !label.isEmpty && label.all isDigit

def withoutFinalDot (host : Bytes) : Bytes := if host.getLast? = some dot then host.dropLast else host

/-- The hosts of ada and `inet_pton`, and the bytes that ada leaves as they are in a path and in a
query. Relied upon are the URL standard (a serialized host is parsed to itself; a bracketed host is
an IPv6 address; what ends in a number is an IPv4 address, which is serialized without a final dot;
domains hold no forbidden bytes), the lengths of DNS names, and the notation of addresses. -/
structure UrlRules where
  parseHost : Bytes → Option Bytes
  hasValidDomain : Bytes → Bool
  inetPton4 : Bytes → Bool
  inetPton6 : Bytes → Bool
  pathByte : Byte → Bool
  queryByte : Byte → Bool
  host_stable : ∀ text host, parseHost text = some host → parseHost host = some host
  host_form : ∀ text host, parseHost text = some host →
    (∃ address, host = 91 :: (address ++ [93]) ∧ inetPton6 address = true) ∨ ∀ x ∈ host, domainByte x = true
  host_dot : ∀ host, host ≠ [] → host.getLast? ≠ some dot → parseHost (host ++ [dot]) = some (host ++ [dot]) →
    parseHost host = some host
  host_number : ∀ host, endsInNumber host = true → parseHost (host ++ [dot]) ≠ some (host ++ [dot])
  domain_labels : ∀ host, hasValidDomain host = true →
    ∀ label ∈ (withoutFinalDot host).splitOn dot, 0 < label.length ∧ label.length ≤ 63
  domain_dot : ∀ host, hasValidDomain (host ++ [dot]) = true → hasValidDomain host = true
  pton4_number : ∀ host, inetPton4 host = true → endsInNumber host = true
  pton6_colon : ∀ host, inetPton6 host = true → (58 : Byte) ∈ host
  pathByte_plain : ∀ x, pathByte x = true → 32 < x.val ∧ x.val < 127 ∧ x ∉ ascii "?#\\"
  queryByte_plain : ∀ x, queryByte x = true → 32 < x.val ∧ x.val < 127 ∧ x ∉ ascii "#"

/-- The segments that a path is resolved by. -/
def dotSegments : List Bytes :=
  [ascii ".", ascii "%2e", ascii "..", ascii ".%2e", ascii "%2e.", ascii "%2e%2e"]

def lowerByte (x : Byte) : Byte := if 65 ≤ x.val ∧ x.val ≤ 90 then x + 32 else x

def isDotSegment (segment : Bytes) : Bool := segment.map lowerByte ∈ dotSegments

/-- How the URL standard writes the components of an http(s) URL: an absolute path without dot
segments, and nothing left to encode. -/
structure HttpParts (rules : UrlRules) (hostname pathname : Bytes) (query : Option Bytes) : Prop where
  host_parsed : rules.parseHost hostname = some hostname
  pathname_absolute : pathname.head? = some slash
  pathname_bytes : ∀ x ∈ pathname, x = slash ∨ rules.pathByte x = true
  no_dots : ∀ segment ∈ pathname.splitOn slash, isDotSegment segment = false
  query_bytes : ∀ q ∈ query, ∀ x ∈ q, rules.queryByte x = true

/-- An empty path is read as the root. -/
def rooted : Bytes → Bytes
  | [] => [slash]
  | x :: path => x :: path

/-- A parsed URL. The hostname is empty if there is none; the parts of an http(s) URL are in their
standard form. -/
structure Url (rules : UrlRules) where
  scheme : Bytes
  username : Bytes
  password : Bytes
  hostname : Bytes
  port : Option Bytes
  pathname : Bytes
  query : Option Bytes
  fragment : Option Bytes
  standard : scheme = http ∨ scheme = https → HttpParts rules hostname pathname query

/-- A query with its mark. -/
def searchOf (query : Option Bytes) : Bytes := query.elim [] (ascii "?" ++ ·)

def UrlRules.isIpLiteralHostname (rules : UrlRules) (host : Bytes) : Bool :=
  let candidate := if host.head? = some 91 ∧ host.getLast? = some 93 then host.tail.dropLast else host
  host ≠ [] && (rules.inetPton4 host || rules.inetPton6 candidate)

namespace Url
variable {rules : UrlRules} (url : Url rules)

def isHttpOrHttps : Prop := url.scheme = http ∨ url.scheme = https

instance : Decidable url.isHttpOrHttps := inferInstanceAs (Decidable (_ ∨ _))

def search : Bytes := searchOf url.query

def credentials : Bytes :=
  if url.username = [] ∧ url.password = [] then []
  else url.username ++ (if url.password = [] then [] else ascii ":" ++ url.password) ++ ascii "@"

/-- The URL serializer, for a URL with a host. -/
def href : Bytes :=
  url.scheme ++ ascii "://" ++ url.credentials ++ url.hostname ++ url.port.elim [] (ascii ":" ++ ·) ++ url.pathname ++
    url.search ++ url.fragment.elim [] (ascii "#" ++ ·)

/-- The setters that empty a component. -/
def withoutCredentials : Url rules := { url with username := [], password := [] }

def withoutHash : Url rules := { url with fragment := none }

def withoutPort : Url rules := { url with port := none }

/-- `set_hostname`: a text that is no host changes nothing. -/
def setHostname (text : Bytes) : Url rules :=
  match h : rules.parseHost text with
  | none => url
  | some host =>
    { url with
      hostname := host
      standard := fun hs => { url.standard hs with host_parsed := rules.host_stable text host h } }

/-- The checks of `NormalizeUrl`. -/
def refusal : Option LinkError.Code :=
  if ¬ url.isHttpOrHttps then some .unsupportedScheme
  else if url.hostname = [] then some .missingHostname
  else if rules.isIpLiteralHostname url.hostname = true then some .ipAddressNotAllowed
  else if rules.hasValidDomain url.hostname = false then some .invalidHost
  else none

def normalized : Url rules :=
  let normalized := url.withoutCredentials.withoutHash.withoutPort
  if normalized.hostname.getLast? = some dot then normalized.setHostname normalized.hostname.dropLast else normalized

end Url

/-- What the checks leave of a host: a domain that is no address and has no final dot. -/
structure AcceptedHost (rules : UrlRules) (host : Bytes) : Prop where
  parsed : rules.parseHost host = some host
  bytes : ∀ x ∈ host, domainByte x = true
  not_ip : rules.isIpLiteralHostname host = false
  domain : rules.hasValidDomain host = true
  dotless : host.getLast? ≠ some dot

section Hosts
variable {rules : UrlRules} {host : Bytes}

theorem withoutFinalDot_concat (host : Bytes) : withoutFinalDot (host ++ [dot]) = host := by
  rw [withoutFinalDot, List.getLast?_concat, if_pos rfl, List.dropLast_concat]

theorem withoutFinalDot_of_dotless (h : host.getLast? ≠ some dot) : withoutFinalDot host = host := if_neg h

theorem ne_nil_of_labels (h : ∀ label ∈ host.splitOn dot, 0 < label.length) : host ≠ [] := by
  rintro rfl
  exact absurd (h [] (by decide)) (by decide)

theorem dotless_of_labels (h : ∀ label ∈ host.splitOn dot, 0 < label.length) : host.getLast? ≠ some dot := by
  intro hdot
  obtain ⟨a, rfl⟩ := List.getLast?_eq_some_iff.mp hdot
  rw [List.splitOn_append_cons_self] at h
  exact absurd (h [] (List.mem_append_right _ (by decide))) (by decide)

theorem domainByte_spec {x : Byte} (h : domainByte x = true) :
    32 < x.val ∧ x.val < 127 ∧ x ≠ slash ∧ x ≠ 58 ∧ x ≠ 63 ∧ x ≠ 91 := by
  simp only [domainByte, Bool.and_eq_true, decide_eq_true_eq] at h
  obtain ⟨⟨hlow, hhigh⟩, hnot⟩ := h
  refine ⟨hlow, hhigh, ?_, ?_, ?_, ?_⟩ <;> exact fun he => hnot (he ▸ by decide)

/-- A host that passes for no address is a domain. -/
theorem bytes_of_not_ip (hparsed : rules.parseHost host = some host) (hip : rules.isIpLiteralHostname host = false) :
    ∀ x ∈ host, domainByte x = true := by
  rcases rules.host_form host host hparsed with ⟨address, rfl, haddress⟩ | hbytes
  · have hcandidate : (91 :: (address ++ [93])).tail.dropLast = address := by
      rw [List.tail_cons, List.dropLast_concat]
    have hlast : (91 :: (address ++ [93]) : Bytes).getLast? = some 93 := by
      rw [← List.cons_append, List.getLast?_concat]
    simp [UrlRules.isIpLiteralHostname, hlast, haddress] at hip
  · exact hbytes

/-- Without brackets, an address has a number at its end or a colon. -/
theorem isIpLiteralHostname_of_domain (hbytes : ∀ x ∈ host, domainByte x = true) (hnumber : endsInNumber host = false) :
    rules.isIpLiteralHostname host = false := by
  have hhead : host.head? ≠ some 91 := fun h => (domainByte_spec (hbytes 91 (List.mem_of_head? h))).2.2.2.2.2 rfl
  have hfour : rules.inetPton4 host = false := by
    rw [Bool.eq_false_iff]
    intro h
    rw [rules.pton4_number host h] at hnumber
    cases hnumber
  have hsix : rules.inetPton6 host = false := by
    rw [Bool.eq_false_iff]
    exact fun h => (domainByte_spec (hbytes 58 (rules.pton6_colon host h))).2.2.2.1 rfl
  simp only [UrlRules.isIpLiteralHostname, hhead, false_and, if_false, hfour, hsix, Bool.or_false, Bool.and_false]

/-- Taking the final dot off a domain that passes the checks gives an accepted host. -/
theorem AcceptedHost.of_checks (hparsed : rules.parseHost host = some host)
    (hip : rules.isIpLiteralHostname host = false) (hdomain : rules.hasValidDomain host = true) :
    AcceptedHost rules (withoutFinalDot host) := by
  have hlabels : ∀ label ∈ (withoutFinalDot host).splitOn dot, 0 < label.length :=
    fun label hlabel => (rules.domain_labels host hdomain label hlabel).1
  have hbytes := bytes_of_not_ip hparsed hip
  by_cases hdot : host.getLast? = some dot
  · obtain ⟨h, rfl⟩ := List.getLast?_eq_some_iff.mp hdot
    rw [withoutFinalDot_concat] at hlabels ⊢
    have hbytes' : ∀ x ∈ h, domainByte x = true := fun x hx => hbytes x (List.mem_append_left _ hx)
    have hnumber : endsInNumber h = false := by
      rw [Bool.eq_false_iff]
      exact fun hend => rules.host_number h hend hparsed
    exact ⟨rules.host_dot h (ne_nil_of_labels hlabels) (dotless_of_labels hlabels) hparsed, hbytes',
      isIpLiteralHostname_of_domain hbytes' hnumber, rules.domain_dot h hdomain, dotless_of_labels hlabels⟩
  · rw [withoutFinalDot_of_dotless hdot]
    exact ⟨hparsed, hbytes, hip, hdomain, hdot⟩

theorem AcceptedHost.labels (h : AcceptedHost rules host) :
    ∀ label ∈ host.splitOn dot, 0 < label.length ∧ label.length ≤ 63 := by
  have hlabels := rules.domain_labels host h.domain
  rwa [withoutFinalDot_of_dotless h.dotless] at hlabels

theorem AcceptedHost.ne_nil (h : AcceptedHost rules host) : host ≠ [] :=
  ne_nil_of_labels fun label hlabel => (h.labels label hlabel).1

end Hosts

namespace Url
variable {rules : UrlRules} {url : Url rules}

/-- Two URLs agree in all but the hostname. -/
def SameButHost (a b : Url rules) : Prop :=
  a.scheme = b.scheme ∧ a.credentials = b.credentials ∧ a.port = b.port ∧ a.pathname = b.pathname ∧
    a.query = b.query ∧ a.fragment = b.fragment

theorem setHostname_parsed {text host : Bytes} (h : rules.parseHost text = some host) :
    (url.setHostname text).hostname = host ∧ SameButHost (url.setHostname text) url := by
  unfold setHostname
  split
  · rename_i hnone
    rw [hnone] at h
    cases h
  · rename_i host' hsome
    rw [hsome] at h
    cases h
    exact ⟨rfl, rfl, rfl, rfl, rfl, rfl, rfl⟩

theorem refusal_eq_none (h : url.refusal = none) :
    url.isHttpOrHttps ∧ rules.isIpLiteralHostname url.hostname = false ∧ rules.hasValidDomain url.hostname = true := by
  unfold refusal at h
  split at h
  · cases h
  · rename_i hscheme
    split at h
    · cases h
    · split at h
      · cases h
      · rename_i hip
        split at h
        · cases h
        · rename_i hdomain
          exact ⟨Decidable.not_not.mp hscheme, Bool.eq_false_iff.mpr hip, Bool.eq_true_of_not_eq_false hdomain⟩

theorem host_of_accepted (h : url.refusal = none) : AcceptedHost rules (withoutFinalDot url.hostname) := by
  obtain ⟨hscheme, hip, hdomain⟩ := refusal_eq_none h
  exact .of_checks (url.standard hscheme).host_parsed hip hdomain

/-- Normalizing takes the final dot off the host, keeps path and query and empties the rest. -/
theorem normalized_parts (h : url.refusal = none) :
    url.normalized.hostname = withoutFinalDot url.hostname ∧
      SameButHost url.normalized url.withoutCredentials.withoutHash.withoutPort := by
  have hhost := (host_of_accepted h).parsed
  by_cases hdot : url.hostname.getLast? = some dot
  · have hnormalized : url.normalized =
        url.withoutCredentials.withoutHash.withoutPort.setHostname url.hostname.dropLast := if_pos hdot
    rw [withoutFinalDot, if_pos hdot] at hhost ⊢
    rw [hnormalized]
    exact setHostname_parsed hhost
  · have hnormalized : url.normalized = url.withoutCredentials.withoutHash.withoutPort := if_neg hdot
    rw [hnormalized, withoutFinalDot_of_dotless hdot]
    exact ⟨rfl, rfl, rfl, rfl, rfl, rfl, rfl⟩

theorem normalized_host (h : url.refusal = none) : AcceptedHost rules url.normalized.hostname := by
  rw [(normalized_parts h).1]
  exact host_of_accepted h

theorem normalized_standard (h : url.refusal = none) :
    HttpParts rules url.normalized.hostname url.normalized.pathname url.normalized.query := by
  apply url.normalized.standard
  rw [(normalized_parts h).2.1]
  exact (refusal_eq_none h).1

end Url

/-- The link of an accepted host and standard parts. -/
def Link.ofParts {rules : UrlRules} {hostname pathname : Bytes} {query : Option Bytes}
    (host : AcceptedHost rules hostname) (parts : HttpParts rules hostname pathname query) : Link where
  hostname := hostname
  pathname := pathname
  query := query
  hostname_ascii x hx := (domainByte_spec (host.bytes x hx)).2.1.trans (by decide)
  hostname_slash h := (domainByte_spec (host.bytes slash h)).2.2.1 rfl
  hostname_labels := host.labels
  pathname_ascii x hx := (parts.pathname_bytes x hx).elim (fun h => h ▸ by decide)
    fun h => (rules.pathByte_plain x h).2.1.trans (by decide)
  pathname_absolute := parts.pathname_absolute
  query_ascii q hq x hx := (rules.queryByte_plain x (parts.query_bytes q hq x hx)).2.1.trans (by decide)

section FromText
variable {rules : UrlRules}

def normalizeUrl (url : Url rules) (urlBytesMax : Nat) : Except LinkError.Code Link :=
  match h : url.refusal with
  | some code => .error code
  | none =>
    if urlBytesMax < (consumeSlash url.normalized.href).length then .error .normalizedHrefTooLong
    else .ok (.ofParts (Url.normalized_host h) (Url.normalized_standard h))

/-- `ada::parse`. Relied upon is the URL standard: a URL written in its standard form is parsed into
its components, and an empty path of an http(s) URL is the root. -/
structure UrlParser (rules : UrlRules) where
  parse : Bytes → Option (Url rules)
  parse_standard : ∀ (scheme hostname pathname : Bytes) (query : Option Bytes)
    (parts : HttpParts rules hostname pathname query), scheme = http ∨ scheme = https →
    parse (scheme ++ ascii "://" ++ hostname ++ pathname ++ searchOf query) =
      some ⟨scheme, [], [], hostname, none, pathname, query, none, fun _ => parts⟩
  parse_root : ∀ scheme hostname : Bytes, scheme = http ∨ scheme = https →
    rules.parseHost hostname = some hostname →
    parse (scheme ++ ascii "://" ++ hostname) = parse (scheme ++ ascii "://" ++ hostname ++ [slash])

def UrlParser.fromBoundedSizeText (parser : UrlParser rules) (text : Bytes) (maxBytes : Nat) :
    Except UrlError.Code (Url rules) :=
  if maxBytes < text.length then .error .inputTooLong
  else
    match parser.parse text with
    | none => .error .failedToParse
    | some url => .ok url

def isAsciiAlpha (x : Byte) : Bool := (65 ≤ x.val && x.val ≤ 90) || (97 ≤ x.val && x.val ≤ 122)

def isAsciiAlnum (x : Byte) : Bool := isAsciiAlpha x || isDigit x

/-- RFC 3986 scheme. -/
def isValidScheme : Bytes → Bool
  | [] => false
  | first :: rest => isAsciiAlpha first && rest.all fun c => isAsciiAlnum c || c ∈ ascii "+-."

def stripAsciiWhitespace (text : Bytes) : Bytes := (text.dropWhile isAsciiSpace).rdropWhile isAsciiSpace

/-- The text with its scheme; one without a scheme is read as http. -/
def schemedText (text : Bytes) : Except LinkError.Code Bytes :=
  let stripped := stripAsciiWhitespace text
  if (ascii "//").isPrefixOf stripped then .error .missingScheme
  else
    match firstIndex (ascii "://") stripped with
    | none => .ok (ascii "http://" ++ stripped)
    | some schemePos =>
      let scheme := stripped.take schemePos
      if !isValidScheme scheme then .ok (ascii "http://" ++ stripped)
      else if scheme = http ∨ scheme = https then .ok stripped
      else .error .unsupportedScheme

variable (una : UniAlgo) (parser : UrlParser rules)

/-- The first half of `Link::FromText`: the URL that is read from the text. -/
def parseText (text : Bytes) (urlBytesMax : Nat) : Except (Failure LinkError.Code) (Url rules) :=
  match schemedText text with
  | .error code => .error (.error code)
  | .ok schemed =>
    match fromBytes una schemed with
    | none => .error .aborted
    | some schemed =>
      match parser.fromBoundedSizeText schemed urlBytesMax with
      | .error .inputTooLong => .error (.error .inputTooLong)
      | .error .failedToParse => .error (.error .failedToParse)
      | .ok url => .ok url

def Link.fromText (text : Bytes) (urlBytesMax : Nat) : Except (Failure LinkError.Code) Link :=
  match parseText una parser text urlBytesMax with
  | .error failure => .error failure
  | .ok url =>
    match normalizeUrl url urlBytesMax with
    | .error code => .error (.error code)
    | .ok link => .ok link

def Link.httpUrl (link : Link) : Option Bytes := fromBytes una (serializeHref link http)

def Link.httpsUrl (link : Link) : Option Bytes := fromBytes una (serializeHref link https)

end FromText

/-- What holds of every link that `FromText` accepts under a limit. -/
structure Link.Accepted (rules : UrlRules) (link : Link) (urlBytesMax : Nat) : Prop where
  host : AcceptedHost rules link.hostname
  parts : HttpParts rules link.hostname link.pathname link.query
  size : (serializeHref link http).length ≤ urlBytesMax

section Specification
variable {rules : UrlRules} {una : UniAlgo} {parser : UrlParser rules} {text : Bytes} {urlBytesMax : Nat} {link : Link}
  {url : Url rules}

theorem consumeSlash_append (a : Bytes) {b : Bytes} (h : b ≠ []) : consumeSlash (a ++ b) = a ++ consumeSlash b := by
  rcases List.eq_nil_or_concat b with rfl | ⟨b, x, rfl⟩
  · exact absurd rfl h
  · rw [List.concat_eq_append, consumeSlash, consumeSlash, ← List.append_assoc, List.getLast?_concat,
      List.getLast?_concat]
    split
    · rw [List.dropLast_concat, List.dropLast_concat]
    · exact List.append_assoc _ _ _

theorem Link.pathname_ne_nil (link : Link) : link.pathname ≠ [] := by
  intro h
  have habsolute := link.pathname_absolute
  rw [h] at habsolute
  cases habsolute

/-- The slash is consumed behind the host. -/
theorem serializeHref_eq (link : Link) (scheme : Bytes) : serializeHref link scheme =
    scheme ++ ascii "://" ++ (link.hostname ++ consumeSlash (link.pathname ++ searchOf link.query)) := by
  have hne : link.pathname ++ searchOf link.query ≠ [] := List.append_ne_nil_of_left_ne_nil link.pathname_ne_nil _
  have hhref : link.href scheme =
      scheme ++ ascii "://" ++ (link.hostname ++ (link.pathname ++ searchOf link.query)) := by
    simp only [Link.href, searchOf, List.append_assoc]
  rw [serializeHref, hhref, consumeSlash_append _ (List.append_ne_nil_of_right_ne_nil _ hne), consumeSlash_append _ hne]

theorem normalized_href (h : url.refusal = none) : url.normalized.href =
    (Link.ofParts (Url.normalized_host h) (Url.normalized_standard h)).href url.scheme := by
  obtain ⟨hscheme, hcredentials, hport, _, _, hfragment⟩ := (Url.normalized_parts h).2
  have hempty : url.withoutCredentials.withoutHash.withoutPort.credentials = [] := rfl
  rw [hempty] at hcredentials
  rw [Url.href, hscheme, hcredentials, hport, hfragment]
  simp only [Link.ofParts, Link.href, Url.search, searchOf, Url.withoutPort, Url.withoutHash, Url.withoutCredentials,
    Option.elim_none, List.append_nil]

theorem normalizeUrl_spec (h : normalizeUrl url urlBytesMax = .ok link) :
    link.Accepted rules urlBytesMax ∧ link.pathname = url.pathname ∧ link.query = url.query := by
  unfold normalizeUrl at h
  split at h
  · cases h
  · rename_i hrefusal
    obtain ⟨_, _, _, hpathname, hquery, _⟩ := (Url.normalized_parts hrefusal).2
    rw [normalized_href hrefusal] at h
    split at h
    · cases h
    · rename_i hsize
      cases h
      refine ⟨⟨Url.normalized_host hrefusal, Url.normalized_standard hrefusal, ?_⟩, hpathname, hquery⟩
      have hlength : http.length ≤ url.scheme.length := by
        rcases (Url.refusal_eq_none hrefusal).1 with hscheme | hscheme
        · rw [hscheme]
        · rw [hscheme]
          decide
      rw [← serializeHref, serializeHref_eq] at hsize
      rw [serializeHref_eq]
      simp only [List.length_append] at hsize ⊢
      omega

theorem fromText_spec (h : Link.fromText una parser text urlBytesMax = .ok link) :
    link.Accepted rules urlBytesMax ∧ ∃ url, parseText una parser text urlBytesMax = .ok url ∧
      link.pathname = url.pathname ∧ link.query = url.query := by
  unfold Link.fromText at h
  split at h
  · cases h
  · rename_i url hurl
    split at h
    · cases h
    · rename_i link' hlink
      cases h
      obtain ⟨haccepted, hparts⟩ := normalizeUrl_spec hlink
      exact ⟨haccepted, url, hurl, hparts⟩

theorem ofParts_congr {hostname pathname hostname' pathname' : Bytes} {query query' : Option Bytes}
    {host : AcceptedHost rules hostname} {parts : HttpParts rules hostname pathname query}
    {host' : AcceptedHost rules hostname'} {parts' : HttpParts rules hostname' pathname' query'}
    (hhost : hostname = hostname') (hpathname : pathname = pathname') (hquery : query = query') :
    Link.ofParts host parts = Link.ofParts host' parts' := by
  subst hhost hpathname hquery
  rfl

/-- Standard parts of an accepted host pass the checks as they are. -/
theorem normalizeUrl_standard {scheme hostname pathname : Bytes} {query : Option Bytes}
    (hscheme : scheme = http ∨ scheme = https) (host : AcceptedHost rules hostname)
    (parts : HttpParts rules hostname pathname query)
    (hsize : (serializeHref (Link.ofParts host parts) scheme).length ≤ urlBytesMax) :
    normalizeUrl ⟨scheme, [], [], hostname, none, pathname, query, none, fun _ => parts⟩ urlBytesMax =
      .ok (Link.ofParts host parts) := by
  have hrefusal : Url.refusal ⟨scheme, [], [], hostname, none, pathname, query, none, fun _ => parts⟩ = none := by
    simp only [Url.refusal, Url.isHttpOrHttps, hscheme, not_true_eq_false, host.ne_nil, host.not_ip, host.domain,
      Bool.false_eq_true, Bool.true_eq_false, if_false]
  unfold normalizeUrl
  split
  · rename_i hsome
    rw [hrefusal] at hsome
    cases hsome
  · rename_i h
    obtain ⟨hhost, _, _, _, hpathname, hquery, _⟩ := Url.normalized_parts h
    rw [withoutFinalDot_of_dotless host.dotless] at hhost
    have hlink : Link.ofParts (Url.normalized_host h) (Url.normalized_standard h) = Link.ofParts host parts :=
      ofParts_congr hhost hpathname hquery
    rw [normalized_href h, hlink, ← serializeHref, if_neg (Nat.not_lt.mpr hsize)]

end Specification
end Webshot.Access
