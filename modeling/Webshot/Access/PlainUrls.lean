import Webshot.Access.LinkText

/-! A URL library that reads only http(s) URLs in their standard form. -/
namespace Webshot.Access
open Text Foundation.JsonText

/-- Lower-case domains that are no addresses. -/
def plainHost (host : Bytes) : Bool :=
  host ≠ [] && host.all (fun x => domainByte x && lowerByte x = x) && !endsInNumber (withoutFinalDot host)

/-- Four numbers up to 255. -/
def dottedDecimal (host : Bytes) : Bool :=
  (host.splitOn dot).length = 4 &&
    (host.splitOn dot).all fun label => !label.isEmpty && label.all isDigit && digitsValue label ≤ 255

def dnsLength (host : Bytes) : Bool :=
  (withoutFinalDot host).length ≤ 253 &&
    ((withoutFinalDot host).splitOn dot).all fun label => 0 < label.length && label.length ≤ 63

theorem dnsLength_labels {host : Bytes} (h : dnsLength host = true) :
    ∀ label ∈ (withoutFinalDot host).splitOn dot, 0 < label.length ∧ label.length ≤ 63 := by
  intro label hlabel
  have hall := List.all_eq_true.mp (Bool.and_eq_true_iff.mp h).2 label hlabel
  rwa [Bool.and_eq_true, decide_eq_true_eq, decide_eq_true_eq] at hall

def plainRules : UrlRules where
  parseHost host := if plainHost host then some host else none
  hasValidDomain := dnsLength
  inetPton4 := dottedDecimal
  inetPton6 _ := false
  pathByte x := 32 < x.val && x.val < 127 && x ∉ ([34, 35, 60, 62, 63, 92, 94, 96, 123, 125] : Bytes)
  queryByte x := 32 < x.val && x.val < 127 && x ∉ ([34, 35, 39, 60, 62] : Bytes)
  host_stable text host h := by
    split at h
    · cases h
      rw [if_pos (by assumption)]
    · cases h
  host_form text host h := by
    split at h
    · rename_i hplain
      cases h
      refine Or.inr fun x hx => ?_
      have hall := List.all_eq_true.mp (Bool.and_eq_true_iff.mp (Bool.and_eq_true_iff.mp hplain).1).2 x hx
      exact (Bool.and_eq_true_iff.mp hall).1
    · cases h
  host_dot host hne hdot h := by
    split at h
    · rename_i hplain
      rw [if_pos]
      simp only [plainHost, withoutFinalDot_concat, List.all_append, Bool.and_eq_true] at hplain
      simp only [plainHost, withoutFinalDot_of_dotless hdot, hplain.1.2.1, hplain.2, Bool.and_true]
      exact decide_eq_true hne
    · cases h
  host_number host hnumber h := by
    split at h
    · rename_i hplain
      simp [plainHost, withoutFinalDot_concat, hnumber] at hplain
    · cases h
  domain_labels _ h := dnsLength_labels h
  domain_dot host h := by
    have hlabels := dnsLength_labels h
    rw [withoutFinalDot_concat] at hlabels
    rw [dnsLength, withoutFinalDot_concat] at h
    rwa [dnsLength, withoutFinalDot_of_dotless (dotless_of_labels fun label hl => (hlabels label hl).1)]
  pton4_number host h := by
    have hall := List.all_eq_true.mp (Bool.and_eq_true_iff.mp h).2
    rw [endsInNumber]
    cases hlast : (host.splitOn dot).getLast? with
    | none => exact absurd (List.getLast?_eq_none_iff.mp hlast) (List.splitOn_ne_nil _ _)
    | some label => exact (Bool.and_eq_true_iff.mp (hall label (List.mem_of_getLast? hlast))).1
  pton6_colon host h := by cases h
  pathByte_plain x h := by
    simp only [Bool.and_eq_true, decide_eq_true_eq] at h
    refine ⟨h.1.1, h.1.2, fun hmem => h.2 ?_⟩
    revert x
    decide +kernel
  queryByte_plain x h := by
    simp only [Bool.and_eq_true, decide_eq_true_eq] at h
    refine ⟨h.1.1, h.1.2, fun hmem => h.2 ?_⟩
    revert x
    decide +kernel

/-- The host ends at a slash or a question mark, the path at a question mark. -/
def cutUrl (rest : Bytes) : Bytes × Bytes × Option Bytes :=
  let hostname := rest.takeWhile fun x => x ≠ slash && x ≠ 63
  let behindHost := rest.drop hostname.length
  let pathname := behindHost.takeWhile (· ≠ 63)
  (hostname, pathname, match behindHost.drop pathname.length with
    | [] => none
    | _ :: query => some query)

theorem cutUrl_eq {hostname pathname : Bytes} (query : Option Bytes) (hhost : ∀ x ∈ hostname, domainByte x = true)
    (hhead : pathname = [] ∨ pathname.head? = some slash) (hpath : (63 : Byte) ∉ pathname) :
    cutUrl (hostname ++ (pathname ++ searchOf query)) = (hostname, pathname, query) := by
  have htail : (pathname ++ searchOf query).takeWhile (fun x => x ≠ slash && x ≠ 63) = [] := by
    cases pathname with
    | nil =>
      cases query with
      | none => rfl
      | some q => rfl
    | cons x pathname =>
      obtain rfl : x = slash := hhead.elim (fun h => nomatch h) Option.some.inj
      rfl
  have hhostname : (hostname ++ (pathname ++ searchOf query)).takeWhile (fun x => x ≠ slash && x ≠ 63) = hostname := by
    rw [List.takeWhile_append_of_pos, htail, List.append_nil]
    intro x hx
    obtain ⟨_, _, hslash, _, hmark, _⟩ := domainByte_spec (hhost x hx)
    rw [Bool.and_eq_true]
    exact ⟨decide_eq_true hslash, decide_eq_true hmark⟩
  have hsearch : (searchOf query).takeWhile (· ≠ 63) = [] := by
    cases query with
    | none => rfl
    | some q => rfl
  have hpathname : (pathname ++ searchOf query).takeWhile (· ≠ 63) = pathname := by
    rw [List.takeWhile_append_of_pos, hsearch, List.append_nil]
    intro x hx
    exact decide_eq_true fun h => hpath (h ▸ hx)
  simp only [cutUrl, hhostname, List.drop_left, hpathname]
  cases query with
  | none => rfl
  | some q => rfl

instance (rules : UrlRules) (hostname pathname : Bytes) (query : Option Bytes) :
    Decidable (HttpParts rules hostname pathname query) :=
  decidable_of_iff (rules.parseHost hostname = some hostname ∧ pathname.head? = some slash ∧
      (∀ x ∈ pathname, x = slash ∨ rules.pathByte x = true) ∧
      (∀ segment ∈ pathname.splitOn slash, isDotSegment segment = false) ∧
      ∀ q ∈ query, ∀ x ∈ q, rules.queryByte x = true)
    ⟨fun ⟨h1, h2, h3, h4, h5⟩ => ⟨h1, h2, h3, h4, h5⟩, fun ⟨h1, h2, h3, h4, h5⟩ => ⟨h1, h2, h3, h4, h5⟩⟩

/-- The URL of a scheme and the text behind it, if that is in standard form. -/
def standardUrl (scheme : Bytes) (cut : Bytes × Bytes × Option Bytes) : Option (Url plainRules) :=
  if h : HttpParts plainRules cut.1 (rooted cut.2.1) cut.2.2 then
    some ⟨scheme, [], [], cut.1, none, rooted cut.2.1, cut.2.2, none, fun _ => h⟩
  else none

def plainParse (text : Bytes) : Option (Url plainRules) :=
  if (ascii "http://").isPrefixOf text then standardUrl http (cutUrl (text.drop 7))
  else if (ascii "https://").isPrefixOf text then standardUrl https (cutUrl (text.drop 8))
  else none

theorem plainParse_eq {scheme : Bytes} (hscheme : scheme = http ∨ scheme = https) (rest : Bytes) :
    plainParse (scheme ++ ascii "://" ++ rest) = standardUrl scheme (cutUrl rest) := by
  rcases hscheme with rfl | rfl
  · rfl
  · rfl

theorem plainHost_bytes {host : Bytes} (h : plainRules.parseHost host = some host) :
    ∀ x ∈ host, domainByte x = true := by
  rcases plainRules.host_form host host h with ⟨_, _, haddress⟩ | hbytes
  · cases haddress
  · exact hbytes

def plainParser : UrlParser plainRules where
  parse := plainParse
  parse_standard scheme hostname pathname query parts hscheme := by
    have hpath : (63 : Byte) ∉ pathname := by
      intro hmem
      rcases parts.pathname_bytes 63 hmem with heq | hbyte
      · exact absurd heq (by decide)
      · exact (plainRules.pathByte_plain 63 hbyte).2.2 (by decide +kernel)
    obtain ⟨x, path, rfl⟩ := List.exists_cons_of_ne_nil (show pathname ≠ [] by
      intro hnil
      have habsolute := parts.pathname_absolute
      rw [hnil] at habsolute
      cases habsolute)
    rw [List.append_assoc, List.append_assoc, plainParse_eq hscheme,
      cutUrl_eq query (plainHost_bytes parts.host_parsed) (Or.inr parts.pathname_absolute) hpath]
    exact dif_pos parts
  parse_root scheme hostname hscheme hhost := by
    have hbytes := plainHost_bytes hhost
    have hbare := cutUrl_eq none hbytes (Or.inl rfl) List.not_mem_nil
    have hroot : cutUrl (hostname ++ ([slash] ++ searchOf none)) = (hostname, [slash], none) :=
      cutUrl_eq none hbytes (Or.inr rfl) (by decide)
    rw [searchOf, Option.elim_none, List.append_nil] at hbare hroot
    rw [List.append_nil] at hbare
    rw [plainParse_eq hscheme, List.append_assoc, plainParse_eq hscheme, hbare, hroot]
    rfl

end Webshot.Access
