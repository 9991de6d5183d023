import Webshot.Access.PlainUrls
import Webshot.Foundation.Splitting

/-! `Url::Surt`: the keys by which URLs are sorted, and what of a URL they keep apart. -/
namespace Webshot.Access
open Text Foundation.JsonText Foundation.Splitting

/-- `ada::scheme::get_special_port`. -/
def specialPort (scheme : Bytes) : Nat :=
  if scheme = http ∨ scheme = ascii "ws" then 80
  else if scheme = https ∨ scheme = ascii "wss" then 443
  else if scheme = ascii "ftp" then 21
  else 0

def withoutFinalDots (host : Bytes) : Bytes := host.rdropWhile (· = dot)

/-- The labels of a host from the last one to the first. -/
def surtLabels (host : Bytes) : Bytes := [comma].intercalate ((withoutFinalDots host).splitOn dot).reverse

namespace Url
variable {rules : UrlRules} (una : UniAlgo) (url : Url rules)

/-- `get_search`: a query that is empty counts as none. -/
def searchText : Bytes := if url.query = some [] then [] else url.search

def portText : Option Bytes := fromBytes una (url.port.getD [])

def pathWithSearch : Option Bytes :=
  fromBytes una ((if url.pathname = [] then [slash] else url.pathname) ++ url.searchText)

def hasNonDefaultPort : Option Bool :=
  if url.port = none then some false
  else if specialPort url.scheme = 0 then some true
  else do return (← url.portText una) ≠ (← fromBytes una (natText (specialPort url.scheme)))

/-- `Surt`; `none` is an abort. -/
def surt : Option Bytes := do
  if ¬ url.isHttpOrHttps then none
  else
    let hostText ← fromBytes una url.hostname
    let portText ← url.portText una
    let surtHost := surtLabels hostText
    let surtHost := if ← url.hasNonDefaultPort una then surtHost ++ (colon :: portText) else surtHost
    fromBytes una (surtHost ++ ascii ")" ++ (← url.pathWithSearch una))

/-- The port, where it is not the scheme's. -/
def nonDefaultPort : Option Bytes := url.port.filter (· ≠ natText (specialPort url.scheme))

end Url

/-- What the URL standard says of the serialized parts of a URL: an IPv6 address is written in hexadecimal digits and
colons, and a port in digits. -/
structure SurtStandard {rules : UrlRules} (parser : UrlParser rules) : Prop where
  address_bytes : ∀ text address, rules.parseHost text = some (91 :: (address ++ [93])) →
    ∀ x ∈ address, isAsciiAlnum x = true ∨ x = colon
  port_digits : ∀ text url port, parser.parse text = some url → url.port = some port → ∀ x ∈ port, isDigit x = true

section Labels
variable {host : Bytes}

theorem withoutFinalDots_subset : withoutFinalDots host ⊆ host := (List.rdropWhile_prefix _ host).subset

theorem mem_surtLabels {x : Byte} (h : x ∈ surtLabels host) : x = comma ∨ x ∈ host := by
  refine (mem_intercalate h).imp_right ?_
  rintro ⟨label, hlabel, hx⟩
  exact withoutFinalDots_subset ((mem_splitOn (List.mem_reverse.mp hlabel)).2 hx)

/-- Without commas in it, a host can be read off its labels. -/
theorem splitOn_surtLabels (h : comma ∉ host) :
    ((surtLabels host).splitOn comma).reverse = (withoutFinalDots host).splitOn dot := by
  have hlabels : ∀ label ∈ ((withoutFinalDots host).splitOn dot).reverse, comma ∉ label := fun label hlabel hcomma =>
    h (withoutFinalDots_subset ((mem_splitOn (List.mem_reverse.mp hlabel)).2 hcomma))
  rw [surtLabels, List.splitOn_intercalate comma hlabels (List.reverse_ne_nil_iff.mpr (List.splitOn_ne_nil dot _)),
    List.reverse_reverse]

theorem surtLabels_inj {other : Bytes} (h : comma ∉ host) (h' : comma ∉ other) :
    surtLabels host = surtLabels other ↔ withoutFinalDots host = withoutFinalDots other := by
  constructor
  · intro heq
    have hjoin : [dot].intercalate ((withoutFinalDots host).splitOn dot) = withoutFinalDots host :=
      List.intercalate_splitOn dot
    rw [← hjoin, ← splitOn_surtLabels h, heq, splitOn_surtLabels h', List.intercalate_splitOn]
  · intro heq
    rw [surtLabels, heq, surtLabels]

/-- A host without dots is its own label. -/
theorem surtLabels_dotless (h : dot ∉ host) : surtLabels host = host := by
  have hkept : withoutFinalDots host = host := by
    rw [withoutFinalDots, List.rdropWhile_eq_self_iff]
    exact fun hne hdot => h (of_decide_eq_true hdot ▸ List.getLast_mem hne)
  rw [surtLabels, hkept, List.splitOn_eq_singleton h]
  simp [List.intercalate]

end Labels

/-- The hosts of http(s) URLs: domains, and addresses in brackets. -/
inductive HostText : Bytes → Prop where
  | domain {host : Bytes} : (∀ x ∈ host, domainByte x = true) → HostText host
  | address {address : Bytes} : (∀ x ∈ address, isAsciiAlnum x = true ∨ x = colon) → HostText (91 :: (address ++ [93]))

/-- What may stand between the labels and the bracket. -/
def PortSuffix (suffix : Bytes) : Prop := suffix = [] ∨ ∃ port, suffix = colon :: port ∧ ∀ x ∈ port, isDigit x = true

section Keys

theorem alnum_spec {x : Byte} (h : isAsciiAlnum x = true ∨ x = colon) :
    x.val < 128 ∧ x ≠ slash ∧ x ≠ dot ∧ x ≠ 93 := by
  revert x
  decide +kernel

theorem digit_spec {x : Byte} (h : isDigit x = true) : x.val < 128 ∧ x ≠ slash := by
  obtain ⟨hascii, hslash, -, -⟩ := alnum_spec (Or.inl (by rw [isAsciiAlnum, h, Bool.or_true]))
  exact ⟨hascii, hslash⟩

variable {host suffix : Bytes}

theorem address_labels {address : Bytes} (h : ∀ x ∈ address, isAsciiAlnum x = true ∨ x = colon) :
    surtLabels (91 :: (address ++ [93])) = 91 :: address ++ [93] := by
  apply surtLabels_dotless
  intro hdot
  rcases List.mem_cons.mp hdot with hdot | hdot
  · exact absurd hdot (by decide)
  · rcases List.mem_append.mp hdot with hdot | hdot
    · exact (alnum_spec (h dot hdot)).2.2.1 rfl
    · exact absurd hdot (by decide)

theorem address_bracket {address : Bytes} (h : ∀ x ∈ address, isAsciiAlnum x = true ∨ x = colon) :
    93 ∉ 91 :: address := by
  intro hmem
  rcases List.mem_cons.mp hmem with hmem | hmem
  · exact absurd hmem (by decide)
  · exact (alnum_spec (h 93 hmem)).2.2.2 rfl

theorem domain_labels (h : ∀ x ∈ host, domainByte x = true) {x : Byte} (hx : x ∈ surtLabels host) :
    x.val < 128 ∧ x ≠ slash ∧ x ≠ colon ∧ x ≠ 91 := by
  rcases mem_surtLabels hx with rfl | hx
  · decide
  · obtain ⟨-, hascii, hslash, hcolon, -, hbracket⟩ := domainByte_spec (h x hx)
    exact ⟨hascii.trans (by decide), hslash, hcolon, hbracket⟩

theorem HostText.labels_bytes (h : HostText host) : ∀ x ∈ surtLabels host, x.val < 128 ∧ x ≠ slash := by
  intro x hx
  cases h with
  | domain hbytes =>
    obtain ⟨hascii, hslash, -, -⟩ := domain_labels hbytes hx
    exact ⟨hascii, hslash⟩
  | address hbytes =>
    rw [address_labels hbytes, List.cons_append, List.mem_cons, List.mem_append, List.mem_singleton] at hx
    rcases hx with rfl | hx | rfl
    · decide
    · obtain ⟨hascii, hslash, -, -⟩ := alnum_spec (hbytes x hx)
      exact ⟨hascii, hslash⟩
    · decide

theorem HostText.ascii (h : HostText host) : IsAscii host := by
  intro x hx
  cases h with
  | domain hbytes => exact (domainByte_spec (hbytes x hx)).2.1.trans (by decide)
  | address hbytes =>
    rw [List.mem_cons, List.mem_append, List.mem_singleton] at hx
    rcases hx with rfl | hx | rfl
    · decide
    · exact (alnum_spec (hbytes x hx)).1
    · decide

theorem PortSuffix.bytes (h : PortSuffix suffix) : ∀ x ∈ suffix, x.val < 128 ∧ x ≠ slash := by
  rcases h with rfl | ⟨port, rfl, hdigits⟩
  · exact fun x hx => absurd hx List.not_mem_nil
  · intro x hx
    rcases List.mem_cons.mp hx with rfl | hx
    · decide
    · exact digit_spec (hdigits x hx)

theorem PortSuffix.head (h : PortSuffix suffix) : suffix = [] ∨ suffix.head? = some colon := by
  rcases h with rfl | ⟨port, rfl, -⟩
  · exact .inl rfl
  · exact .inr rfl

/-- No labels of a domain look like an address. -/
theorem domain_ne_address {address rest : Bytes} (hs : PortSuffix suffix) (h : ∀ x ∈ host, domainByte x = true)
    (heq : surtLabels host ++ suffix = 91 :: address ++ [93] ++ rest) : False := by
  cases hlabels : surtLabels host with
  | nil =>
    rw [hlabels, List.nil_append] at heq
    rcases hs with rfl | ⟨port, rfl, -⟩
    · cases heq
    · exact absurd (List.cons.inj heq).1 (by decide)
  | cons x labels =>
    rw [hlabels] at heq
    have hx : x ∈ surtLabels host := hlabels ▸ List.mem_cons_self
    exact (domain_labels h hx).2.2.2 (List.cons.inj heq).1

/-- Where the labels end can be seen. -/
theorem HostText.suffix_inj {host' suffix' : Bytes} (h : HostText host) (h' : HostText host') (hs : PortSuffix suffix)
    (hs' : PortSuffix suffix') (heq : surtLabels host ++ suffix = surtLabels host' ++ suffix') :
    surtLabels host = surtLabels host' ∧ suffix = suffix' := by
  cases h with
  | domain hbytes =>
    cases h' with
    | domain hbytes' =>
      exact append_inj_of_notMem (fun hmem => (domain_labels hbytes hmem).2.2.1 rfl)
        (fun hmem => (domain_labels hbytes' hmem).2.2.1 rfl) hs.head hs'.head heq
    | address hbytes' =>
      rw [address_labels hbytes'] at heq
      exact (domain_ne_address hs hbytes heq).elim
  | address hbytes =>
    cases h' with
    | domain hbytes' =>
      rw [address_labels hbytes] at heq
      exact (domain_ne_address hs' hbytes' heq.symm).elim
    | address hbytes' =>
      rw [address_labels hbytes, address_labels hbytes', List.append_assoc, List.append_assoc] at heq
      obtain ⟨haddress, hrest⟩ :=
        append_inj_of_notMem (address_bracket hbytes) (address_bracket hbytes') (.inr rfl) (.inr rfl) heq
      exact ⟨by rw [address_labels hbytes, address_labels hbytes', haddress], (List.cons.inj hrest).2⟩

end Keys

section Parsed
variable {rules : UrlRules} {parser : UrlParser rules} (una : UniAlgo)

/-- An http(s) URL as it is parsed. -/
structure IsParsed (parser : UrlParser rules) (url : Url rules) : Prop where
  parsed : ∃ text, parser.parse text = some url
  scheme : url.isHttpOrHttps

def portSuffix (url : Url rules) : Bytes := url.nonDefaultPort.elim [] (colon :: ·)

variable {url : Url rules} (standard : SurtStandard parser) (h : IsParsed parser url)
include standard h

theorem IsParsed.hostText : HostText url.hostname := by
  have hparsed := (url.standard h.scheme).host_parsed
  rcases rules.host_form _ _ hparsed with ⟨address, haddress, -⟩ | hbytes
  · rw [haddress] at hparsed ⊢
    exact .address (standard.address_bytes _ address hparsed)
  · exact .domain hbytes

theorem IsParsed.port_digits : ∀ port ∈ url.port, ∀ x ∈ port, isDigit x = true := by
  obtain ⟨text, htext⟩ := h.parsed
  exact fun port hport => standard.port_digits text url port htext hport

theorem IsParsed.suffix : PortSuffix (portSuffix url) := by
  cases hport : url.nonDefaultPort with
  | none => exact .inl (by rw [portSuffix, hport]; rfl)
  | some port =>
    refine .inr ⟨port, by rw [portSuffix, hport]; rfl, ?_⟩
    exact h.port_digits standard port (Option.filter_eq_some_iff.mp hport).1

theorem IsParsed.portText : url.portText una = some (url.port.getD []) := by
  refine fromBytes_ascii una fun x hx => ?_
  cases hport : url.port with
  | none =>
    rw [hport] at hx
    exact absurd hx List.not_mem_nil
  | some port =>
    rw [hport] at hx
    exact (digit_spec (h.port_digits standard port hport x hx)).1

theorem IsParsed.hasNonDefaultPort : url.hasNonDefaultPort una = some url.nonDefaultPort.isSome := by
  have hspecial : specialPort url.scheme ≠ 0 := by
    rcases h.scheme with hscheme | hscheme <;> rw [hscheme] <;> decide
  have hdigits : IsAscii (natText (specialPort url.scheme)) :=
    fun x hx => (digit_spec ((natText_digits _).1 x hx)).1
  cases hport : url.port with
  | none =>
    have hnone : url.nonDefaultPort = none := by rw [Url.nonDefaultPort, hport]; rfl
    rw [Url.hasNonDefaultPort, if_pos hport, hnone]
    rfl
  | some port =>
    have hisSome : url.nonDefaultPort.isSome = decide (port ≠ natText (specialPort url.scheme)) := by
      rw [Url.nonDefaultPort, hport, Option.filter_some]
      by_cases hdefault : port = natText (specialPort url.scheme) <;> simp [hdefault]
    rw [Url.hasNonDefaultPort, if_neg (by rw [hport]; exact Option.some_ne_none _), if_neg hspecial,
      h.portText una standard, fromBytes_ascii una hdigits, hport, hisSome]
    rfl

omit standard in
theorem IsParsed.pathText_ascii : IsAscii (url.pathname ++ url.searchText) := by
  have hparts := url.standard h.scheme
  refine IsAscii.append (fun x hx => ?_) ?_
  · rcases hparts.pathname_bytes x hx with rfl | hx
    · decide
    · exact (rules.pathByte_plain x hx).2.1.trans (by decide)
  · rw [Url.searchText, Url.search]
    split
    · exact fun x hx => absurd hx List.not_mem_nil
    · cases hquery : url.query with
      | none => exact fun x hx => absurd hx List.not_mem_nil
      | some q =>
        have hmark : IsAscii (ascii "?") := .ofList rfl
        have hbytes : IsAscii q := fun x hx =>
          (rules.queryByte_plain x (hparts.query_bytes q hquery x hx)).2.1.trans (by decide)
        exact hmark.append hbytes

omit standard in
theorem IsParsed.pathWithSearch : url.pathWithSearch una = some (url.pathname ++ url.searchText) := by
  have hne : url.pathname ≠ [] := by
    intro hnil
    have habsolute := (url.standard h.scheme).pathname_absolute
    rw [hnil] at habsolute
    cases habsolute
  rw [Url.pathWithSearch, if_neg hne]
  exact fromBytes_ascii una h.pathText_ascii

/-- The text in front of the bracket. -/
def hostPort (url : Url rules) : Bytes := surtLabels url.hostname ++ portSuffix url

theorem IsParsed.hostPort_bytes : ∀ x ∈ hostPort url, x.val < 128 ∧ x ≠ slash := by
  intro x hx
  rcases List.mem_append.mp hx with hx | hx
  · exact (h.hostText standard).labels_bytes x hx
  · exact (h.suffix standard).bytes x hx

/-- The parts of the key. -/
theorem IsParsed.surt_eq : url.surt una = some (hostPort url ++ ascii ")" ++ (url.pathname ++ url.searchText)) := by
  have hhost := fromBytes_ascii una (h.hostText standard).ascii
  have hbefore : IsAscii (hostPort url) := fun x hx => (h.hostPort_bytes standard x hx).1
  have hbracket : IsAscii (ascii ")") := .ofList rfl
  have hkey := fromBytes_ascii una ((hbefore.append hbracket).append h.pathText_ascii)
  have hjoined : (if url.nonDefaultPort.isSome = true then surtLabels url.hostname ++ (colon :: url.port.getD [])
      else surtLabels url.hostname) = hostPort url := by
    cases hport : url.nonDefaultPort with
    | none =>
      rw [hostPort, portSuffix, hport]
      exact (List.append_nil _).symm
    | some port =>
      rw [hostPort, portSuffix, hport, (Option.filter_eq_some_iff.mp hport).1]
      rfl
  rw [Url.surt, if_neg (not_not_intro h.scheme)]
  simp only [hhost, h.portText una standard, h.hasNonDefaultPort una standard, h.pathWithSearch una,
    Option.bind_eq_bind, Option.bind_some, hjoined, hkey]

end Parsed

section Pairs
variable {rules : UrlRules} {parser : UrlParser rules} (una : UniAlgo) {u v : Url rules}

theorem portSuffix_inj : portSuffix u = portSuffix v ↔ u.nonDefaultPort = v.nonDefaultPort := by
  constructor
  · intro h
    unfold portSuffix at h
    cases hu : u.nonDefaultPort with
    | none =>
      cases hv : v.nonDefaultPort with
      | none => rfl
      | some port =>
        rw [hu, hv] at h
        cases h
    | some port =>
      cases hv : v.nonDefaultPort with
      | none =>
        rw [hu, hv] at h
        cases h
      | some port' =>
        rw [hu, hv] at h
        exact congrArg some (List.cons.inj h).2
  · intro h
    rw [portSuffix, h, portSuffix]

theorem searchText_head (u : Url rules) : u.searchText = [] ∨ u.searchText.head? = some 63 := by
  unfold Url.searchText Url.search
  split
  · exact .inl rfl
  · cases u.query with
    | none => exact .inl rfl
    | some q => exact .inr rfl

variable (standard : SurtStandard parser) (hu : IsParsed parser u) (hv : IsParsed parser v)

omit v in
theorem IsParsed.path_mark (hu : IsParsed parser u) : 63 ∉ u.pathname := by
  intro hmem
  rcases (u.standard hu.scheme).pathname_bytes 63 hmem with heq | hbyte
  · exact absurd heq (by decide)
  · exact (rules.pathByte_plain 63 hbyte).2.2 (by decide)

include standard hu hv

theorem hostPort_inj : hostPort u = hostPort v ↔
    surtLabels u.hostname = surtLabels v.hostname ∧ u.nonDefaultPort = v.nonDefaultPort := by
  constructor
  · intro h
    obtain ⟨hlabels, hsuffix⟩ := (hu.hostText standard).suffix_inj (hv.hostText standard) (hu.suffix standard)
      (hv.suffix standard) h
    exact ⟨hlabels, portSuffix_inj.mp hsuffix⟩
  · rintro ⟨hlabels, hport⟩
    rw [hostPort, hlabels, portSuffix_inj.mpr hport, hostPort]

/-- A key is read up to its first slash, from there to the first question mark, and to its end. -/
theorem keyParts_inj :
    hostPort u ++ ascii ")" ++ (u.pathname ++ u.searchText) = hostPort v ++ ascii ")" ++ (v.pathname ++ v.searchText) ↔
      hostPort u = hostPort v ∧ u.pathname = v.pathname ∧ u.searchText = v.searchText := by
  have hbefore : ∀ w, IsParsed parser w → slash ∉ hostPort w ++ ascii ")" := by
    intro w hw hmem
    rcases List.mem_append.mp hmem with hmem | hmem
    · exact (hw.hostPort_bytes standard slash hmem).2 rfl
    · exact absurd hmem (by decide)
  have hbehind : ∀ w, IsParsed parser w → (w.pathname ++ w.searchText).head? = some slash := by
    intro w hw
    rw [List.head?_append, (w.standard hw.scheme).pathname_absolute]
    rfl
  constructor
  · intro h
    obtain ⟨hhost, hpath⟩ :=
      append_inj_of_notMem (hbefore u hu) (hbefore v hv) (.inr (hbehind u hu)) (.inr (hbehind v hv)) h
    exact ⟨List.append_cancel_right hhost,
      append_inj_of_notMem hu.path_mark hv.path_mark (searchText_head u) (searchText_head v) hpath⟩
  · rintro ⟨hhost, hpath, hsearch⟩
    rw [hhost, hpath, hsearch]

/-- Every page has a key. Pages with the same key have the same port, path and query, and two pages whose hosts hold no
comma have the same key exactly if they also have the same host, final dots aside. -/
theorem surt_separates : ∃ key key', u.surt una = some key ∧ v.surt una = some key' ∧
    (key = key' → u.nonDefaultPort = v.nonDefaultPort ∧ u.pathname = v.pathname ∧ u.searchText = v.searchText) ∧
    (comma ∉ u.hostname → comma ∉ v.hostname → (key = key' ↔
      withoutFinalDots u.hostname = withoutFinalDots v.hostname ∧ u.nonDefaultPort = v.nonDefaultPort ∧
        u.pathname = v.pathname ∧ u.searchText = v.searchText)) := by
  refine ⟨_, _, hu.surt_eq una standard, hv.surt_eq una standard, ?_, ?_⟩
  · rw [keyParts_inj standard hu hv, hostPort_inj standard hu hv]
    rintro ⟨⟨-, hport⟩, hpath, hsearch⟩
    exact ⟨hport, hpath, hsearch⟩
  · intro hcomma hcomma'
    rw [keyParts_inj standard hu hv, hostPort_inj standard hu hv, surtLabels_inj hcomma hcomma', and_assoc]

end Pairs

theorem plainParser_standard : SurtStandard plainParser where
  address_bytes text address h := by
    have hbytes := plainHost_bytes (plainRules.host_stable _ _ h) 91 List.mem_cons_self
    exact absurd hbytes (by decide)
  port_digits text url port h hport := by
    have hnone : ∀ scheme cut, standardUrl scheme cut = some url → url.port = none := by
      intro scheme cut hurl
      unfold standardUrl at hurl
      split at hurl
      · cases hurl
        rfl
      · cases hurl
    have hstandard : url.port = none := by
      change plainParse text = some url at h
      unfold plainParse at h
      split at h
      · exact hnone _ _ h
      · split at h
        · exact hnone _ _ h
        · cases h
    rw [hstandard] at hport
    cases hport

/-- A page in the root of a host, by the plain parser. -/
def rootUrl (hostname : Bytes) (query : Option Bytes) (parts : HttpParts plainRules hostname [slash] query) :
    Url plainRules := ⟨http, [], [], hostname, none, [slash], query, none, fun _ => parts⟩

theorem rootUrl_parsed {hostname : Bytes} {query : Option Bytes} (parts : HttpParts plainRules hostname [slash] query) :
    plainParser.parse (http ++ ascii "://" ++ hostname ++ [slash] ++ searchOf query) =
      some (rootUrl hostname query parts) :=
  plainParser.parse_standard http hostname [slash] query parts (.inl rfl)

theorem rootUrl_surt {hostname : Bytes} {query : Option Bytes} (parts : HttpParts plainRules hostname [slash] query) :
    (rootUrl hostname query parts).surt asciiUna =
      some (surtLabels hostname ++ ascii ")" ++ ([slash] ++ if query = some [] then [] else searchOf query)) := by
  have hparsed : IsParsed plainParser (rootUrl hostname query parts) := ⟨⟨_, rootUrl_parsed parts⟩, .inl rfl⟩
  have hport : portSuffix (rootUrl hostname query parts) = [] := rfl
  rw [hparsed.surt_eq asciiUna plainParser_standard, hostPort, hport, List.append_nil]
  rfl

/-- Two hosts that differ keep their pages apart. -/
theorem surt_separates_sample :
    ∃ u v, plainParser.parse (ascii "http://b.a/") = some u ∧ plainParser.parse (ascii "http://a.b/") = some v ∧
      u.surt asciiUna ≠ v.surt asciiUna := by
  have hba : HttpParts plainRules (ascii "b.a") [slash] none := by decide +kernel
  have hab : HttpParts plainRules (ascii "a.b") [slash] none := by decide +kernel
  have htexts : ascii "http://b.a/" = http ++ ascii "://" ++ ascii "b.a" ++ [slash] ++ searchOf none ∧
      ascii "http://a.b/" = http ++ ascii "://" ++ ascii "a.b" ++ [slash] ++ searchOf none := by decide
  refine ⟨rootUrl _ _ hba, rootUrl _ _ hab, htexts.1 ▸ rootUrl_parsed hba, htexts.2 ▸ rootUrl_parsed hab, ?_⟩
  obtain ⟨key, key', hkey, hkey', -, hiff⟩ :=
    surt_separates asciiUna plainParser_standard ⟨⟨_, rootUrl_parsed hba⟩, .inl rfl⟩ ⟨⟨_, rootUrl_parsed hab⟩, .inl rfl⟩
  have hhosts : comma ∉ ascii "b.a" ∧ comma ∉ ascii "a.b" ∧
      withoutFinalDots (ascii "b.a") ≠ withoutFinalDots (ascii "a.b") := by decide
  rw [hkey, hkey', Ne, Option.some.injEq, hiff hhosts.1 hhosts.2.1]
  exact fun h => hhosts.2.2 h.1

/-- `http://a,b/` and `http://b.a/` have one key, and so have `http://a/?` and `http://a/`. -/
theorem surt_collisions :
    (∃ u v, plainParser.parse (ascii "http://a,b/") = some u ∧ plainParser.parse (ascii "http://b.a/") = some v ∧
      u.surt asciiUna = some (ascii "a,b)/") ∧ v.surt asciiUna = some (ascii "a,b)/") ∧
      withoutFinalDots u.hostname ≠ withoutFinalDots v.hostname) ∧
    ∃ u v, plainParser.parse (ascii "http://a/?") = some u ∧ plainParser.parse (ascii "http://a/") = some v ∧
      u.surt asciiUna = some (ascii "a)/") ∧ v.surt asciiUna = some (ascii "a)/") ∧ u.query ≠ v.query := by
  have hcomma : HttpParts plainRules (ascii "a,b") [slash] none := by decide +kernel
  have hdot : HttpParts plainRules (ascii "b.a") [slash] none := by decide +kernel
  have hempty : HttpParts plainRules (ascii "a") [slash] (some []) := by decide +kernel
  have hnone : HttpParts plainRules (ascii "a") [slash] none := by decide +kernel
  have htexts : ascii "http://a,b/" = http ++ ascii "://" ++ ascii "a,b" ++ [slash] ++ searchOf none ∧
      ascii "http://b.a/" = http ++ ascii "://" ++ ascii "b.a" ++ [slash] ++ searchOf none ∧
      ascii "http://a/?" = http ++ ascii "://" ++ ascii "a" ++ [slash] ++ searchOf (some []) ∧
      ascii "http://a/" = http ++ ascii "://" ++ ascii "a" ++ [slash] ++ searchOf none := by decide
  obtain ⟨htext₁, htext₂, htext₃, htext₄⟩ := htexts
  constructor
  · refine ⟨rootUrl _ _ hcomma, rootUrl _ _ hdot, htext₁ ▸ rootUrl_parsed hcomma, htext₂ ▸ rootUrl_parsed hdot,
      ?_, ?_, ?_⟩
    · exact (rootUrl_surt hcomma).trans rfl
    · exact (rootUrl_surt hdot).trans rfl
    · change withoutFinalDots (ascii "a,b") ≠ withoutFinalDots (ascii "b.a")
      decide
  · refine ⟨rootUrl _ _ hempty, rootUrl _ _ hnone, htext₃ ▸ rootUrl_parsed hempty, htext₄ ▸ rootUrl_parsed hnone,
      ?_, ?_, ?_⟩
    · exact (rootUrl_surt hempty).trans rfl
    · exact (rootUrl_surt hnone).trans rfl
    · change some [] ≠ (none : Option Bytes)
      decide

end Webshot.Access
