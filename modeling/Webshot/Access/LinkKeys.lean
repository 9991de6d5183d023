import Webshot.Access.PlainUrls
import Webshot.Access.PrefixKeys

/-! What the keys and URLs of accepted links keep of them: reading a key again, the query, and the prefix key. -/
namespace Webshot.Access
open Text Storage Foundation.JsonText Foundation.Occurrences Foundation.Splitting

/-- The path that stays in a key: the slash is consumed behind a path without query. -/
def keptPath (pathname : Bytes) (query : Option Bytes) : Bytes := if query.isNone then consumeSlash pathname else pathname

/-- The query that stays in a key. -/
def keptQuery (query : Option Bytes) : Option Bytes := query.map consumeSlash

section Slashes
variable {a b : Bytes}

theorem consumeSlash_concat (a : Bytes) : consumeSlash (a ++ [slash]) = a := by
  rw [consumeSlash, List.getLast?_concat, if_pos rfl, List.dropLast_concat]

theorem consumeSlash_of_ne (h : a.getLast? ≠ some slash) : consumeSlash a = a := if_neg h

theorem consumeSlash_eq_self_iff : consumeSlash a = a ↔ a.getLast? ≠ some slash := by
  constructor
  · intro h hlast
    obtain ⟨b, rfl⟩ := List.getLast?_eq_some_iff.mp hlast
    rw [consumeSlash_concat] at h
    have hlength := congrArg List.length h
    rw [List.length_append, List.length_singleton] at hlength
    omega
  · exact consumeSlash_of_ne

/-- Consuming once more changes a text with two slashes at its end. -/
theorem consumeSlash_twice_iff : consumeSlash (consumeSlash a) = consumeSlash a ↔ ¬ [slash, slash] <:+ a := by
  rw [consumeSlash_eq_self_iff, not_iff_not]
  by_cases hlast : a.getLast? = some slash
  · obtain ⟨b, rfl⟩ := List.getLast?_eq_some_iff.mp hlast
    rw [consumeSlash_concat, List.getLast?_eq_some_iff]
    constructor
    · rintro ⟨c, rfl⟩
      exact ⟨c, by rw [List.append_assoc]; rfl⟩
    · rintro ⟨c, hc⟩
      refine ⟨c, ?_⟩
      have hsplit : c ++ [slash] ++ [slash] = b ++ [slash] := by
        rw [List.append_assoc]
        exact hc
      exact (List.append_cancel_right hsplit).symm
  · rw [consumeSlash_of_ne hlast]
    refine iff_of_false hlast ?_
    rintro ⟨c, rfl⟩
    exact hlast (by simp)

/-- Two texts lose their difference if it is the slash at the end. -/
theorem consumeSlash_eq_iff (hne : a ≠ b) : consumeSlash a = consumeSlash b ↔
    ∃ s, s.getLast? ≠ some slash ∧ (a = s ++ [slash] ∧ b = s ∨ a = s ∧ b = s ++ [slash]) := by
  constructor
  · intro h
    by_cases ha : a.getLast? = some slash
    · obtain ⟨s, rfl⟩ := List.getLast?_eq_some_iff.mp ha
      rw [consumeSlash_concat] at h
      by_cases hb : b.getLast? = some slash
      · obtain ⟨t, rfl⟩ := List.getLast?_eq_some_iff.mp hb
        rw [consumeSlash_concat] at h
        exact absurd (by rw [h]) hne
      · rw [consumeSlash_of_ne hb] at h
        exact ⟨s, h ▸ hb, Or.inl ⟨rfl, h.symm⟩⟩
    · rw [consumeSlash_of_ne ha] at h
      by_cases hb : b.getLast? = some slash
      · obtain ⟨t, rfl⟩ := List.getLast?_eq_some_iff.mp hb
        rw [consumeSlash_concat] at h
        exact ⟨t, h ▸ ha, Or.inr ⟨h, rfl⟩⟩
      · rw [consumeSlash_of_ne hb] at h
        exact absurd h hne
  · rintro ⟨s, hs, ⟨rfl, rfl⟩ | ⟨rfl, rfl⟩⟩
    · rw [consumeSlash_concat, consumeSlash_of_ne hs]
    · rw [consumeSlash_concat, consumeSlash_of_ne hs]

theorem consumeSlash_length_le (a : Bytes) : (consumeSlash a).length ≤ a.length := by
  unfold consumeSlash
  split
  · rw [List.length_dropLast]
    exact Nat.sub_le _ _
  · exact le_rfl

/-- What stays of path and query, together. -/
theorem consumeSlash_parts (pathname : Bytes) (query : Option Bytes) :
    consumeSlash (pathname ++ searchOf query) = keptPath pathname query ++ searchOf (keptQuery query) := by
  cases query with
  | none =>
    simp only [searchOf, keptPath, keptQuery, Option.elim_none, Option.map_none, List.append_nil, Option.isNone_none,
      if_true]
  | some q =>
    have hmark : consumeSlash (ascii "?" ++ q) = ascii "?" ++ consumeSlash q := by
      cases q with
      | nil => decide
      | cons x q => exact consumeSlash_append _ (List.cons_ne_nil x q)
    have hne : ascii "?" ++ q ≠ [] := List.append_ne_nil_of_left_ne_nil (by decide) q
    simp only [searchOf, keptPath, keptQuery, Option.elim_some, Option.map_some, Option.isNone_some,
      Bool.false_eq_true, if_false]
    rw [consumeSlash_append _ hne, hmark]

end Slashes

section Keys
variable {rules : UrlRules} {una : UniAlgo} {parser : UrlParser rules} {urlBytesMax : Nat} {link : Link}

theorem serializeHref_ascii (link : Link) {scheme : Bytes} (h : IsAscii scheme) :
    IsAscii (serializeHref link scheme) :=
  (link.href_ascii h).of_subset (consumeSlash_subset _)

theorem toKey_eq (una : UniAlgo) (link : Link) : link.toKey una =
    some (link.hostname ++ (keptPath link.pathname link.query ++ searchOf (keptQuery link.query))) := by
  have hdrop : (serializeHref link (ascii "http")).drop (ascii "http://").length =
      link.hostname ++ consumeSlash (link.pathname ++ searchOf link.query) := by
    rw [serializeHref_eq]
    exact List.drop_left
  have hascii : IsAscii ((serializeHref link (ascii "http")).drop (ascii "http://").length) :=
    (serializeHref_ascii link (.ofList rfl)).of_subset (List.drop_subset _ _)
  rw [Link.toKey, fromBytes_ascii una hascii, hdrop, consumeSlash_parts]

theorem serializeHref_key {key : Bytes} (hkey : link.toKey una = some key) (scheme : Bytes) :
    serializeHref link scheme = scheme ++ ascii "://" ++ key := by
  rw [toKey_eq] at hkey
  cases hkey
  rw [serializeHref_eq, consumeSlash_parts]

/-- The URLs of a link are its key behind the scheme. -/
theorem schemeUrl_eq {key scheme : Bytes} (hscheme : IsAscii scheme) (hkey : link.toKey una = some key) :
    fromBytes una (serializeHref link scheme) = some (scheme ++ ascii "://" ++ key) := by
  rw [fromBytes_ascii una (serializeHref_ascii link hscheme), serializeHref_key hkey]

/-- The kept path is the path itself, or the path without its last slash. -/
theorem rooted_keptPath (link : Link) : rooted (keptPath link.pathname link.query) = link.pathname ∨
    ∃ b, b ≠ [] ∧ link.pathname = b ++ [slash] ∧ rooted (keptPath link.pathname link.query) = b := by
  have hself : rooted link.pathname = link.pathname := by
    cases hp : link.pathname with
    | nil => exact absurd hp link.pathname_ne_nil
    | cons x path => rfl
  cases hq : link.query with
  | some q => exact Or.inl hself
  | none =>
    have hkept : keptPath link.pathname none = consumeSlash link.pathname := if_pos rfl
    rw [hkept]
    by_cases hlast : link.pathname.getLast? = some slash
    · obtain ⟨b, hb⟩ := List.getLast?_eq_some_iff.mp hlast
      rw [hb, consumeSlash_concat]
      cases b with
      | nil => exact Or.inl rfl
      | cons x b => exact Or.inr ⟨x :: b, List.cons_ne_nil x b, rfl, rfl⟩
    · rw [consumeSlash_of_ne hlast]
      exact Or.inl hself

/-- What a key keeps is in standard form again. -/
theorem kept_standard (h : HttpParts rules link.hostname link.pathname link.query) :
    HttpParts rules link.hostname (rooted (keptPath link.pathname link.query)) (keptQuery link.query) := by
  have hquery : ∀ q ∈ keptQuery link.query, ∀ x ∈ q, rules.queryByte x = true := by
    intro q hq x hx
    obtain ⟨q', hq', rfl⟩ := Option.map_eq_some_iff.mp hq
    exact h.query_bytes q' hq' x (consumeSlash_subset q' hx)
  obtain heq | ⟨b, hne, hpath, heq⟩ := rooted_keptPath link
  · rw [heq]
    exact { h with query_bytes := hquery }
  · rw [heq]
    refine ⟨h.host_parsed, ?_, ?_, ?_, hquery⟩
    · obtain ⟨x, b, rfl⟩ := List.exists_cons_of_ne_nil hne
      have habsolute := h.pathname_absolute
      rw [hpath] at habsolute
      exact habsolute
    · intro x hx
      exact h.pathname_bytes x (hpath ▸ List.mem_append_left _ hx)
    · intro segment hsegment
      apply h.no_dots
      rw [hpath, List.splitOn_append_cons_self]
      exact List.mem_append_left _ hsegment

theorem parse_rooted (parser : UrlParser rules) {scheme hostname pathname : Bytes} {query : Option Bytes}
    (hscheme : scheme = http ∨ scheme = https) (parts : HttpParts rules hostname (rooted pathname) query)
    (hquery : pathname = [] → query = none) :
    parser.parse (scheme ++ ascii "://" ++ (hostname ++ (pathname ++ searchOf query))) =
      some ⟨scheme, [], [], hostname, none, rooted pathname, query, none, fun _ => parts⟩ := by
  rw [← List.append_assoc, ← List.append_assoc]
  cases pathname with
  | nil =>
    cases hquery rfl
    have hstandard := parser.parse_standard scheme hostname [slash] none parts hscheme
    rw [searchOf, Option.elim_none, List.append_nil] at hstandard
    rw [searchOf, Option.elim_none, List.append_nil, List.append_nil, parser.parse_root scheme hostname hscheme
      parts.host_parsed]
    exact hstandard
  | cons x pathname => exact parser.parse_standard scheme hostname (x :: pathname) query parts hscheme

/-- Reading the key of a link behind a scheme gives what the key keeps. -/
theorem parse_kept (parser : UrlParser rules) {scheme key : Bytes} (hscheme : scheme = http ∨ scheme = https)
    (parts : HttpParts rules link.hostname link.pathname link.query) (hkey : link.toKey una = some key) :
    parser.parse (scheme ++ ascii "://" ++ key) = some ⟨scheme, [], [], link.hostname, none,
      rooted (keptPath link.pathname link.query), keptQuery link.query, none, fun _ => kept_standard parts⟩ := by
  rw [toKey_eq] at hkey
  cases hkey
  apply parse_rooted parser hscheme
  intro hnil
  cases hq : link.query with
  | none => rfl
  | some q =>
    rw [hq] at hnil
    exact absurd hnil link.pathname_ne_nil

/-- Behind the host, a key ends or goes on with a slash. -/
theorem kept_head (link : Link) : keptPath link.pathname link.query ++ searchOf (keptQuery link.query) = [] ∨
    (keptPath link.pathname link.query ++ searchOf (keptQuery link.query)).head? = some slash := by
  have habsolute : (rooted (keptPath link.pathname link.query)).head? = some slash := by
    have hpath := link.pathname_absolute
    obtain heq | ⟨b, hne, hb, heq⟩ := rooted_keptPath link
    · rw [heq, hpath]
    · obtain ⟨x, b, rfl⟩ := List.exists_cons_of_ne_nil hne
      rw [hb] at hpath
      rw [heq]
      exact hpath
  cases hkept : keptPath link.pathname link.query with
  | nil =>
    cases hq : link.query with
    | none => exact Or.inl rfl
    | some q =>
      rw [hq] at hkept
      exact absurd hkept link.pathname_ne_nil
  | cons x path =>
    rw [hkept] at habsolute
    exact Or.inr habsolute

theorem isValidScheme_of_slash {scheme : Bytes} (h : slash ∈ scheme) : isValidScheme scheme = false := by
  cases scheme with
  | nil => exact absurd h List.not_mem_nil
  | cons first rest =>
    rw [isValidScheme]
    rcases List.mem_cons.mp h with rfl | h
    · rfl
    · rw [Bool.and_eq_false_iff, List.all_eq_false]
      exact Or.inr ⟨slash, h, by decide⟩

/-- The first `://` of a key stands behind a slash. -/
theorem slash_before_mark {host tail : Bytes} (hhost : (58 : Byte) ∉ host)
    (htail : tail = [] ∨ tail.head? = some slash) {i : Nat}
    (h : firstIndex (ascii "://") (host ++ tail) = some i) : slash ∈ (host ++ tail).take i := by
  obtain ⟨rest, hrest⟩ := (firstIndex_spec h).1
  have hcolon : (host ++ tail)[i]? = some 58 := by
    rw [← Nat.add_zero i, ← List.getElem?_drop, ← hrest]
    rfl
  by_cases hlt : i < host.length
  · rw [List.getElem?_append_left hlt] at hcolon
    exact absurd (List.mem_of_getElem? hcolon) hhost
  · rw [List.getElem?_append_right (Nat.not_lt.mp hlt)] at hcolon
    rw [List.take_append]
    apply List.mem_append_right
    cases tail with
    | nil => cases hcolon
    | cons x tail =>
      obtain rfl : x = slash := htail.elim (fun h => nomatch h) Option.some.inj
      cases hi : i - host.length with
      | zero =>
        rw [hi] at hcolon
        exact absurd (Option.some.inj hcolon) (by decide)
      | succ n => exact List.mem_cons_self

theorem key_visible (h : link.Accepted rules urlBytesMax) {key : Bytes} (hkey : link.toKey una = some key) :
    ∀ x ∈ key, 32 < x.val := by
  rw [toKey_eq, ← consumeSlash_parts] at hkey
  cases hkey
  intro x hx
  rcases List.mem_append.mp hx with hx | hx
  · exact (domainByte_spec (h.host.bytes x hx)).1
  · rcases List.mem_append.mp (consumeSlash_subset _ hx) with hx | hx
    · rcases h.parts.pathname_bytes x hx with rfl | hx
      · decide
      · exact (rules.pathByte_plain x hx).1
    · cases hq : link.query with
      | none =>
        rw [hq] at hx
        exact absurd hx List.not_mem_nil
      | some q =>
        rw [hq] at hx
        rcases List.mem_append.mp hx with hx | hx
        · rw [List.mem_singleton.mp hx]
          decide
        · exact (rules.queryByte_plain x (h.parts.query_bytes q hq x hx)).1

/-- A key is read as http. -/
theorem schemedText_key (h : link.Accepted rules urlBytesMax) {key : Bytes} (hkey : link.toKey una = some key) :
    schemedText key = .ok (http ++ ascii "://" ++ key) := by
  have htrim : stripAsciiWhitespace key = key :=
    trim_of_visible fun x hx => isAsciiSpace_of_visible (key_visible h hkey x hx)
  rw [toKey_eq] at hkey
  cases hkey
  have hslashes : (ascii "//").isPrefixOf
      (link.hostname ++ (keptPath link.pathname link.query ++ searchOf (keptQuery link.query))) = false := by
    obtain ⟨x, host, hhost⟩ := List.exists_cons_of_ne_nil link.hostname_ne_nil
    rw [Bool.eq_false_iff, Ne, List.isPrefixOf_iff_prefix, hhost]
    intro hstarts
    have hx : slash = x := (List.cons_prefix_cons.mp hstarts).1
    exact link.hostname_slash (by rw [hhost, hx]; exact List.mem_cons_self)
  have hcolon : (58 : Byte) ∉ link.hostname := fun hmem => (domainByte_spec (h.host.bytes 58 hmem)).2.2.2.1 rfl
  unfold schemedText
  simp only [htrim, hslashes, Bool.false_eq_true, if_false]
  split
  · rfl
  · rename_i i hi
    rw [isValidScheme_of_slash (slash_before_mark hcolon (kept_head link) hi)]
    rfl

/-- The root that stands for an empty path is consumed again. -/
theorem consumeSlash_rooted (link : Link) :
    consumeSlash (rooted (keptPath link.pathname link.query) ++ searchOf (keptQuery link.query)) =
      consumeSlash (consumeSlash (link.pathname ++ searchOf link.query)) := by
  rw [consumeSlash_parts link.pathname]
  cases hkept : keptPath link.pathname link.query with
  | cons x path => rfl
  | nil =>
    cases hq : link.query with
    | none => decide
    | some q =>
      rw [hq] at hkept
      exact absurd hkept link.pathname_ne_nil

/-- The key of an accepted link is accepted under the same limit. -/
theorem fromText_key (parser : UrlParser rules) (h : link.Accepted rules urlBytesMax) {key : Bytes}
    (hkey : link.toKey una = some key) : Link.fromText una parser key urlBytesMax =
      .ok (.ofParts h.host (kept_standard h.parts)) := by
  have hfrom : fromBytes una (http ++ ascii "://" ++ key) = some (http ++ ascii "://" ++ key) := by
    rw [← serializeHref_key hkey]
    exact fromBytes_ascii una (serializeHref_ascii link (.ofList rfl))
  have hlength := h.size
  rw [serializeHref_key hkey] at hlength
  have hparse : parseText una parser key urlBytesMax = .ok ⟨http, [], [], link.hostname, none,
      rooted (keptPath link.pathname link.query), keptQuery link.query, none, fun _ => kept_standard h.parts⟩ := by
    simp only [parseText, schemedText_key h hkey, hfrom, UrlParser.fromBoundedSizeText, if_neg (Nat.not_lt.mpr hlength),
      parse_kept parser (Or.inl rfl) h.parts hkey]
  have hsize : (serializeHref (.ofParts h.host (kept_standard h.parts)) http).length ≤ urlBytesMax := by
    have hconsumed := consumeSlash_length_le (consumeSlash (link.pathname ++ searchOf link.query))
    have hsize := h.size
    rw [serializeHref_eq] at hsize ⊢
    simp only [Link.ofParts, consumeSlash_rooted, List.length_append] at hsize ⊢
    omega
  rw [Link.fromText, hparse]
  simp only [normalizeUrl_standard (Or.inl rfl) h.host (kept_standard h.parts) hsize]

/-- The key read from a key is that key with one more slash consumed. -/
theorem toKey_reread (una : UniAlgo) (h : link.Accepted rules urlBytesMax) :
    (Link.ofParts h.host (kept_standard h.parts)).toKey una =
      some (link.hostname ++ consumeSlash (consumeSlash (link.pathname ++ searchOf link.query))) := by
  rw [toKey_eq, ← consumeSlash_parts]
  simp only [Link.ofParts, consumeSlash_rooted]

theorem searchOf_head (query : Option Bytes) : searchOf query = [] ∨ (searchOf query).head? = some questionMark := by
  cases query with
  | none => exact Or.inl rfl
  | some q => exact Or.inr rfl

theorem searchOf_injective : Function.Injective searchOf := by
  intro a b h
  cases a with
  | none =>
    cases b with
    | none => rfl
    | some q => cases h
  | some p =>
    cases b with
    | none => cases h
    | some q => rw [List.append_cancel_left (show ascii "?" ++ p = ascii "?" ++ q from h)]

theorem questionMark_notMem_keptPath (h : link.Accepted rules urlBytesMax) :
    questionMark ∉ keptPath link.pathname link.query := by
  have hpath : questionMark ∉ link.pathname := by
    intro hmem
    rcases h.parts.pathname_bytes questionMark hmem with heq | hbyte
    · exact absurd heq (by decide)
    · exact (rules.pathByte_plain questionMark hbyte).2.2 (by decide)
  unfold keptPath
  split
  · exact fun hmem => hpath (consumeSlash_subset _ hmem)
  · exact hpath

/-- Two accepted links share their key exactly if they share the host and what the key keeps of path and query. -/
theorem toKey_eq_iff {link' : Link} {urlBytesMax' : Nat} (h : link.Accepted rules urlBytesMax)
    (h' : link'.Accepted rules urlBytesMax') : link.toKey una = link'.toKey una ↔
      link.hostname = link'.hostname ∧ keptPath link.pathname link.query = keptPath link'.pathname link'.query ∧
        keptQuery link.query = keptQuery link'.query := by
  rw [toKey_eq, toKey_eq, Option.some.injEq]
  constructor
  · intro hkey
    obtain ⟨hhost, htail⟩ := append_inj_of_notMem link.hostname_slash link'.hostname_slash (kept_head link)
      (kept_head link') hkey
    obtain ⟨hpath, hsearch⟩ := append_inj_of_notMem (questionMark_notMem_keptPath h) (questionMark_notMem_keptPath h')
      (searchOf_head _) (searchOf_head _) htail
    exact ⟨hhost, hpath, searchOf_injective hsearch⟩
  · rintro ⟨hhost, hpath, hquery⟩
    rw [hhost, hpath, hquery]

theorem isNone_of_keptQuery {a b : Option Bytes} (h : keptQuery a = keptQuery b) : a.isNone = b.isNone := by
  have hmap := congrArg Option.isNone h
  rwa [keptQuery, keptQuery, Option.isNone_map, Option.isNone_map] at hmap

/-- One of two queries is the other with a slash behind it. -/
def SlashApart (a b : Option Bytes) : Prop :=
  ∃ s : Bytes, s.getLast? ≠ some slash ∧
    (a = some (s ++ [slash]) ∧ b = some s ∨ a = some s ∧ b = some (s ++ [slash]))

/-- Different queries of which a key keeps the same differ by a slash at the end. -/
theorem keptQuery_eq_iff {a b : Option Bytes} (hne : a ≠ b) : keptQuery a = keptQuery b ↔ SlashApart a b := by
  cases a with
  | none =>
    cases b with
    | none => exact absurd rfl hne
    | some q => simp [keptQuery, SlashApart]
  | some p =>
    cases b with
    | none => simp [keptQuery, SlashApart]
    | some q =>
      have hpq : p ≠ q := fun h => hne (congrArg some h)
      simp only [keptQuery, SlashApart, Option.map_some, Option.some.injEq]
      exact consumeSlash_eq_iff hpq

end Keys

section Results
variable {rules : UrlRules} {una : UniAlgo} {parser : UrlParser rules} {text text' : Bytes} {urlBytesMax urlBytesMax' : Nat}
  {link link' : Link} {url : Url rules}

/-- The key of a link is accepted as a text under the limit and has itself as its key. -/
def KeyIsCanonical (una : UniAlgo) (parser : UrlParser rules) (link : Link) (urlBytesMax : Nat) : Prop :=
  ∃ key again, link.toKey una = some key ∧ Link.fromText una parser key urlBytesMax = .ok again ∧
    again.toKey una = some key

theorem keyIsCanonical_iff (una : UniAlgo) (parser : UrlParser rules) (h : link.Accepted rules urlBytesMax) :
    KeyIsCanonical una parser link urlBytesMax ↔ ¬ [slash, slash] <:+ link.pathname ++ searchOf link.query := by
  rw [← consumeSlash_twice_iff]
  have hkey := toKey_eq una link
  have hagain := fromText_key parser h hkey
  have hrereads := toKey_reread una h
  rw [← consumeSlash_parts] at hkey hagain
  constructor
  · rintro ⟨key, again, hkey', hfrom, hsame⟩
    rw [hkey] at hkey'
    cases hkey'
    rw [hfrom] at hagain
    cases hagain
    rw [hrereads] at hsame
    exact List.append_cancel_left (Option.some.inj hsame)
  · intro hconsumed
    rw [hconsumed] at hrereads
    exact ⟨_, _, hkey, hagain, hrereads⟩

/-- The key of an accepted text is canonical exactly if path and query of the URL read from the text do not end with
two slashes. -/
theorem key_canonical_iff (hurl : parseText una parser text urlBytesMax = .ok url)
    (h : Link.fromText una parser text urlBytesMax = .ok link) :
    KeyIsCanonical una parser link urlBytesMax ↔ ¬ [slash, slash] <:+ url.pathname ++ url.search := by
  obtain ⟨haccepted, url', hurl', hpathname, hquery⟩ := fromText_spec h
  cases hurl.symm.trans hurl'
  rw [Url.search, ← hpathname, ← hquery]
  exact keyIsCanonical_iff una parser haccepted

/-- A text that the plain library accepts as a link of `a.b`. -/
private def IsSmall (text pathname : Bytes) (query : Option Bytes) : Prop :=
  ∃ link, Link.fromText asciiUna plainParser text 4096 = .ok link ∧
    link.hostname = ascii "a.b" ∧ link.pathname = pathname ∧ link.query = query

private theorem IsSmall.of_test {text pathname : Bytes} {query : Option Bytes}
    (h : (Link.fromText asciiUna plainParser text 4096).toOption.any
      (fun link => link.hostname = ascii "a.b" ∧ link.pathname = pathname ∧ link.query = query) = true) :
    IsSmall text pathname query := by
  cases hlink : Link.fromText asciiUna plainParser text 4096 with
  | error failure =>
    rw [hlink] at h
    cases h
  | ok link =>
    rw [hlink] at h
    exact ⟨link, hlink, of_decide_eq_true h⟩

private theorem small_links : IsSmall (ascii "http://a.b/?q") [slash] (some [113]) ∧
    IsSmall (ascii "http://a.b/?q/") [slash] (some [113, slash]) ∧ IsSmall (ascii "http://a.b//") [slash, slash] none :=
  ⟨.of_test (by decide +kernel), .of_test (by decide +kernel), .of_test (by decide +kernel)⟩

/-- The key of `http://a.b/?q` is canonical. -/
theorem key_canonical_small : ∃ link,
    Link.fromText asciiUna plainParser (ascii "http://a.b/?q") 4096 = .ok link ∧
      KeyIsCanonical asciiUna plainParser link 4096 := by
  obtain ⟨link, hlink, _, hpathname, hquery⟩ := small_links.1
  obtain ⟨_, url, hurl, hpathname', hquery'⟩ := fromText_spec hlink
  refine ⟨link, hlink, (key_canonical_iff hurl hlink).mpr ?_⟩
  rw [Url.search, ← hpathname', ← hquery', hpathname, hquery]
  decide

/-- The key of `http://a.b//` is `a.b/`, which is read as a link with the key `a.b`. -/
theorem double_slash_key_not_canonical :
    ¬ ∀ text urlBytesMax link, Link.fromText asciiUna plainParser text urlBytesMax = .ok link →
      KeyIsCanonical asciiUna plainParser link urlBytesMax := by
  intro h
  obtain ⟨link, hlink, _, hpathname, hquery⟩ := small_links.2.2
  have hcanonical := (keyIsCanonical_iff asciiUna plainParser (fromText_spec hlink).1).mp (h _ _ link hlink)
  rw [hpathname, hquery] at hcanonical
  exact hcanonical ⟨[], rfl⟩

/-- A URL that was handed out is read with the query. -/
def ReadsQuery (parser : UrlParser rules) (out : Option Bytes) (query : Option Bytes) : Prop :=
  ∃ text url, out = some text ∧ parser.parse text = some url ∧ url.query = query

theorem readsQuery_iff (parser : UrlParser rules) (h : link.Accepted rules urlBytesMax) {scheme : Bytes}
    (hscheme : scheme = http ∨ scheme = https) :
    ReadsQuery parser (fromBytes una (serializeHref link scheme)) link.query ↔
      ∀ q ∈ link.query, q.getLast? ≠ some slash := by
  have hascii : IsAscii scheme := by
    rcases hscheme with rfl | rfl <;> exact .ofList rfl
  have hkey := toKey_eq una link
  have hparse := parse_kept parser hscheme h.parts hkey
  have hkept : keptQuery link.query = link.query ↔ ∀ q ∈ link.query, q.getLast? ≠ some slash := by
    cases hq : link.query with
    | none =>
      refine iff_of_true rfl ?_
      intro q hq
      cases hq
    | some q => simp [keptQuery, consumeSlash_eq_self_iff]
  rw [schemeUrl_eq hascii hkey, ← hkept]
  constructor
  · rintro ⟨_, _, ⟨⟩, hurl, hquery⟩
    rw [hparse] at hurl
    cases hurl
    exact hquery
  · intro hquery
    exact ⟨_, _, rfl, hparse, hquery⟩

/-- Two accepted links of one host and path with different queries have different keys exactly if no query is the
other with a slash behind it, and the URLs of an accepted link are read with the query of the submitted text exactly
if this does not end with a slash. -/
theorem query_kept_iff (hurl : parseText una parser text urlBytesMax = .ok url)
    (h : Link.fromText una parser text urlBytesMax = .ok link) :
    (∀ text' urlBytesMax' link', Link.fromText una parser text' urlBytesMax' = .ok link' →
      link.hostname = link'.hostname → link.pathname = link'.pathname → link.query ≠ link'.query →
      (link.toKey una ≠ link'.toKey una ↔ ¬ SlashApart link.query link'.query)) ∧
    (ReadsQuery parser (link.httpUrl una) url.query ↔ ∀ q ∈ url.query, q.getLast? ≠ some slash) ∧
    (ReadsQuery parser (link.httpsUrl una) url.query ↔ ∀ q ∈ url.query, q.getLast? ≠ some slash) := by
  obtain ⟨haccepted, url', hurl', _, hquery⟩ := fromText_spec h
  cases hurl.symm.trans hurl'
  rw [← hquery]
  refine ⟨?_, readsQuery_iff parser haccepted (Or.inl rfl), readsQuery_iff parser haccepted (Or.inr rfl)⟩
  intro text' urlBytesMax' link' h' hhost hpath hne
  rw [Ne, toKey_eq_iff haccepted (fromText_spec h').1, ← keptQuery_eq_iff hne, not_iff_not]
  constructor
  · exact fun hkept => hkept.2.2
  · intro hkept
    refine ⟨hhost, ?_, hkept⟩
    rw [keptPath, keptPath, hpath, isNone_of_keptQuery hkept]

/-- The https URL of `http://a.b/?q` is read with the query `q`. -/
theorem query_kept_small : ∃ link url,
    parseText asciiUna plainParser (ascii "http://a.b/?q") 4096 = .ok url ∧
      Link.fromText asciiUna plainParser (ascii "http://a.b/?q") 4096 = .ok link ∧
      ReadsQuery plainParser (link.httpsUrl asciiUna) url.query := by
  obtain ⟨link, hlink, _, _, hquery⟩ := small_links.1
  obtain ⟨_, url, hurl, _, hquery'⟩ := fromText_spec hlink
  refine ⟨link, url, hurl, hlink, (query_kept_iff hurl hlink).2.2.mpr ?_⟩
  rw [← hquery', hquery]
  rintro _ ⟨⟩
  decide

/-- `http://a.b/?q/` and `http://a.b/?q` have one key, and the URL of the first is read with the query of the second. -/
theorem query_slash_lost : ∃ link link',
    Link.fromText asciiUna plainParser (ascii "http://a.b/?q/") 4096 = .ok link ∧
      Link.fromText asciiUna plainParser (ascii "http://a.b/?q") 4096 = .ok link' ∧
      link.hostname = link'.hostname ∧ link.pathname = link'.pathname ∧ link.query ≠ link'.query ∧
      link.toKey asciiUna = link'.toKey asciiUna ∧
      ¬ ReadsQuery plainParser (link.httpUrl asciiUna) link.query := by
  obtain ⟨link, hlink, hhost, hpathname, hquery⟩ := small_links.2.1
  obtain ⟨link', hlink', hhost', hpathname', hquery'⟩ := small_links.1
  refine ⟨link, link', hlink, hlink', by rw [hhost, hhost'], by rw [hpathname, hpathname'], ?_, ?_, ?_⟩
  · rw [hquery, hquery']
    decide
  · rw [toKey_eq, toKey_eq, hhost, hpathname, hquery, hhost', hpathname', hquery']
    rfl
  · intro hreads
    have hends := (readsQuery_iff plainParser (fromText_spec hlink).1 (Or.inl rfl)).mp hreads
    exact hends _ hquery rfl

theorem prefixPath_eq (path : Bytes) : prefixPath path = consumeSlash path := by
  unfold prefixPath
  split
  · rename_i hroot
    rw [hroot]
    rfl
  · rfl

/-- Accepted texts with one link key have one prefix key. -/
theorem prefixKey_of_linkKey (h : Link.fromText una parser text urlBytesMax = .ok link)
    (h' : Link.fromText una parser text' urlBytesMax' = .ok link') (hkey : link.toKey una = link'.toKey una) :
    makePrefixKey una link = makePrefixKey una link' := by
  obtain ⟨hhost, hpath, hquery⟩ := (toKey_eq_iff (fromText_spec h).1 (fromText_spec h').1).mp hkey
  have hpaths : prefixPath link.pathname = prefixPath link'.pathname := by
    rw [prefixPath_eq, prefixPath_eq]
    unfold keptPath at hpath
    rw [isNone_of_keptQuery hquery] at hpath
    split at hpath
    · exact hpath
    · rw [hpath]
  rw [makePrefixKey_eq, makePrefixKey_eq, hhost, hpaths]

/-- `http://a.b/?q/` and `http://a.b/?q` have one key and one prefix key. -/
theorem prefixKey_of_linkKey_small : ∃ link link',
    Link.fromText asciiUna plainParser (ascii "http://a.b/?q/") 4096 = .ok link ∧
      Link.fromText asciiUna plainParser (ascii "http://a.b/?q") 4096 = .ok link' ∧
      makePrefixKey asciiUna link = makePrefixKey asciiUna link' := by
  obtain ⟨link, hlink, hhost, hpathname, hquery⟩ := small_links.2.1
  obtain ⟨link', hlink', hhost', hpathname', hquery'⟩ := small_links.1
  have hsame : link.toKey asciiUna = link'.toKey asciiUna := by
    rw [toKey_eq, toKey_eq, hhost, hpathname, hquery, hhost', hpathname', hquery']
    rfl
  exact ⟨link, link', hlink, hlink', prefixKey_of_linkKey hlink hlink' hsame⟩

end Results
end Webshot.Access
