import Webshot.Crawler.ProxyRequests
import Webshot.Foundation.Splitting

/-! The grammar of `ParseAuthority`: a host, in brackets or without a colon, and behind it a port or nothing. -/
namespace Webshot.Crawler
open Text Foundation.JsonText Foundation.FirstCuts Foundation.Splitting

/-- How a host stands in an authority. -/
inductive HostText : Bytes → Bytes → Prop
  | bracketed {host : Bytes} : host ≠ [] → 93 ∉ host → HostText host (91 :: (host ++ [93]))
  | plain {host : Bytes} : host ≠ [] → colon ∉ host → host.head? ≠ some 91 → HostText host host

/-- Decimal digits of a port in 1..65535. -/
structure IsPort (text : Bytes) (port : Nat) : Prop where
  nonempty : text ≠ []
  digits : ∀ x ∈ text, isDigit x = true
  value : digitsValue text = port
  positive : 0 < port
  bounded : port ≤ 65535

/-- What stands behind the host. -/
inductive PortText (defaultPort : Nat) (portMode : PortMode) : Nat → Bytes → Prop
  | omitted : portMode = .optional → PortText defaultPort portMode defaultPort []
  | given {port : Nat} {digits : Bytes} : IsPort digits port → PortText defaultPort portMode port (colon :: digits)

def AuthorityText (defaultPort : Nat) (portMode : PortMode) (authority : Authority) (text : Bytes) : Prop :=
  ∃ hostText portText, text = hostText ++ portText ∧ HostText authority.host hostText ∧
    PortText defaultPort portMode authority.port portText

variable {defaultPort port : Nat} {portMode : PortMode} {text host hostText rest : Bytes} {authority : Authority}

theorem parseDigits_eq_some {n : Nat} :
    parseDigits text = some n ↔ text ≠ [] ∧ (∀ x ∈ text, isDigit x = true) ∧ digitsValue text = n := by
  rw [parseDigits]
  by_cases hempty : text = []
  · subst hempty
    simp
  · have hisEmpty : text.isEmpty = false := List.isEmpty_eq_false_iff.mpr hempty
    by_cases hall : text.all isDigit = true
    · rw [hisEmpty, hall]
      simp only [Bool.not_true, Bool.or_false, Bool.false_eq_true, if_false, Option.some.injEq]
      exact ⟨fun h => ⟨hempty, List.all_eq_true.mp hall, h⟩, fun h => h.2.2⟩
    · rw [hisEmpty, Bool.eq_false_iff.mpr hall]
      simp only [Bool.not_false, Bool.or_true, if_true, reduceCtorEq, false_iff, not_and]
      intro _ hdigits
      exact absurd (List.all_eq_true.mpr hdigits) hall

theorem parsePort_eq_some : parsePort text = some port ↔ IsPort text port := by
  rw [parsePort, Option.bind_eq_some_iff]
  constructor
  · rintro ⟨n, hn, hport⟩
    obtain ⟨hempty, hdigits, hvalue⟩ := parseDigits_eq_some.mp hn
    split at hport
    · rename_i hrange
      cases hport
      exact ⟨hempty, hdigits, hvalue, hrange.1, by omega⟩
    · cases hport
  · intro h
    refine ⟨port, parseDigits_eq_some.mpr ⟨h.nonempty, h.digits, h.value⟩, if_pos ?_⟩
    exact ⟨h.positive, by have := h.bounded; omega⟩

theorem colon_notMem_of_digits (h : ∀ x ∈ text, isDigit x = true) : colon ∉ text := by
  intro hmem
  exact absurd (h colon hmem) (by decide)

theorem HostText.ne_nil (h : HostText host hostText) : host ≠ [] := by
  cases h with
  | bracketed hne _ => exact hne
  | plain hne _ _ => exact hne

/-- What the split finds is a host's text and the rest behind it. -/
theorem splitAuthority_sound (h : splitAuthority text = some (host, rest)) (hne : host ≠ []) :
    ∃ hostText, HostText host hostText ∧ text = hostText ++ rest := by
  rw [splitAuthority] at h
  split at h
  · rename_i hopen
    obtain ⟨close, hclose, heq⟩ := Option.map_eq_some_iff.mp h
    cases heq
    obtain ⟨hnot, htext⟩ := eq_append_of_idxOf? hclose
    cases text with
    | nil => cases hopen
    | cons first text =>
      cases hopen
      cases close with
      | zero => exact absurd (List.cons.inj htext).1 (by decide)
      | succ close =>
        refine ⟨_, .bracketed hne ?_, ?_⟩
        · intro hmem
          exact hnot (List.mem_cons_of_mem _ hmem)
        · simp only [List.drop_succ_cons, List.drop_zero, Nat.add_sub_cancel, List.take_succ_cons, List.cons_append,
            List.append_assoc, List.nil_append] at htext ⊢
          exact htext
  · rename_i hopen
    split at h
    · rename_i hcolon
      cases h
      exact ⟨text, .plain hne (List.idxOf?_eq_none_iff.mp hcolon) hopen, (List.append_nil text).symm⟩
    · rename_i first hfirst
      split at h
      · cases h
      · cases h
        obtain ⟨hnot, htext⟩ := eq_append_of_idxOf? hfirst
        refine ⟨text.take first, .plain hne hnot ?_, (List.take_append_drop first text).symm⟩
        intro hhead
        apply hopen
        rw [htext, List.head?_append_of_ne_nil _ hne]
        exact hhead

/-- Behind the host's text stands nothing, or a single colon. -/
theorem splitAuthority_complete (h : HostText host hostText) (hrest : rest = [] ∨ ∃ r, rest = colon :: r ∧ colon ∉ r) :
    splitAuthority (hostText ++ rest) = some (host, rest) := by
  cases h with
  | bracketed hne hnot =>
    have htext : 91 :: (host ++ [93]) ++ rest = (91 :: host) ++ 93 :: rest := by simp
    have hnot' : 93 ∉ (91 :: host : Bytes) := by
      rw [List.mem_cons, not_or]
      exact ⟨by decide, hnot⟩
    have hopen : ((91 :: host : Bytes) ++ 93 :: rest).head? = some 91 := rfl
    rw [htext, splitAuthority, if_pos hopen, idxOf?_append_cons hnot', Option.map_some, drop_length_succ]
    simp
  | plain hne hcolon hhead =>
    have hhead' : (host ++ rest).head? ≠ some 91 := by rwa [List.head?_append_of_ne_nil _ hne]
    rw [splitAuthority, if_neg hhead']
    rcases hrest with rfl | ⟨r, rfl, hr⟩
    · rw [List.append_nil, List.idxOf?_eq_none_iff.mpr hcolon]
    · rw [idxOf?_append_cons hcolon]
      simp only [drop_length_succ, if_neg hr, List.take_left, List.drop_left]

theorem PortText.shape {portText : Bytes} (h : PortText defaultPort portMode port portText) :
    portText = [] ∨ ∃ r, portText = colon :: r ∧ colon ∉ r := by
  cases h with
  | omitted => exact Or.inl rfl
  | given hport => exact Or.inr ⟨_, rfl, colon_notMem_of_digits hport.digits⟩

theorem parseAuthority_sound {s : Bytes} (h : parseAuthority s defaultPort portMode = some authority) :
    AuthorityText defaultPort portMode authority (trimView s) := by
  simp only [parseAuthority] at h
  split at h
  · cases h
  · obtain ⟨⟨host, rest⟩, hsplit, h⟩ := Option.bind_eq_some_iff.mp h
    simp only [List.isEmpty_iff] at h
    split at h
    · cases h
    · rename_i hne
      obtain ⟨hostText, hhost, htext⟩ := splitAuthority_sound hsplit hne
      split at h
      · rename_i hrest
        split at h
        · cases h
        · rename_i hmode
          cases h
          refine ⟨hostText, rest, htext, hhost, ?_⟩
          rw [hrest]
          apply PortText.omitted
          cases portMode with
          | optional => rfl
          | required => exact absurd rfl hmode
      · split at h
        · cases h
        · rename_i hcolon
          obtain ⟨port, hport, heq⟩ := Option.bind_eq_some_iff.mp h
          cases heq
          cases rest with
          | nil => exact absurd (fun hnil => by cases hnil) hcolon
          | cons x rest =>
            obtain rfl : x = colon := by simpa using hcolon
            exact ⟨hostText, _, htext, hhost, .given (parsePort_eq_some.mp hport)⟩

theorem parseAuthority_complete {s : Bytes} (h : AuthorityText defaultPort portMode authority (trimView s)) :
    parseAuthority s defaultPort portMode = some authority := by
  obtain ⟨hostText, portText, htext, hhost, hport⟩ := h
  have hempty : (hostText ++ portText).isEmpty = false := by
    cases hhost with
    | bracketed _ _ => rfl
    | plain hne _ _ =>
      rw [List.isEmpty_eq_false_iff]
      exact List.append_ne_nil_of_left_ne_nil hne portText
  have hhostEmpty : authority.host.isEmpty = false := List.isEmpty_eq_false_iff.mpr hhost.ne_nil
  have hsplit := splitAuthority_complete hhost hport.shape
  simp only [parseAuthority, htext, hempty, hsplit, Option.bind_eq_bind, Option.bind_some, hhostEmpty, Bool.false_eq_true,
    if_false]
  cases hport with
  | omitted hmode =>
    subst hmode
    rfl
  | given hdigits =>
    have hparsed := parsePort_eq_some.mpr hdigits
    simp [hparsed]

/-- A host's text ends where what may follow it begins. -/
theorem HostText.unique {host' hostText' rest' : Bytes} (h : HostText host hostText) (h' : HostText host' hostText')
    (hrest : rest = [] ∨ rest.head? = some colon) (hrest' : rest' = [] ∨ rest'.head? = some colon)
    (heq : hostText ++ rest = hostText' ++ rest') : host = host' ∧ rest = rest' := by
  cases h with
  | bracketed hne hnot =>
    cases h' with
    | bracketed hne' hnot' =>
      simp only [List.cons_append, List.append_assoc, List.nil_append, List.cons.injEq, true_and] at heq
      obtain ⟨hhost, hclosed⟩ := append_inj_of_notMem hnot hnot' (Or.inr rfl) (Or.inr rfl) heq
      exact ⟨hhost, (List.cons.inj hclosed).2⟩
    | plain hne' hcolon hhead =>
      have hfirst := congrArg List.head? heq
      rw [List.head?_append_of_ne_nil _ hne'] at hfirst
      exact absurd hfirst.symm hhead
  | plain hne hcolon hhead =>
    cases h' with
    | bracketed hne' hnot' =>
      have hfirst := congrArg List.head? heq
      rw [List.head?_append_of_ne_nil _ hne] at hfirst
      exact absurd hfirst hhead
    | plain hne' hcolon' hhead' => exact append_inj_of_notMem hcolon hcolon' hrest hrest' heq

theorem parseAuthority_iff {s : Bytes} :
    parseAuthority s defaultPort portMode = some authority ↔ AuthorityText defaultPort portMode authority (trimView s) :=
  ⟨parseAuthority_sound, parseAuthority_complete⟩

/-- Only the port behind a host's text decides. -/
theorem parseAuthority_badPort {s portText : Bytes} (hhost : HostText host hostText)
    (htext : trimView s = hostText ++ colon :: portText) (hport : parsePort portText = none) :
    parseAuthority s defaultPort portMode = none := by
  rw [Option.eq_none_iff_forall_ne_some]
  intro authority hsome
  obtain ⟨hostText', portText', htext', hhost', hport'⟩ := parseAuthority_sound hsome
  have hshape : portText' = [] ∨ portText'.head? = some colon := by
    rcases hport'.shape with h | ⟨r, rfl, _⟩
    · exact Or.inl h
    · exact Or.inr rfl
  have hrest := (hhost.unique hhost' (Or.inr rfl) hshape (htext.symm.trans htext')).2
  cases hport' with
  | omitted => cases hrest
  | given hdigits =>
    cases hrest
    rw [parsePort_eq_some.mpr hdigits] at hport
    cases hport

theorem parseAuthority_twoColons {s : Bytes} (hopen : (trimView s).head? ≠ some 91) (htwo : 2 ≤ (trimView s).count colon) :
    parseAuthority s defaultPort portMode = none := by
  rw [Option.eq_none_iff_forall_ne_some]
  intro authority hsome
  obtain ⟨hostText, portText, htext, hhost, hport⟩ := parseAuthority_sound hsome
  rw [htext] at hopen htwo
  cases hhost with
  | bracketed hne hnot => exact hopen rfl
  | plain hne hcolon hhead =>
    rw [List.count_append, List.count_eq_zero.mpr hcolon] at htwo
    rcases hport.shape with rfl | ⟨r, rfl, hr⟩
    · simp at htwo
    · rw [List.count_cons_self, List.count_eq_zero.mpr hr] at htwo
      omega

theorem parseAuthority_emptyHost {s : Bytes}
    (h : trimView s = [] ∨ (trimView s).head? = some colon ∨ [91, 93] <+: trimView s) :
    parseAuthority s defaultPort portMode = none := by
  rw [Option.eq_none_iff_forall_ne_some]
  intro authority hsome
  obtain ⟨hostText, portText, htext, hhost, hport⟩ := parseAuthority_sound hsome
  rw [htext] at h
  cases hhost with
  | bracketed hne hnot =>
    rcases h with h | h | h
    · cases h
    · exact absurd (Option.some.inj h) (by decide)
    · obtain ⟨first, others, hfirst⟩ := List.exists_cons_of_ne_nil hne
      rw [hfirst] at h hnot
      have hclose := (List.cons_prefix_cons.mp (List.cons_prefix_cons.mp h).2).1
      exact hnot (hclose ▸ List.mem_cons_self)
  | plain hne hcolon hhead =>
    obtain ⟨first, others, hfirst⟩ := List.exists_cons_of_ne_nil hne
    rw [hfirst] at h hcolon hhead
    rcases h with h | h | h
    · cases h
    · exact hcolon (Option.some.inj h ▸ List.mem_cons_self)
    · exact hhead (congrArg some (List.cons_prefix_cons.mp h).1.symm)

/-- Texts that are no port: nothing, a sign in front, the number zero, or one that 16 bits do not hold. -/
inductive NoPort : Bytes → Prop
  | empty : NoPort []
  | signed {text : Bytes} : text.head? = some 43 ∨ text.head? = some 45 → NoPort text
  | zero {text : Bytes} : digitsValue text = 0 → NoPort text
  | overflow {text : Bytes} : 65535 < digitsValue text → NoPort text

theorem NoPort.parsePort (h : NoPort text) : parsePort text = none := by
  rw [Option.eq_none_iff_forall_ne_some]
  intro port hsome
  have hport := parsePort_eq_some.mp hsome
  cases h with
  | empty => exact hport.nonempty rfl
  | signed hsign =>
    obtain ⟨first, others, rfl⟩ := List.exists_cons_of_ne_nil hport.nonempty
    have hdigit := hport.digits first List.mem_cons_self
    rcases hsign with hsign | hsign
    · rw [Option.some.inj hsign] at hdigit
      exact absurd hdigit (by decide)
    · rw [Option.some.inj hsign] at hdigit
      exact absurd hdigit (by decide)
  | zero hzero => exact absurd (hport.value.symm.trans hzero) hport.positive.ne'
  | overflow hlarge => exact absurd hport.bounded (by rw [← hport.value]; omega)

theorem isPort_natText (hpositive : 0 < port) (hbounded : port ≤ 65535) : IsPort (natText port) port where
  nonempty := natText_ne_nil port
  digits := (natText_digits port).1
  value := (natText_digits port).2
  positive := hpositive
  bounded := hbounded

/-- `ParseAuthority` accepts exactly the grammar and returns what the text says; formatted authorities are read back, and
texts with a second colon, without a host or with anything else than a port behind it are refused. -/
theorem parseAuthority_grammar (s : Bytes) (defaultPort : Nat) (portMode : PortMode) :
    (∀ authority, parseAuthority s defaultPort portMode = some authority ↔
      AuthorityText defaultPort portMode authority (trimView s)) ∧
    (∀ host hostText port, HostText host hostText → 0 < port → port ≤ 65535 →
      trimView s = hostText ++ colon :: natText port → parseAuthority s defaultPort portMode = some ⟨host, port⟩) ∧
    ((trimView s).head? ≠ some 91 → 2 ≤ (trimView s).count colon → parseAuthority s defaultPort portMode = none) ∧
    (trimView s = [] ∨ (trimView s).head? = some colon ∨ [91, 93] <+: trimView s →
      parseAuthority s defaultPort portMode = none) ∧
    (∀ host hostText portText, HostText host hostText → trimView s = hostText ++ colon :: portText → NoPort portText →
      parseAuthority s defaultPort portMode = none) := by
  refine ⟨fun authority => parseAuthority_iff, ?_, parseAuthority_twoColons, parseAuthority_emptyHost, ?_⟩
  · intro host hostText port hhost hpositive hbounded htext
    apply parseAuthority_complete
    exact ⟨hostText, colon :: natText port, htext, hhost, .given (isPort_natText hpositive hbounded)⟩
  · intro host hostText portText hhost htext hport
    exact parseAuthority_badPort hhost htext hport.parsePort

end Webshot.Crawler
