import Webshot.Crawler.Authorities
import Webshot.Foundation.MarkedLines

/-! Forwarded requests are read by an upstream as the proxy read them. -/
namespace Webshot.Crawler
open Text Foundation.JsonText Foundation.Occurrences Foundation.FirstCuts Foundation.MarkedLines

/-- A text within one line. -/
def InLine (text : Bytes) : Prop := ¬ crlf <:+: text

instance (text : Bytes) : Decidable (InLine text) := inferInstanceAs (Decidable (¬ crlf <:+: text))

theorem InLine.of_infix {part text : Bytes} (h : InLine text) (hpart : part <:+: text) : InLine part :=
  fun hcrlf => h (hcrlf.trans hpart)

theorem InLine.append_cons {a b : Bytes} {x : Byte} (ha : InLine a) (hx : x ∉ crlf) (hb : InLine b) :
    InLine (a ++ x :: b) :=
  not_infix_append_cons (α := Byte) (a := 13) (b := 10) hx ha hb

/-- Name and value as they are read off a line. -/
structure HeaderLine.WellFormed (header : HeaderLine) : Prop where
  name_ne : header.name ≠ []
  name_colon : colon ∉ header.name
  name_line : InLine header.name
  value_line : InLine header.value
  value_trimmed : trimView header.value = header.value

structure ParsedRequest.WellFormed (req : ParsedRequest) : Prop where
  method_ne : req.method ≠ []
  method_space : space ∉ req.method
  method_line : InLine req.method
  target_ne : req.target ≠ []
  target_space : space ∉ req.target
  target_line : InLine req.target
  version_ne : req.version ≠ []
  version_line : InLine req.version
  headers : ∀ header ∈ req.headers, header.WellFormed

section Reading
variable {line remaining rest : Bytes} {lines : List Bytes}

theorem takeCrlfLine_spec (h : takeCrlfLine remaining = some (line, rest)) :
    InLine line ∧ line <:+: remaining ∧ rest <:+ remaining := by
  obtain ⟨next, hnext, heq⟩ := Option.map_eq_some_iff.mp h
  cases heq
  have hne : crlf ≠ [] := by decide
  exact ⟨not_infix_take hne hnext, (List.take_prefix _ _).isInfix, List.drop_suffix _ _⟩

theorem parseHeaderLine_wellFormed {header : HeaderLine} (hline : InLine line) (h : parseHeaderLine line = some header) :
    header.WellFormed := by
  obtain ⟨pos, hpos, h⟩ := Option.bind_eq_some_iff.mp h
  simp only [List.isEmpty_iff] at h
  split at h
  · cases h
  · rename_i hname
    cases h
    have hvalue : trimView (line.drop (pos + 1)) <:+: line :=
      (List.rdropWhile_prefix _ _).isInfix.trans
        ((List.dropWhile_suffix _).isInfix.trans (List.drop_suffix (pos + 1) line).isInfix)
    exact {
      name_ne := hname
      name_colon := (eq_append_of_idxOf? hpos).1
      name_line := hline.of_infix (List.take_prefix pos line).isInfix
      value_line := hline.of_infix hvalue
      value_trimmed := trimView_trimView _ }

theorem parseHeaderLines_wellFormed {fuel : Nat} {headers : List HeaderLine}
    (h : parseHeaderLines fuel remaining = some headers) : ∀ header ∈ headers, header.WellFormed := by
  induction fuel generalizing remaining headers with
  | zero =>
    cases h
    intro header hmem
    cases hmem
  | succ fuel ih =>
    rw [parseHeaderLines] at h
    split at h
    · cases h
      intro header hmem
      cases hmem
    · obtain ⟨⟨line, rest⟩, hline, h⟩ := Option.bind_eq_some_iff.mp h
      simp only at h
      split at h
      · cases h
        intro header hmem
        cases hmem
      · obtain ⟨others, hothers, heq⟩ := Option.bind_eq_some_iff.mp h
        cases heq
        intro header hmem
        rcases List.mem_append.mp hmem with hmem | hmem
        · exact parseHeaderLine_wellFormed (takeCrlfLine_spec hline).1 (Option.mem_toList.mp hmem)
        · exact ih hothers header hmem

theorem parseHeaderBlock_wellFormed {bytes : Bytes} {req : ParsedRequest} (h : parseHeaderBlock bytes = some req) :
    req.WellFormed := by
  simp only [parseHeaderBlock, Option.bind_eq_bind, Option.bind_eq_some_iff, Option.pure_def, Option.some.injEq] at h
  obtain ⟨endPos, _, ⟨line, remaining⟩, hline, ⟨method, target, version⟩, hrequest, headers, hheaders, rfl⟩ := h
  have hinLine := (takeCrlfLine_spec hline).1
  obtain ⟨firstSp, hfirst, hrequest⟩ := Option.bind_eq_some_iff.mp hrequest
  obtain ⟨secondSp, hsecond, hrequest⟩ := Option.bind_eq_some_iff.mp hrequest
  simp only [Bool.or_eq_true, List.isEmpty_iff] at hrequest
  split at hrequest
  · cases hrequest
  · rename_i hne
    cases hrequest
    rw [not_or, not_or] at hne
    have hrest : InLine (line.drop (firstSp + 1)) := hinLine.of_infix (List.drop_suffix _ _).isInfix
    exact {
      method_ne := hne.1.1
      method_space := (eq_append_of_idxOf? hfirst).1
      method_line := hinLine.of_infix (List.take_prefix _ _).isInfix
      target_ne := hne.1.2
      target_space := (eq_append_of_idxOf? hsecond).1
      target_line := hrest.of_infix (List.take_prefix _ _).isInfix
      version_ne := hne.2
      version_line := hrest.of_infix (List.drop_suffix _ _).isInfix
      headers := parseHeaderLines_wellFormed hheaders }

/-- The path is a slash, or what the target has from one on. -/
theorem parseHttpRequestTarget_path {una : UniAlgo} {req : ParsedRequest} {target : HttpRequestTarget}
    (h : parseHttpRequestTarget una req = .ok target) :
    target.path ≠ [] ∧ (target.path = [slash] ∨ target.path <:+ req.target) := by
  rw [parseHttpRequestTarget] at h
  split at h
  · simp only at h
    split at h
    · cases h
    · split at h
      · cases h
      · cases h
        cases hslash : (req.target.drop (ascii "http://").length).idxOf? slash with
        | none =>
          simp only [Option.elim_none]
          exact ⟨by decide, Or.inl rfl⟩
        | some pos =>
          obtain ⟨hlt, _⟩ := List.idxOf?_eq_some_iff.mp hslash
          simp only [Option.elim_some]
          refine ⟨?_, Or.inr ((List.drop_suffix _ _).trans (List.drop_suffix _ _))⟩
          rw [Ne, List.drop_eq_nil_iff]
          omega
  · split at h
    · cases h
    · rename_i hstart
      split at h
      · cases h
      · split at h
        · cases h
        · split at h
          · cases h
          · cases h
            refine ⟨?_, Or.inr (List.suffix_refl _)⟩
            intro hnil
            have htarget : req.target = [] := hnil
            rw [htarget] at hstart
            exact hstart rfl

end Reading

section Writing
variable {line requestLine rest : Bytes} {lines : List Bytes}

theorem crlf_eq : crlf = [13, 10] := rfl

theorem takeCrlfLine_line (hline : InLine line) (rest : Bytes) :
    takeCrlfLine (line ++ 13 :: 10 :: rest) = some (line, rest) := by
  have hfirst : firstIndex crlf (line ++ 13 :: 10 :: rest) = some line.length :=
    firstIndex_line (by decide) hline rest
  have hdrop : (line ++ 13 :: 10 :: rest).drop (line.length + 2) = rest := by
    rw [List.drop_length_add_append]
    rfl
  rw [takeCrlfLine, hfirst, Option.map_some, List.take_left, hdrop]

theorem parseHeaderLines_ended (hlines : ∀ l ∈ lines, l ≠ [] ∧ InLine l) {fuel : Nat}
    (hfuel : (endedLines 13 10 lines ++ crlf).length ≤ fuel) :
    parseHeaderLines fuel (endedLines 13 10 lines ++ crlf) = some (lines.flatMap fun l => (parseHeaderLine l).toList) := by
  induction lines generalizing fuel with
  | nil =>
    cases fuel with
    | zero => exact absurd hfuel (by decide)
    | succ fuel => rfl
  | cons line lines ih =>
    obtain ⟨hne, hline⟩ := hlines line List.mem_cons_self
    have htext : endedLines 13 10 (line :: lines) ++ crlf = line ++ 13 :: 10 :: (endedLines 13 10 lines ++ crlf) := by
      simp [endedLines]
    rw [htext] at hfuel ⊢
    cases fuel with
    | zero =>
      rw [Nat.le_zero, List.length_eq_zero_iff] at hfuel
      exact absurd hfuel (List.append_ne_nil_of_right_ne_nil line (List.cons_ne_nil _ _))
    | succ fuel =>
      have hrest : (endedLines 13 10 lines ++ crlf).length ≤ fuel := by
        rw [List.length_append, List.length_cons, List.length_cons] at hfuel
        omega
      have hnonempty : (line ++ 13 :: 10 :: (endedLines 13 10 lines ++ crlf)).isEmpty = false := by
        rw [List.isEmpty_eq_false_iff]
        exact List.append_ne_nil_of_left_ne_nil hne _
      have hlineEmpty : line.isEmpty = false := List.isEmpty_eq_false_iff.mpr hne
      have hothers := ih (fun l hl => hlines l (List.mem_cons_of_mem line hl)) hrest
      rw [parseHeaderLines, hnonempty, takeCrlfLine_line hline]
      simp only [Bool.false_eq_true, if_false, Option.bind_eq_bind, Option.bind_some, hlineEmpty, hothers, Option.pure_def,
        List.flatMap_cons]

/-- A request line and header lines, each in its own line, are read as they are. -/
theorem parseHeaderBlock_ended (hlines : ∀ l ∈ requestLine :: lines, l ≠ [] ∧ InLine l) {method target version : Bytes}
    (hrequest : parseRequestLine requestLine = some (method, target, version)) :
    let block := endedLines 13 10 (requestLine :: lines) ++ crlf
    firstIndex blankLine block = some (block.length - 4) ∧
      parseHeaderBlock block = some {
        method, target, version, headerBytes := block.length
        headers := lines.flatMap fun l => (parseHeaderLine l).toList } := by
  intro block
  have hend : firstIndex blankLine block = some ((endedLines 13 10 (requestLine :: lines)).length - 2) :=
    firstIndex_block (by decide) hlines (List.cons_ne_nil requestLine lines) []
  have hlength : block.length = (endedLines 13 10 (requestLine :: lines)).length + 2 := by
    rw [List.length_append]
    rfl
  have hlong : 2 ≤ (endedLines 13 10 (requestLine :: lines)).length := by
    simp [endedLines]
    omega
  have hwhole : block.take ((endedLines 13 10 (requestLine :: lines)).length - 2 + 4) = block :=
    List.take_of_length_le (by omega)
  have htext : block = requestLine ++ 13 :: 10 :: (endedLines 13 10 lines ++ crlf) := by
    simp [block, endedLines]
  have hline : takeCrlfLine block = some (requestLine, endedLines 13 10 lines ++ crlf) := by
    rw [htext]
    exact takeCrlfLine_line (hlines requestLine List.mem_cons_self).2 _
  have hheaders := parseHeaderLines_ended (fun l hl => hlines l (List.mem_cons_of_mem requestLine hl)) le_rfl
  refine ⟨?_, ?_⟩
  · rw [hend]
    congr 1
    omega
  · rw [parseHeaderBlock, hend]
    simp only [Option.bind_eq_bind, Option.bind_some, hwhole, hline, hrequest, hheaders, Option.pure_def]

theorem HeaderLine.WellFormed.parse {header : HeaderLine} (h : header.WellFormed) :
    parseHeaderLine (headerText header) = some header := by
  rw [parseHeaderLine_headerText h.name_ne h.name_colon, h.value_trimmed]

theorem HeaderLine.WellFormed.inLine {header : HeaderLine} (h : header.WellFormed) :
    headerText header ≠ [] ∧ InLine (headerText header) := by
  have hvalue : InLine (space :: header.value) :=
    InLine.append_cons (a := []) (by decide) (by decide) h.value_line
  refine ⟨List.append_ne_nil_of_left_ne_nil h.name_ne _, ?_⟩
  exact h.name_line.append_cons (x := colon) (by decide) hvalue

def connectionClose : HeaderLine := ⟨ascii "Connection", ascii "close"⟩

theorem connectionClose_wellFormed : connectionClose.WellFormed where
  name_ne := by decide
  name_colon := by decide
  name_line := by decide
  value_line := by decide
  value_trimmed := by decide

theorem parseRequestLine_eq {method target version : Bytes} (hmethod : method ≠ [] ∧ space ∉ method)
    (htarget : target ≠ [] ∧ space ∉ target) (hversion : version ≠ []) :
    parseRequestLine (method ++ space :: (target ++ space :: version)) = some (method, target, version) := by
  rw [parseRequestLine, idxOf?_append_cons hmethod.2]
  simp only [Option.bind_eq_bind, Option.bind_some, drop_length_succ, idxOf?_append_cons htarget.2, List.take_left,
    Bool.or_eq_true, List.isEmpty_iff, if_neg (by simp [hmethod.1, htarget.1, hversion] :
      ¬ ((method = [] ∨ target = []) ∨ version = []))]

variable {req : ParsedRequest} {path : Bytes}

def forwardedHeaders (req : ParsedRequest) : List HeaderLine :=
  (req.headers.filter fun h => shouldForwardHeader h.name) ++ [connectionClose]

theorem makeForwardRequest_eq (req : ParsedRequest) (path : Bytes) :
    makeForwardRequest req path = endedLines 13 10 ((req.method ++ space :: (path ++ space :: req.version)) ::
      (forwardedHeaders req).map headerText) ++ crlf := by
  have hheaders : ∀ headers : List HeaderLine, headers.flatMap headerLineText =
      endedLines 13 10 (headers.map headerText) := by
    intro headers
    rw [endedLines, List.flatMap_map]
    exact List.flatMap_congr fun header _ => headerLineText_eq header
  have hclose : ascii "Connection: close\r\n\r\n" = headerLineText connectionClose ++ crlf := rfl
  have hlast : (forwardedHeaders req).flatMap headerLineText =
      (req.headers.filter fun h => shouldForwardHeader h.name).flatMap headerLineText ++ headerLineText connectionClose := by
    rw [forwardedHeaders, List.flatMap_append, List.flatMap_singleton]
  rw [makeForwardRequest, hclose, endedLines, List.flatMap_cons, ← endedLines, ← hheaders, hlast, crlf_eq]
  simp only [List.append_assoc, List.cons_append]

theorem ParsedRequest.WellFormed.forwarded (h : req.WellFormed) :
    ∀ header ∈ forwardedHeaders req, header.WellFormed := by
  intro header hmem
  rcases List.mem_append.mp hmem with hmem | hmem
  · exact h.headers header (List.mem_of_mem_filter hmem)
  · rw [List.mem_singleton.mp hmem]
    exact connectionClose_wellFormed

/-- What is written for a well formed request is read back. -/
theorem parseHeaderBlock_forward (h : req.WellFormed) (hpath : path ≠ []) (hspace : space ∉ path) (hline : InLine path) :
    firstIndex blankLine (makeForwardRequest req path) = some ((makeForwardRequest req path).length - 4) ∧
      parseHeaderBlock (makeForwardRequest req path) = some {
        method := req.method
        target := path
        version := req.version
        headers := forwardedHeaders req
        headerBytes := (makeForwardRequest req path).length } := by
  have hrequest := parseRequestLine_eq ⟨h.method_ne, h.method_space⟩ ⟨hpath, hspace⟩ h.version_ne
  have hrequestLine : InLine (req.method ++ space :: (path ++ space :: req.version)) :=
    h.method_line.append_cons (by decide) (hline.append_cons (by decide) h.version_line)
  have hlines : ∀ l ∈ (req.method ++ space :: (path ++ space :: req.version)) :: (forwardedHeaders req).map headerText,
      l ≠ [] ∧ InLine l := by
    intro l hl
    rcases List.mem_cons.mp hl with rfl | hl
    · exact ⟨List.append_ne_nil_of_left_ne_nil h.method_ne _, hrequestLine⟩
    · obtain ⟨header, hheader, rfl⟩ := List.mem_map.mp hl
      exact (h.forwarded header hheader).inLine
  have hheaders : ((forwardedHeaders req).map headerText).flatMap (fun l => (parseHeaderLine l).toList) =
      forwardedHeaders req := by
    rw [List.flatMap_map]
    calc
      (forwardedHeaders req).flatMap (fun header => (parseHeaderLine (headerText header)).toList)
          = (forwardedHeaders req).flatMap (fun header => [header]) := by
        apply List.flatMap_congr
        intro header hheader
        rw [(h.forwarded header hheader).parse]
        rfl
      _ = forwardedHeaders req := List.flatMap_singleton' _
  obtain ⟨hend, hparsed⟩ := parseHeaderBlock_ended hlines hrequest
  rw [makeForwardRequest_eq]
  refine ⟨hend, ?_⟩
  rw [hparsed, hheaders]

end Writing

/-- What is forwarded means what was parsed: the block ends with its only blank line, method and version are kept, the
target is the path, and the headers are those of the request without the proxy's own, and a closing one. -/
theorem makeForwardRequest_roundTrip {una : UniAlgo} {bytes : Bytes} {req : ParsedRequest} {target : HttpRequestTarget}
    (hreq : parseHeaderBlock bytes = some req) (htarget : parseHttpRequestTarget una req = .ok target) :
    let out := makeForwardRequest req target.path
    firstIndex blankLine out = some (out.length - 4) ∧ 4 ≤ out.length ∧
      parseHeaderBlock out = some {
        method := req.method
        target := target.path
        version := req.version
        headers := (req.headers.filter fun h => !iCaseEqual h.name (ascii "proxy-authorization") &&
          !iCaseEqual h.name (ascii "proxy-connection") && !iCaseEqual h.name (ascii "connection")) ++
            [⟨ascii "Connection", ascii "close"⟩]
        headerBytes := out.length } := by
  intro out
  have hwell := parseHeaderBlock_wellFormed hreq
  obtain ⟨hpath, hpart⟩ := parseHttpRequestTarget_path htarget
  have hinside : space ∉ target.path ∧ InLine target.path := by
    rcases hpart with hroot | hsuffix
    · rw [hroot]
      exact ⟨by decide, by decide⟩
    · exact ⟨fun hmem => hwell.target_space (hsuffix.subset hmem), hwell.target_line.of_infix hsuffix.isInfix⟩
  obtain ⟨hend, hparsed⟩ := parseHeaderBlock_forward hwell hpath hinside.1 hinside.2
  have hlong : (blankLine : Bytes).length ≤ out.length := (Nat.le_add_left _ _).trans (firstIndex_spec hend).2
  exact ⟨hend, hlong, hparsed⟩

/-- A request in absolute form, with a header of the connection's own, a line that is no header and a header without a
value. -/
def sampleForwarded : Bytes := ascii "GET http://h/p HTTP/1.1\r\nA:\tx\r\nConnection: a\r\nb\r\nC:\r\n\r\n"

def sampleParsed : ParsedRequest where
  method := ascii "GET"
  target := ascii "http://h/p"
  version := ascii "HTTP/1.1"
  headers := [⟨ascii "A", ascii "x"⟩, ⟨ascii "Connection", ascii "a"⟩, ⟨ascii "C", []⟩]
  headerBytes := sampleForwarded.length

theorem makeForwardRequest_roundTrip_sample :
    parseHeaderBlock (makeForwardRequest sampleParsed (ascii "/p")) = some {
      method := ascii "GET"
      target := ascii "/p"
      version := ascii "HTTP/1.1"
      headers := [⟨ascii "A", ascii "x"⟩, ⟨ascii "C", []⟩, ⟨ascii "Connection", ascii "close"⟩]
      headerBytes := (makeForwardRequest sampleParsed (ascii "/p")).length } := by
  have hreq : parseHeaderBlock sampleForwarded = some sampleParsed := rfl
  have htarget : parseHttpRequestTarget asciiUna sampleParsed = .ok ⟨ascii "h", 80, ascii "/p"⟩ := by
    decide +kernel
  exact (makeForwardRequest_roundTrip hreq htarget).2.2

end Webshot.Crawler
