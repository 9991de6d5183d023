import Webshot.Crawler.ErrorDetail
import Webshot.Foundation.FirstCuts
import Webshot.Foundation.Occurrences

/-! Requests to the egress proxy: the header block, the target, and the request that is sent on. -/
namespace Webshot.Crawler
open Text Foundation.JsonText Foundation.Occurrences Foundation.FirstCuts

def crlf : Bytes := ascii "\r\n"

/-- What ends a header block. -/
def blankLine : Bytes := ascii "\r\n\r\n"

def iCaseEqual (lhs rhs : Bytes) : Bool := lhs.length = rhs.length && lhs.map asciiToLower = rhs.map asciiToLower

/-- userver's `TrimView`. -/
def trimView (text : Bytes) : Bytes := (text.dropWhile isAsciiSpace).rdropWhile isAsciiSpace

theorem trimView_of_ends {text : Bytes} (hfirst : ∀ x, text.head? = some x → isAsciiSpace x = false)
    (hlast : ∀ x, text.getLast? = some x → isAsciiSpace x = false) : trimView text = text := by
  have hleft : text.dropWhile isAsciiSpace = text := by
    cases text with
    | nil => rfl
    | cons x text =>
      apply List.dropWhile_cons_of_neg
      rw [hfirst x rfl]
      exact Bool.false_ne_true
  rw [trimView, hleft, List.rdropWhile_eq_self_iff]
  intro hne
  rw [hlast _ (List.getLast?_eq_some_getLast hne)]
  exact Bool.false_ne_true

theorem trimView_trimView (text : Bytes) : trimView (trimView text) = trimView text := by
  apply trimView_of_ends
  · intro x hx
    have hne : trimView text ≠ [] := by
      rintro hnil
      rw [hnil] at hx
      cases hx
    obtain ⟨rest, hrest⟩ : trimView text <+: text.dropWhile isAsciiSpace := List.rdropWhile_prefix _ _
    have hhead := List.head?_dropWhile_not isAsciiSpace text
    rw [← hrest, List.head?_append_of_ne_nil _ hne, hx] at hhead
    exact hhead
  · intro x hx
    have hne : trimView text ≠ [] := by
      rintro hnil
      rw [hnil] at hx
      cases hx
    rw [List.getLast?_eq_some_getLast hne] at hx
    cases hx
    exact Bool.eq_false_iff.mpr (List.rdropWhile_last_not _ _ hne)

structure HeaderLine where
  name : Bytes
  value : Bytes
  deriving DecidableEq

def findHeaderValue (headers : List HeaderLine) (name : Bytes) : Option Bytes :=
  (headers.find? fun h => iCaseEqual h.name name).map HeaderLine.value

/-- The line, and what follows its CRLF. -/
def takeCrlfLine (remaining : Bytes) : Option (Bytes × Bytes) :=
  (firstIndex crlf remaining).map fun next => (remaining.take next, remaining.drop (next + 2))

structure ParsedRequest where
  method : Bytes
  target : Bytes
  version : Bytes
  headers : List HeaderLine
  headerBytes : Nat
  deriving DecidableEq

/-- Method, target and version; none of them may be empty. -/
def parseRequestLine (line : Bytes) : Option (Bytes × Bytes × Bytes) := do
  let firstSp ← line.idxOf? space
  let rest := line.drop (firstSp + 1)
  let secondSp ← rest.idxOf? space
  let method := line.take firstSp
  let target := rest.take secondSp
  let version := rest.drop (secondSp + 1)
  if method.isEmpty || target.isEmpty || version.isEmpty then none else some (method, target, version)

/-- A line without a colon or without a name is passed over. -/
def parseHeaderLine (line : Bytes) : Option HeaderLine := do
  let pos ← line.idxOf? colon
  let name := line.take pos
  if name.isEmpty then none else some ⟨name, trimView (line.drop (pos + 1))⟩

/-- The loop over the header lines; every round takes at least the two bytes of a CRLF. -/
def parseHeaderLines : Nat → Bytes → Option (List HeaderLine)
  | 0, _ => some []
  | fuel + 1, remaining =>
    if remaining.isEmpty then some []
    else do
      let (line, rest) ← takeCrlfLine remaining
      if line.isEmpty then return []
      return (parseHeaderLine line).toList ++ (← parseHeaderLines fuel rest)

def parseHeaderBlock (bytes : Bytes) : Option ParsedRequest := do
  let endPos ← firstIndex blankLine bytes
  let headerPart := bytes.take (endPos + 4)
  let (requestLine, remaining) ← takeCrlfLine headerPart
  let (method, target, version) ← parseRequestLine requestLine
  let headers ← parseHeaderLines remaining.length remaining
  return { method, target, version, headers, headerBytes := headerPart.length }

def parseBasicAuthUser (base64Decode : Bytes → Option Bytes) (headerValue : Bytes) : Option (Bytes × Bytes) := do
  let sp ← headerValue.idxOf? space
  if !iCaseEqual (headerValue.take sp) (ascii "basic") then none
  else
    let value := trimView (headerValue.drop (sp + 1))
    if value.isEmpty then none
    else
      let decoded ← base64Decode value
      let pos ← decoded.idxOf? colon
      return (decoded.take pos, decoded.drop (pos + 1))

/-- `std::from_chars` over decimal digits, which must make up the whole text. -/
def parseDigits (text : Bytes) : Option Nat :=
  if text.isEmpty || !text.all isDigit then none else some (digitsValue text)

def parseInt64 (text : Bytes) : Option Int :=
  if text.head? = some 45 then
    (parseDigits text.tail).bind fun n => if n ≤ 2 ^ 63 then some (-(n : Int)) else none
  else (parseDigits text).bind fun n => if n < 2 ^ 63 then some (n : Int) else none

def parsePort (portText : Bytes) : Option Nat :=
  (parseDigits portText).bind fun port => if 0 < port ∧ port < 2 ^ 16 then some port else none

inductive PortMode where
  | optional
  | required
  deriving DecidableEq

structure Authority where
  host : Bytes
  port : Nat

/-- Host and the text from the port's colon on. -/
def splitAuthority (authority : Bytes) : Option (Bytes × Bytes) :=
  if authority.head? = some 91 then
    (authority.idxOf? 93).map fun close => ((authority.drop 1).take (close - 1), authority.drop (close + 1))
  else
    match authority.idxOf? colon with
    | none => some (authority, [])
    | some first =>
      -- the first and the last colon differ
      if colon ∈ authority.drop (first + 1) then none else some (authority.take first, authority.drop first)

def parseAuthority (authority : Bytes) (defaultPort : Nat) (portMode : PortMode) : Option Authority := do
  let authority := trimView authority
  if authority.isEmpty then none
  else
    let (host, remainder) ← splitAuthority authority
    if host.isEmpty then none
    else if remainder.isEmpty then if portMode = .required then none else some ⟨host, defaultPort⟩
    else if remainder.head? ≠ some colon then none
    else
      let port ← parsePort (remainder.drop 1)
      return ⟨host, port⟩

structure HttpRequestTarget where
  host : Bytes
  port : Nat
  path : Bytes
  deriving DecidableEq

def unsupportedRequestTarget : Bytes := ascii "unsupported request target"
def missingHostHeader : Bytes := ascii "missing Host header"
def invalidHostHeader : Bytes := ascii "invalid Host header"
def invalidContentLength : Bytes := ascii "invalid Content-Length"

def parseHttpRequestTarget (una : UniAlgo) (req : ParsedRequest) : Except Bytes HttpRequestTarget :=
  if startsWith req.target (ascii "http://") then
    let rest := req.target.drop (ascii "http://").length
    let slashPos := rest.idxOf? slash
    match parseAuthority (slashPos.elim rest rest.take) 80 .optional with
    | none => .error unsupportedRequestTarget
    | some authority =>
      match fromBytes una authority.host with
      | none => .error unsupportedRequestTarget
      | some host => .ok ⟨host, authority.port, slashPos.elim (ascii "/") rest.drop⟩
  else if !startsWith req.target (ascii "/") then .error unsupportedRequestTarget
  else
    match findHeaderValue req.headers (ascii "host") with
    | none => .error missingHostHeader
    | some hostHeader =>
      match parseAuthority hostHeader 0 .optional with
      | none => .error invalidHostHeader
      | some authority =>
        match fromBytes una authority.host with
        | none => .error invalidHostHeader
        | some host => .ok ⟨host, if authority.port = 0 then 80 else authority.port, req.target⟩

def maxContentLengthBytes : Int := 1024 * 1024 * 1024

def parseContentLength (headerValue : Bytes) : Except Bytes Nat :=
  match parseInt64 (trimView headerValue) with
  | none => .error invalidContentLength
  | some n => if n < 0 ∨ n > maxContentLengthBytes then .error invalidContentLength else .ok n.toNat

/-- A request without the header has no body. -/
def contentLength (req : ParsedRequest) : Except Bytes Nat :=
  match findHeaderValue req.headers (ascii "content-length") with
  | none => .ok 0
  | some header => parseContentLength header

def shouldForwardHeader (name : Bytes) : Bool :=
  !iCaseEqual name (ascii "proxy-authorization") && !iCaseEqual name (ascii "proxy-connection") &&
    !iCaseEqual name (ascii "connection")

def headerLineText (header : HeaderLine) : Bytes := header.name ++ (ascii ": " ++ (header.value ++ crlf))

/-- The line without its end. -/
def headerText (header : HeaderLine) : Bytes := header.name ++ (ascii ": " ++ header.value)

theorem headerLineText_eq (header : HeaderLine) : headerLineText header = headerText header ++ crlf := by
  simp only [headerLineText, headerText, List.append_assoc]

theorem parseHeaderLine_headerText {header : HeaderLine} (hname : header.name ≠ []) (hcolon : colon ∉ header.name) :
    parseHeaderLine (headerText header) = some ⟨header.name, trimView header.value⟩ := by
  have htext : headerText header = header.name ++ colon :: (space :: header.value) := rfl
  have htrim : trimView (space :: header.value) = trimView header.value := rfl
  rw [parseHeaderLine, htext, idxOf?_append_cons hcolon]
  simp only [Option.bind_eq_bind, Option.bind_some, List.take_left, drop_length_succ, htrim, List.isEmpty_iff,
    if_neg hname]

def makeForwardRequest (req : ParsedRequest) (path : Bytes) : Bytes :=
  req.method ++ (space :: path) ++ (space :: req.version) ++ crlf ++
    (req.headers.filter fun h => shouldForwardHeader h.name).flatMap headerLineText ++
    ascii "Connection: close\r\n\r\n"

private theorem takeCrlfLine_shrinks {remaining line rest : Bytes} (h : takeCrlfLine remaining = some (line, rest)) :
    rest.length + 2 ≤ remaining.length := by
  obtain ⟨next, hnext, heq⟩ := Option.map_eq_some_iff.mp h
  cases heq
  have hlength : next + 2 ≤ remaining.length := (firstIndex_spec hnext).2
  rw [List.length_drop]
  omega

/-- The loop ends by itself: a larger bound on its rounds changes nothing. -/
theorem parseHeaderLines_fuel {fuel : Nat} (remaining : Bytes) (h : remaining.length ≤ fuel) :
    parseHeaderLines fuel remaining = parseHeaderLines remaining.length remaining := by
  have hall : ∀ m n : Nat, ∀ remaining : Bytes, remaining.length ≤ m → remaining.length ≤ n →
      parseHeaderLines m remaining = parseHeaderLines n remaining := by
    intro m
    induction m with
    | zero =>
      intro n remaining hm hn
      rw [List.length_eq_zero_iff.mp (Nat.le_zero.mp hm)]
      cases n with
      | zero => rfl
      | succ n => rfl
    | succ m ih =>
      intro n remaining hm hn
      cases n with
      | zero =>
        rw [List.length_eq_zero_iff.mp (Nat.le_zero.mp hn)]
        rfl
      | succ n =>
        rw [parseHeaderLines, parseHeaderLines]
        cases hline : takeCrlfLine remaining with
        | none => rfl
        | some found =>
          have hshrinks := takeCrlfLine_shrinks hline
          have hrest := ih n found.2 (by omega) (by omega)
          simp only [Option.bind_eq_bind, Option.bind_some, hrest]
  exact hall fuel remaining.length remaining h le_rfl

/-- What follows the header block does not change what is parsed. -/
theorem parseHeaderBlock_append {bytes : Bytes} (rest : Bytes) (h : occursIn blankLine bytes = true) :
    parseHeaderBlock (bytes ++ rest) = parseHeaderBlock bytes := by
  obtain ⟨endPos, hend⟩ := Option.isSome_iff_exists.mp h
  have hlength : endPos + 4 ≤ bytes.length := (firstIndex_spec hend).2
  rw [parseHeaderBlock, parseHeaderBlock, firstIndex_append rest hend, hend]
  simp only [Option.bind_eq_bind, Option.bind_some, List.take_append_of_le_length hlength]

theorem parseHeaderBlock_headerBytes {bytes : Bytes} {req : ParsedRequest} (h : parseHeaderBlock bytes = some req) :
    ∃ endPos, firstIndex blankLine bytes = some endPos ∧ req.headerBytes = endPos + blankLine.length ∧
      req.headerBytes ≤ bytes.length := by
  simp only [parseHeaderBlock, Option.bind_eq_bind, Option.bind_eq_some_iff, Option.pure_def, Option.some.injEq] at h
  obtain ⟨endPos, hend, ⟨requestLine, remaining⟩, _, ⟨method, target, version⟩, _, headers, _, rfl⟩ := h
  have hlength : endPos + 4 ≤ bytes.length := (firstIndex_spec hend).2
  have htaken : (bytes.take (endPos + 4)).length = endPos + 4 := List.length_take_of_le hlength
  exact ⟨endPos, hend, htaken, htaken.trans_le hlength⟩

end Webshot.Crawler
