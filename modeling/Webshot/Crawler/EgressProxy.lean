import Webshot.Crawler.CapturedUrls
import Webshot.Foundation.JsonText
import Webshot.Foundation.TransitionRuns
import Webshot.Text.Strings

/-! The egress proxy's byte budget and the one error it keeps, under any number of concurrent sends. -/
namespace Webshot.Crawler
open Text Foundation.JsonText Foundation.TransitionRuns

/-- What is passed to `NoteError`. -/
inductive ProxyNote (una : UniAlgo) where
  | netLimit (found limit : Int)
  | notPublicRoutable (host : Str una)
  | noAddresses (host : Str una)
  | noPublicAddresses (host : Str una)
  | resolveFailed (host : Str una)
  | connectFailed (host : Str una) (port attempts : Nat) (details : Str una)
  | sendFailed

namespace ProxyNote
variable {una : UniAlgo}

/-- The words a note begins with. -/
def words : ProxyNote una → Bytes
  | netLimit _ _ => ascii "net_limit: proxy downstream bytes "
  | notPublicRoutable _ => ascii "ip address not public-routable for "
  | noAddresses _ => ascii "dns resolve returned no addresses for "
  | noPublicAddresses _ => ascii "dns resolve returned no public-routable addresses for "
  | resolveFailed _ => ascii "dns resolve failed for "
  | connectFailed _ _ _ _ => ascii "connect upstream failed for "
  | sendFailed => ascii "send upstream failed"

def rest : ProxyNote una → Bytes
  | netLimit found limit => intText found ++ (ascii " exceeded limit " ++ intText limit)
  | notPublicRoutable host | noAddresses host | noPublicAddresses host | resolveFailed host => host.bytes
  | connectFailed host port attempts details =>
    host.bytes ++ (ascii ":" ++ (natText port ++ (ascii " after " ++ (natText attempts ++
      (ascii " attempt(s): " ++ details.bytes)))))
  | sendFailed => []

def bytes (note : ProxyNote una) : Bytes := note.words ++ note.rest

def isNetLimit : ProxyNote una → Bool
  | netLimit _ _ => true
  | _ => false

/-- The text that is noted; `none` is the abort of `text::Format`. -/
def reason (env : CaptureEnv) (note : ProxyNote env.una) : Option Bytes := env.format note.bytes

end ProxyNote

/-- Where a call of `SendBudgeted` stands. Between the refusal of a claim and the return the call holds the lock of
the counter. -/
inductive SendPhase where
  | idle
  | claiming (claim : Int)
  | refused (found : Int)
  | stopping
  | sending (claim : Int)
  | refunding (unused sent : Int)
  | returned (sent : Int)

/-- The state the tasks of the proxy share. `notes`, `refusedClaim` and `delivered` record what was noted so far,
that a claim was refused, and how many bytes reached the browser. -/
structure EgressProxy (τ : Type) (una : UniAlgo) where
  downBytes : Int := 0
  stopped : Bool := false
  error : Option Bytes := none
  sends : τ → SendPhase := fun _ => .idle
  counterHolder : Option τ := none
  notes : List (ProxyNote una) := []
  refusedClaim : Bool := false
  delivered : Int := 0

inductive ProxyAction (τ : Type) (una : UniAlgo) where
  | sendBudgeted (task : τ) (size : Nat)
  | claim (task : τ)
  | noteRefusal (task : τ)
  | stop (task : τ)
  | sendAllReturns (task : τ) (sent : Nat)
  | sendAllThrows (task : τ) (transmitted : Nat)
  | refund (task : τ)
  | noteError (note : ProxyNote una)
  | stopAll

namespace EgressProxy
variable {τ : Type} [DecidableEq τ]

def setSend {una : UniAlgo} (proxy : EgressProxy τ una) (task : τ) (phase : SendPhase) : EgressProxy τ una :=
  { proxy with sends := Function.update proxy.sends task phase }

/-- `NoteError`: only the first error is kept. -/
def noteError {env : CaptureEnv} (proxy : EgressProxy τ env.una) (note : ProxyNote env.una) :
    Option (EgressProxy τ env.una) :=
  (note.reason env).map fun reason =>
    { proxy with error := proxy.error.or (some reason), notes := proxy.notes ++ [note] }

/-- The start of `SendBudgeted`, up to the lock of the counter. -/
def beginSend {una : UniAlgo} (downBytesMax : Int) (proxy : EgressProxy τ una) (task : τ) (size : Nat) :
    EgressProxy τ una :=
  let maxClaim := min (size : Int) downBytesMax
  if size = 0 || proxy.stopped || maxClaim ≤ 0 then proxy.setSend task (.returned 0)
  else proxy.setSend task (.claiming maxClaim)

end EgressProxy

/-- One step of one task. -/
def proxyStep {τ : Type} [DecidableEq τ] (env : CaptureEnv) (downBytesMax : Int) (proxy : EgressProxy τ env.una) :
    ProxyAction τ env.una → Option (EgressProxy τ env.una)
  | .sendBudgeted task size =>
    match proxy.sends task with
    | .idle | .returned _ => some (proxy.beginSend downBytesMax task size)
    | _ => none
  | .claim task =>
    match proxy.counterHolder, proxy.sends task with
    | none, .claiming maxClaim =>
      if proxy.downBytes > downBytesMax - maxClaim then
        some { proxy.setSend task (.refused proxy.downBytes) with counterHolder := some task, refusedClaim := true }
      else some { proxy.setSend task (.sending maxClaim) with downBytes := proxy.downBytes + maxClaim }
    | _, _ => none
  | .noteRefusal task =>
    match proxy.sends task with
    | .refused found => (proxy.setSend task .stopping).noteError (.netLimit found downBytesMax)
    | _ => none
  | .stop task =>
    match proxy.sends task with
    | .stopping => some { proxy.setSend task (.returned 0) with stopped := true, counterHolder := none }
    | _ => none
  | .sendAllReturns task sent =>
    match proxy.sends task with
    | .sending maxClaim =>
      if (sent : Int) < maxClaim then
        some { proxy.setSend task (.refunding (maxClaim - sent) sent) with delivered := proxy.delivered + sent }
      else if sent = maxClaim then
        some { proxy.setSend task (.returned sent) with delivered := proxy.delivered + sent }
      else none
    | _ => none
  | .sendAllThrows task transmitted =>
    match proxy.sends task with
    | .sending maxClaim =>
      if transmitted ≤ maxClaim then
        some { proxy.setSend task (.refunding maxClaim 0) with delivered := proxy.delivered + transmitted }
      else none
    | _ => none
  | .refund task =>
    match proxy.counterHolder, proxy.sends task with
    | none, .refunding unused sent =>
      some { proxy.setSend task (.returned sent) with downBytes := proxy.downBytes - unused }
    | _, _ => none
  | .noteError note => if note.isNetLimit then none else proxy.noteError note
  | .stopAll => some { proxy with stopped := true }

def netLimitPrefix : Bytes := ascii "net_limit:"

theorem startsWith_iff {text start : Bytes} : startsWith text start = true ↔ start <+: text :=
  List.isPrefixOf_iff_prefix

theorem startsWith_append {a start : Bytes} (b : Bytes) (h : startsWith a start = true) :
    startsWith (a ++ b) start = true :=
  startsWith_iff.mpr ((startsWith_iff.mp h).trans (List.prefix_append a b))

/-- A text with another first character. -/
theorem not_netLimit_of_head {text : Bytes} {x : Byte} (h : text.head? = some x) (hx : x ≠ 110) :
    startsWith text netLimitPrefix = false := by
  cases text with
  | nil => cases h
  | cons y rest =>
    cases h
    rw [Bool.eq_false_iff, ne_eq, startsWith_iff]
    intro hprefix
    exact hx (List.cons_prefix_cons.mp hprefix).1.symm

/-- Words of the source that do not begin as a net limit does. -/
def IsOwnWords (words : Bytes) : Prop := IsAscii words ∧ 2 ≤ words.length ∧ words.head? ≠ some 110

instance (words : Bytes) : Decidable (IsOwnWords words) :=
  inferInstanceAs (Decidable (IsAscii words ∧ 2 ≤ words.length ∧ words.head? ≠ some 110))

theorem IsOwnWords.ofList {x y : Char} {chars : List Char} (hfirst : x.toNat ≠ 110)
    (h : ((x :: y :: chars).all fun c => decide (c.toNat < 128)) = true) :
    IsOwnWords (ascii (String.ofList (x :: y :: chars))) := by
  refine ⟨.ofList h, ?_, ?_⟩
  · rw [ascii, String.toList_ofList, List.length_map]
    exact Nat.le_add_left 2 chars.length
  · rw [ascii, String.toList_ofList, List.map_cons, List.head?_cons, ne_eq, Option.some.injEq, Fin.ext_iff]
    have hlt : x.toNat < 128 := of_decide_eq_true (List.all_eq_true.mp h x List.mem_cons_self)
    rw [Fin.ofNat, Fin.val_mk]
    omega

section Texts
variable {una : UniAlgo}

/-- Two ASCII characters at the front of a text: the first of them stays. -/
theorem TextLaws.head_kept (laws : TextLaws una) {x y : Byte} {b text : Bytes} (hx : x.val < 128) (hy : y.val < 128)
    (hvalid : una.isValidUtf8 (y :: b) = true) (h : fromBytes una (x :: y :: b) = some text) :
    text.head? = some x := by
  have hascii : IsAscii [x] := fun z hz => by rwa [List.mem_singleton.mp hz]
  have hkept := laws.fromBytes_append (una.ascii_valid [x] hascii) (una.ascii_nfc [x] hascii) hy hvalid
  rw [List.singleton_append, h] at hkept
  cases hkept
  rfl

/-- Words of the source's own do not become a net limit, whatever text stands behind them. -/
theorem TextLaws.not_netLimit (laws : TextLaws una) {words b text : Bytes} (hwords : IsOwnWords words)
    (hb : una.isValidUtf8 b = true) (h : fromBytes una (words ++ b) = some text) :
    startsWith text netLimitPrefix = false := by
  obtain ⟨hascii, hlength, hfirst⟩ := hwords
  match words, hlength with
  | x :: y :: words, _ =>
    have hrest : IsAscii (y :: words) := fun z hz => hascii z (List.mem_cons_of_mem x hz)
    have hvalid := laws.valid_append _ b (una.ascii_valid _ hrest) hb
    have hhead : text.head? = some x :=
      TextLaws.head_kept laws (hascii x List.mem_cons_self) (hrest y List.mem_cons_self) hvalid h
    exact not_netLimit_of_head hhead fun hx => hfirst (congrArg some hx)

end Texts

namespace ProxyNote
variable {env : CaptureEnv} {note : ProxyNote env.una}

private theorem words_ascii (note : ProxyNote env.una) : IsAscii note.words := by
  cases note <;> exact .ofList rfl

private theorem words_own (h : note.isNetLimit = false) : IsOwnWords note.words := by
  cases note with
  | netLimit found limit => cases h
  | _ => exact .ofList (by decide) rfl

private theorem rest_valid (laws : TextLaws env.una) (note : ProxyNote env.una) :
    env.una.isValidUtf8 note.rest = true := by
  have hand : ∀ {a b}, IsAscii a → env.una.isValidUtf8 b = true → env.una.isValidUtf8 (a ++ b) = true :=
    fun ha hb => laws.valid_append _ _ (env.una.ascii_valid _ ha) hb
  cases note with
  | netLimit found limit =>
    refine hand (intText_ascii found) (hand (.ofList rfl) ?_)
    exact env.una.ascii_valid _ (intText_ascii limit)
  | notPublicRoutable host => exact host.valid
  | noAddresses host => exact host.valid
  | noPublicAddresses host => exact host.valid
  | resolveFailed host => exact host.valid
  | connectFailed host port attempts details =>
    refine laws.valid_append _ _ host.valid (hand (.ofList rfl) ?_)
    refine hand (intText_ascii (.ofNat port)) (hand (.ofList rfl) ?_)
    exact hand (intText_ascii (.ofNat attempts)) (hand (.ofList rfl) details.valid)
  | sendFailed => exact env.una.ascii_valid [] nofun

/-- Every note is a text. -/
theorem valid (laws : TextLaws env.una) (note : ProxyNote env.una) : env.una.isValidUtf8 note.bytes = true :=
  laws.valid_append _ _ (env.una.ascii_valid _ note.words_ascii) (note.rest_valid laws)

theorem reason_eq (laws : TextLaws env.una) (note : ProxyNote env.una) :
    note.reason env = some (env.una.toNfcUtf8 note.bytes) := fromBytes_of_valid (valid laws note)

/-- Of all notes only a refused claim begins as a net limit does. -/
theorem startsWith_netLimit (laws : TextLaws env.una) {text : Bytes} (h : note.reason env = some text) :
    startsWith text netLimitPrefix = note.isNetLimit := by
  cases hnote : note.isNetLimit with
  | false => exact TextLaws.not_netLimit laws (words_own hnote) (note.rest_valid laws) h
  | true =>
    cases note with
    | netLimit found limit =>
      have hnumbers : IsAscii (intText found ++ (ascii " exceeded limit " ++ intText limit)) :=
        .append (intText_ascii found) (.append (.ofList rfl) (intText_ascii limit))
      rw [reason, CaptureEnv.format, bytes, rest, words, fromBytes_ascii _ (.append (.ofList rfl) hnumbers)] at h
      cases h
      exact startsWith_append _ rfl
    | _ => cases hnote

end ProxyNote

section Runs
variable {τ : Type} [DecidableEq τ] {env : CaptureEnv} {downBytesMax : Int} {s t : EgressProxy τ env.una}

/-- What a step of the proxy is, action by action. -/
inductive ProxyMove (downBytesMax : Int) (s : EgressProxy τ env.una) :
    ProxyAction τ env.una → EgressProxy τ env.una → Prop where
  | nothingToSend {task : τ} {size : Nat} (free : s.sends task = .idle ∨ ∃ n, s.sends task = .returned n)
      (nothing : size = 0 ∨ s.stopped = true ∨ min (size : Int) downBytesMax ≤ 0) :
      ProxyMove downBytesMax s (.sendBudgeted task size) (s.setSend task (.returned 0))
  | begun {task : τ} {size : Nat} (free : s.sends task = .idle ∨ ∃ n, s.sends task = .returned n)
      (running : s.stopped = false) (positive : 0 < min (size : Int) downBytesMax) :
      ProxyMove downBytesMax s (.sendBudgeted task size) (s.setSend task (.claiming (min (size : Int) downBytesMax)))
  | refused {task : τ} {claim : Int} (unlocked : s.counterHolder = none) (phase : s.sends task = .claiming claim)
      (exceeded : downBytesMax - claim < s.downBytes) :
      ProxyMove downBytesMax s (.claim task)
        { s.setSend task (.refused s.downBytes) with counterHolder := some task, refusedClaim := true }
  | claimed {task : τ} {claim : Int} (unlocked : s.counterHolder = none) (phase : s.sends task = .claiming claim)
      (room : s.downBytes ≤ downBytesMax - claim) :
      ProxyMove downBytesMax s (.claim task)
        { s.setSend task (.sending claim) with downBytes := s.downBytes + claim }
  | refusalNoted {task : τ} {found : Int} {t : EgressProxy τ env.una} (phase : s.sends task = .refused found)
      (noted : (s.setSend task .stopping).noteError (.netLimit found downBytesMax) = some t) :
      ProxyMove downBytesMax s (.noteRefusal task) t
  | stopped {task : τ} (phase : s.sends task = .stopping) :
      ProxyMove downBytesMax s (.stop task)
        { s.setSend task (.returned 0) with stopped := true, counterHolder := none }
  | sentSome {task : τ} {claim : Int} {sent : Nat} (phase : s.sends task = .sending claim)
      (short : (sent : Int) < claim) :
      ProxyMove downBytesMax s (.sendAllReturns task sent)
        { s.setSend task (.refunding (claim - sent) sent) with delivered := s.delivered + sent }
  | sentAll {task : τ} {sent : Nat} (phase : s.sends task = .sending sent) :
      ProxyMove downBytesMax s (.sendAllReturns task sent)
        { s.setSend task (.returned sent) with delivered := s.delivered + sent }
  | threw {task : τ} {claim : Int} {transmitted : Nat} (phase : s.sends task = .sending claim)
      (part : (transmitted : Int) ≤ claim) :
      ProxyMove downBytesMax s (.sendAllThrows task transmitted)
        { s.setSend task (.refunding claim 0) with delivered := s.delivered + transmitted }
  | refunded {task : τ} {unused sent : Int} (unlocked : s.counterHolder = none)
      (phase : s.sends task = .refunding unused sent) :
      ProxyMove downBytesMax s (.refund task)
        { s.setSend task (.returned sent) with downBytes := s.downBytes - unused }
  | otherNoted {note : ProxyNote env.una} {t : EgressProxy τ env.una} (other : note.isNetLimit = false)
      (noted : s.noteError note = some t) : ProxyMove downBytesMax s (.noteError note) t
  | allStopped : ProxyMove downBytesMax s .stopAll { s with stopped := true }

private theorem beginSend_move {task : τ} (size : Nat)
    (free : s.sends task = .idle ∨ ∃ n, s.sends task = .returned n) :
    ProxyMove downBytesMax s (.sendBudgeted task size) (s.beginSend downBytesMax task size) := by
  simp only [EgressProxy.beginSend, Bool.or_eq_true, decide_eq_true_eq]
  split
  · rename_i hnothing
    exact .nothingToSend free (or_assoc.mp hnothing)
  · rename_i hsend
    rw [not_or, not_or] at hsend
    exact .begun free (Bool.eq_false_iff.mpr hsend.1.2) (not_le.mp hsend.2)

theorem proxyStep_spec {a : ProxyAction τ env.una} (h : proxyStep env downBytesMax s a = some t) :
    ProxyMove downBytesMax s a t := by
  cases a with
  | sendBudgeted task size =>
    simp only [proxyStep] at h
    split at h
    · cases h
      exact beginSend_move size (.inl ‹_›)
    · cases h
      exact beginSend_move size (.inr ⟨_, ‹_›⟩)
    · cases h
  | claim task =>
    simp only [proxyStep] at h
    split at h
    · split at h
      · cases h
        exact .refused ‹_› ‹_› ‹_›
      · cases h
        exact .claimed ‹_› ‹_› (not_lt.mp ‹_›)
    · cases h
  | noteRefusal task =>
    simp only [proxyStep] at h
    split at h
    · exact .refusalNoted ‹_› h
    · cases h
  | stop task =>
    simp only [proxyStep] at h
    split at h
    · cases h
      exact .stopped ‹_›
    · cases h
  | sendAllReturns task sent =>
    simp only [proxyStep] at h
    split at h
    · rename_i claim hphase
      split at h
      · cases h
        exact .sentSome hphase ‹_›
      · split at h
        · rename_i hall
          cases h
          exact .sentAll (hall ▸ hphase)
        · cases h
    · cases h
  | sendAllThrows task transmitted =>
    simp only [proxyStep] at h
    split at h
    · split at h
      · cases h
        exact .threw ‹_› ‹_›
      · cases h
    · cases h
  | refund task =>
    simp only [proxyStep] at h
    split at h
    · cases h
      exact .refunded ‹_› ‹_›
    · cases h
  | noteError note =>
    simp only [proxyStep] at h
    split at h
    · cases h
    · exact .otherNoted (Bool.eq_false_iff.mpr ‹_›) h
  | stopAll =>
    cases h
    exact .allStopped

/-- A step notes one error or none. -/
inductive NoteMove (s t : EgressProxy τ env.una) : Prop where
  | kept (error : t.error = s.error) (notes : t.notes = s.notes)
  | noted (note : ProxyNote env.una) (reason : Bytes) (text : note.reason env = some reason)
      (error : t.error = s.error.or (some reason)) (notes : t.notes = s.notes ++ [note])

omit [DecidableEq τ] in
private theorem noteError_move {note : ProxyNote env.una} {u : EgressProxy τ env.una} (herror : u.error = s.error)
    (hnotes : u.notes = s.notes) (h : u.noteError note = some t) : NoteMove s t := by
  obtain ⟨reason, hreason, rfl⟩ := Option.map_eq_some_iff.mp h
  rw [herror, hnotes]
  exact .noted note reason hreason rfl rfl

theorem proxyStep_notes {a : ProxyAction τ env.una} (h : proxyStep env downBytesMax s a = some t) : NoteMove s t := by
  cases proxyStep_spec h with
  | refusalNoted _ noted => exact noteError_move (u := s.setSend _ .stopping) rfl rfl noted
  | otherNoted _ noted => exact noteError_move rfl rfl noted
  | _ => exact .kept rfl rfl

/-- The kept error is the first one noted. -/
theorem error_first_noted (laws : TextLaws env.una) {actions : List (ProxyAction τ env.una)}
    (h : Run (proxyStep env downBytesMax) always {} actions s) :
    s.error = s.notes.head?.bind (ProxyNote.reason env) := by
  refine h.invariant (fun s => s.error = s.notes.head?.bind (ProxyNote.reason env)) rfl ?_
  intro s a t _ hstep hs
  cases proxyStep_notes hstep with
  | kept error notes => rw [error, notes, hs]
  | noted note reason text error notes =>
    rw [error, notes, hs]
    cases s.notes with
    | nil => exact text.symm
    | cons first rest =>
      change ((first.reason env).or (some reason)) = first.reason env
      rw [first.reason_eq laws]
      rfl

/-- The kept error begins as a net limit does exactly if a refused claim was noted before anything else. -/
theorem error_netLimit (laws : TextLaws env.una) {actions : List (ProxyAction τ env.una)} {reason : Bytes}
    (h : Run (proxyStep env downBytesMax) always {} actions s) (herror : s.error = some reason) :
    startsWith reason netLimitPrefix = s.notes.head?.any ProxyNote.isNetLimit := by
  rw [error_first_noted laws h] at herror
  obtain ⟨note, hnote, hreason⟩ := Option.bind_eq_some_iff.mp herror
  rw [hnote, Option.any_some]
  exact ProxyNote.startsWith_netLimit laws hreason

theorem error_text (laws : TextLaws env.una) {actions : List (ProxyAction τ env.una)} {reason : Bytes}
    (h : Run (proxyStep env downBytesMax) always {} actions s) (herror : s.error = some reason) :
    env.una.isValidUtf8 reason = true ∧ env.una.toNfcUtf8 reason = reason := by
  rw [error_first_noted laws h] at herror
  obtain ⟨note, _, hreason⟩ := Option.bind_eq_some_iff.mp herror
  exact ⟨laws.valid_text hreason, laws.nfc_text hreason⟩

end Runs
end Webshot.Crawler
