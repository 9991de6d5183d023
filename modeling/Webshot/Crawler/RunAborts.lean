import Webshot.Crawler.RunResults
import Webshot.Crawler.WarcFraming

/-! Whether `ExecuteRun` comes back: it aborts where a size does not fit or an artifact cannot be made. -/
namespace Webshot.Crawler
open Text Foundation.JsonText

section Aborts
variable {env : WarcEnv} {exchange : CapturedExchange}

/-- One response without a status text is enough for `MakeWarc` to abort, wherever the sort puts it. -/
theorem appendResponses_none (hgzip : ∀ text, ∃ member, env.gzipCompressMember text = .ok member)
    {responses : List SerializableResponse} {response : SerializableResponse} (hmem : response ∈ responses)
    (htext : response.statusText env = none) (progress : WarcProgress) :
    appendResponses env progress responses = none := by
  induction responses generalizing progress with
  | nil => cases hmem
  | cons first rest ih =>
    rw [appendResponses]
    rcases List.mem_cons.mp hmem with rfl | hrest
    · rw [appendResponse, serializeRecordPair, htext]
      rfl
    · -- the members before it are compressed, so none of them ends the loop with an error
      cases hfirst : appendResponse env progress first with
      | none => rfl
      | some outcome =>
        unfold appendResponse at hfirst
        obtain ⟨⟨responseBytes, requestBytes⟩, _, hfirst⟩ := Option.bind_eq_some_iff.mp hfirst
        obtain ⟨responseGz, hresponse⟩ := hgzip responseBytes
        obtain ⟨requestGz, hrequest⟩ := hgzip requestBytes
        simp only [hresponse, hrequest] at hfirst
        obtain ⟨record, _, hfirst⟩ := Option.bind_eq_some_iff.mp hfirst
        obtain ⟨offset, _, hfirst⟩ := Option.bind_eq_some_iff.mp hfirst
        cases hfirst
        exact ih hrest _

theorem makeWarc_none (hgzip : ∀ text, ∃ member, env.gzipCompressMember text = .ok member)
    {response : SerializableResponse} (hmem : response ∈ capturedResponses exchange)
    (htext : response.statusText env = none) : makeWarc env exchange = none := by
  have hsorted : response ∈ collectSerializableResponses env exchange := (env.sort_perm _).mem_iff.mpr hmem
  rw [makeWarc, appendResponses_none hgzip hsorted htext]
  rfl

end Aborts

/-- What `ExecuteRun` promises of a capture: the limits are computed without an overflow, the run comes back, and what it
returns is complete or holds an error; only an exception during a cancellation is thrown on. -/
def RunsAllOrNothing (env : CaptureEnv) {Warc : Type} (makers : ArtifactMakers Warc) (limits : RunLimits)
    (seedUrl : Bytes) (cancelRequested : Bool)
    (capture : Int → Int → Throwing (Except CaptureError CaptureWithNetwork)) : Prop :=
  ∃ down payload result outcome,
    maxDownBytes limits.maxArchiveBytes limits.networkDownBytesRatioMax = some down ∧
    down = min (limits.networkDownBytesRatioMax * limits.maxArchiveBytes) int64Max ∧
    computeCdpMaxRemotePayloadBytes limits.maxArchiveBytes = some payload ∧
    (capture down payload).run = some result ∧
    executeRun env makers limits seedUrl cancelRequested capture = some outcome ∧
    (cancelRequested = false → ∃ out, outcome = .ok out) ∧
    ∀ out, outcome = .ok out → AllOrNothing env makers limits seedUrl result out

/-- The capture comes back, and if it succeeds no maker aborts on what was captured. -/
def CapturesAndBuilds {Warc : Type} (makers : ArtifactMakers Warc) (limits : RunLimits) (seedUrl : Bytes)
    (capture : Int → Int → Throwing (Except CaptureError CaptureWithNetwork)) : Prop :=
  ∀ payload, computeCdpMaxRemotePayloadBytes limits.maxArchiveBytes = some payload →
    ∃ result,
      (capture (min (limits.networkDownBytesRatioMax * limits.maxArchiveBytes) int64Max) payload).run = some result ∧
      ∀ captured, result = .ok (.ok captured) → makers.Builds seedUrl captured.exchange

section Promise
variable {env : CaptureEnv} {Warc : Type} {makers : ArtifactMakers Warc} {limits : RunLimits} {seedUrl : Bytes}
  {cancelRequested : Bool} {capture : Int → Int → Throwing (Except CaptureError CaptureWithNetwork)}

theorem RunsAllOrNothing.small (h : RunsAllOrNothing env makers limits seedUrl cancelRequested capture) :
    limits.maxArchiveBytes < 2 ^ 61 := by
  obtain ⟨_, _, _, _, -, -, hpayload, -⟩ := h
  exact (computeCdpMaxRemotePayloadBytes_isSome_iff.mp (Option.isSome_of_eq_some hpayload)).2

theorem RunsAllOrNothing.captures (h : RunsAllOrNothing env makers limits seedUrl cancelRequested capture) :
    CapturesAndBuilds makers limits seedUrl capture := by
  obtain ⟨_, payload, result, outcome, hdown, rfl, hpayload, hresult, hrun, -⟩ := h
  intro payload' hpayload'
  cases hpayload.symm.trans hpayload'
  refine ⟨result, hresult, fun captured hcaptured => ?_⟩
  exact builds_of_executeRun hdown hpayload (hcaptured ▸ hresult) hrun

end Promise

/-- The run does what it promises exactly if four times the size of an archive is an `i64` and neither the capture nor
a maker aborts. -/
theorem run_all_or_nothing_iff (env : CaptureEnv) {Warc : Type} (makers : ArtifactMakers Warc) (limits : RunLimits)
    (seedUrl : Bytes) (cancelRequested : Bool)
    (capture : Int → Int → Throwing (Except CaptureError CaptureWithNetwork)) (hmax : 0 < limits.maxArchiveBytes)
    (hmax64 : limits.maxArchiveBytes ≤ int64Max) (hratio : 0 ≤ limits.networkDownBytesRatioMax) :
    RunsAllOrNothing env makers limits seedUrl cancelRequested capture ↔
      limits.maxArchiveBytes < 2 ^ 61 ∧ CapturesAndBuilds makers limits seedUrl capture := by
  constructor
  · exact fun h => ⟨h.small, h.captures⟩
  · rintro ⟨hsmall, hcaptures⟩
    have hfits := computeCdpMaxRemotePayloadBytes_isSome_iff.mpr ⟨by omega, hsmall⟩
    obtain ⟨payload, hpayload⟩ := Option.isSome_iff_exists.mp hfits
    obtain ⟨result, hresult, hbuilds⟩ := hcaptures payload hpayload
    obtain ⟨outcome, hrun, hreturned, hall⟩ :=
      executeRun_spec env makers seedUrl cancelRequested hmax hmax64 hratio hpayload hresult hbuilds
    exact ⟨_, payload, result, outcome, maxDownBytes_eq hmax hratio, rfl, hpayload, hresult, hrun, hreturned, hall⟩

theorem run_all_or_nothing_plain :
    RunsAllOrNothing plainEnv plainMakers ⟨5242880, 10⟩ (ascii "https://a/") false
      fun _ _ => pure (.ok ⟨emptyPage, 30⟩) := by
  refine (run_all_or_nothing_iff plainEnv plainMakers ⟨5242880, 10⟩ (ascii "https://a/") false _ (by decide)
    (by decide) (by decide)).mpr ⟨by decide, fun _ _ => ⟨_, rfl, fun captured _ => ?_⟩⟩
  exact fun pages _ => ⟨⟨_, rfl⟩, fun warc _ => ⟨_, rfl⟩⟩

/-- Libraries as before, where a status code is one of 16 bits. -/
def codesEnv : WarcEnv :=
  { plainWarcEnv with
    statusCodeString := fun code => if 0 ≤ code ∧ code < 2 ^ 16 then some (ascii "OK") else none }

/-- `MakeWarc` as it is written among the other makers, for captures whose times can be read: an abort is then all that
keeps it from coming back. -/
def writtenMakers : ArtifactMakers WarcBuildOutput where
  sha := codesEnv.sha
  makePagesJsonl _ := .ok (ascii "pages")
  makeWarc exchange := ExceptT.mk ((makeWarc codesEnv exchange).map fun result => .ok (result.mapError (·.detail)))
  makeWacz _ _ _ _ _ := pure (.ok (ascii "zip"))

/-- A page with a resource of which the browser tells the status 70000 and no text. -/
def oddPage : CapturedExchange :=
  { emptyPage with
    resources := [{
      resourceUrl := ascii "https://a/x", method := ascii "GET", resourceType := none, statusCode := 70000,
      statusMessage := [], headers := ∅, body := [], timestamp := ascii "2024-01-01T00:00:01Z" }] }

/-- A status that is none, and a size of an archive that the limit of a message overflows, each end the process. -/
theorem run_aborts :
    executeRun plainEnv writtenMakers ⟨5242880, 10⟩ (ascii "https://a/") false
      (fun _ _ => pure (.ok ⟨oddPage, 30⟩)) = none ∧
    ¬RunsAllOrNothing plainEnv writtenMakers ⟨5242880, 10⟩ (ascii "https://a/") false
      (fun _ _ => pure (.ok ⟨oddPage, 30⟩)) ∧
    ¬RunsAllOrNothing plainEnv plainMakers ⟨2 ^ 61, 10⟩ (ascii "https://a/") false
      fun _ _ => pure (.ok ⟨emptyPage, 30⟩) := by
  have hgzip : ∀ text, ∃ member, codesEnv.gzipCompressMember text = .ok member := fun text => ⟨31 :: text, rfl⟩
  have hwarc : makeWarc codesEnv oddPage = none := by
    refine makeWarc_none hgzip (List.mem_append_right [] (List.mem_cons_of_mem _ List.mem_cons_self)) ?_
    rfl
  have hrun : executeRun plainEnv writtenMakers ⟨5242880, 10⟩ (ascii "https://a/") false
      (fun _ _ => pure (.ok ⟨oddPage, 30⟩)) = none := by
    refine Option.eq_none_iff_forall_ne_some.mpr fun outcome houtcome => ?_
    obtain ⟨⟨result, hresult⟩, _⟩ := builds_of_executeRun (maxDownBytes_eq (by decide) (by decide)) rfl rfl houtcome
      (ascii "pages") rfl
    have hnone : (writtenMakers.makeWarc oddPage).run = none := by
      change (makeWarc codesEnv oddPage).map _ = none
      rw [hwarc]
      rfl
    cases hnone.symm.trans hresult
  refine ⟨hrun, ?_, fun h => absurd h.small (by decide)⟩
  rintro ⟨_, _, _, outcome, -, -, -, -, houtcome, -⟩
  cases hrun.symm.trans houtcome

end Webshot.Crawler
