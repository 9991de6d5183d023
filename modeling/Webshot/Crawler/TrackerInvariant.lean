import Webshot.Crawler.PageTracker
import Webshot.Foundation.TransitionRuns

/-! What the page tracker keeps to, whatever the browser reports: the main request is active and for the
main document, and a main document that was completed stays available. -/
namespace Webshot.Crawler
open Text Foundation.KeyedMaps Foundation.TransitionRuns

theorem toMainResponse_isSome (request : TrackedRequest) : (toMainResponse request).isSome = request.hasResponse := by
  unfold toMainResponse TrackedRequest.hasResponse
  cases request.statusCode with
  | none => rfl
  | some status =>
    cases request.statusMessage with
    | none => rfl
    | some message =>
      cases request.headers with
      | none => rfl
      | some headers => cases request.timestamp <;> rfl

structure MainTracked (data : TrackerData) : Prop where
  main_active : ∀ id, data.mainRequestId = some id → ∃ request, data.activeRequests.lookup id = some request ∧
    request.isTrackedMainDocument = true
  completed_response : ∀ request, data.completedMainRequest = some request → request.hasResponse = true
  responded : ∀ id request, data.activeRequests.lookup id = some request → request.isTrackedMainDocument = true →
    request.hasResponse = true → data.completedMainRequest.isSome

/-- The tracker goes on to data that keeps the invariant and loses neither the completed main request nor an
error. -/
structure Advances (data data' : TrackerData) : Prop where
  tracked : MainTracked data → MainTracked data'
  completed : data.completedMainRequest.isSome → data'.completedMainRequest.isSome
  error : data.mainRequestError.isSome → data'.mainRequestError.isSome

namespace Advances
variable {data data' data'' : TrackerData}

theorem refl (data : TrackerData) : Advances data data := ⟨id, id, id⟩

theorem trans (h : Advances data data') (h' : Advances data' data'') : Advances data data'' :=
  ⟨h'.tracked ∘ h.tracked, h'.completed ∘ h.completed, h'.error ∘ h.error⟩

/-- Changes of other fields. -/
theorem of_eq (hactive : data'.activeRequests = data.activeRequests) (hmain : data'.mainRequestId = data.mainRequestId)
    (hcompleted : data'.completedMainRequest = data.completedMainRequest)
    (herror : data.mainRequestError.isSome → data'.mainRequestError.isSome) : Advances data data' := by
  refine ⟨fun h => ⟨?_, ?_, ?_⟩, ?_, herror⟩
  · rw [hmain, hactive]
    exact h.main_active
  · rw [hcompleted]
    exact h.completed_response
  · rw [hactive, hcompleted]
    exact h.responded
  · rw [hcompleted]
    exact id

theorem fail (reason : Bytes) : Advances data (data.fail reason) := of_eq rfl rfl rfl fun _ => rfl

/-- A request changes without changing whether it is for the main document. -/
theorem replace {id : Bytes} {old : TrackedRequest} (new : TrackedRequest)
    (hold : data.activeRequests.lookup id = some old)
    (htracked : new.isTrackedMainDocument = old.isTrackedMainDocument)
    (hactive : data'.activeRequests = data.activeRequests.insert id new)
    (hmain : data'.mainRequestId = data.mainRequestId)
    (hcompleted : data'.completedMainRequest = data.completedMainRequest ∨
      data'.completedMainRequest = some new ∧ new.hasResponse = true)
    (hresponded : new.isTrackedMainDocument = true → new.hasResponse = true →
      old.hasResponse = true ∨ data'.completedMainRequest = some new)
    (herror : data'.mainRequestError = data.mainRequestError) : Advances data data' := by
  have hkept : data.completedMainRequest.isSome → data'.completedMainRequest.isSome := by
    rcases hcompleted with hsame | ⟨hnew, _⟩
    · rw [hsame]
      exact fun hsome => hsome
    · rw [hnew]
      exact fun _ => rfl
  refine ⟨fun h => ⟨?_, ?_, ?_⟩, hkept, by rw [herror]; exact fun hsome => hsome⟩
  · intro id' hid'
    rw [hmain] at hid'
    rw [hactive, lookup_insert_eq]
    obtain ⟨request, hrequest, hmainDocument⟩ := h.main_active id' hid'
    split
    · rename_i he
      cases hold.symm.trans (he ▸ hrequest)
      exact ⟨new, rfl, htracked.trans hmainDocument⟩
    · exact ⟨request, hrequest, hmainDocument⟩
  · intro request hrequest
    rcases hcompleted with hsame | ⟨hnew, hresponse⟩
    · exact h.completed_response request (hsame ▸ hrequest)
    · cases hnew.symm.trans hrequest
      exact hresponse
  · intro id' request hrequest hmainDocument hresponse
    rw [hactive, lookup_insert_eq] at hrequest
    split at hrequest
    · cases hrequest
      rcases hresponded hmainDocument hresponse with holdResponse | hnew
      · exact hkept (h.responded id old hold (htracked ▸ hmainDocument) holdResponse)
      · rw [hnew]
        rfl
    · exact hkept (h.responded id' request hrequest hmainDocument hresponse)

end Advances

namespace CaptureEnv
variable {env : CaptureEnv} {data data' : TrackerData} {clocks : Clocks}

theorem complete_advances {id : Bytes} {old new : TrackedRequest} (hold : data.activeRequests.lookup id = some old)
    (htracked : new.isTrackedMainDocument = old.isTrackedMainDocument) : Advances data (complete data id new) := by
  unfold complete
  cases htest : new.isTrackedMainDocument && new.hasResponse with
  | true =>
    have hresponse := (Bool.and_eq_true_iff.mp htest).2
    exact .replace new hold htracked rfl rfl (Or.inr ⟨rfl, hresponse⟩) (fun _ _ => Or.inr rfl) rfl
  | false =>
    refine .replace new hold htracked rfl rfl (Or.inl rfl) (fun hmainDocument hresponse => ?_) rfl
    rw [hmainDocument, hresponse] at htest
    cases htest

theorem unknownRequest_advances {id text : Bytes} (h : env.unknownRequest data id text = some data') :
    Advances data data' := by
  unfold unknownRequest at h
  split at h
  · obtain ⟨reason, _, rfl⟩ := Option.map_eq_some_iff.mp h
    exact .fail reason
  · cases h
    exact .refl data

theorem handleResponseReceived_advances {event : NetworkResponseReceivedEvent}
    (h : env.handleResponseReceived data event clocks = some data') : Advances data data' := by
  obtain ⟨id, _, h⟩ := Option.bind_eq_some_iff.mp h
  cases hrequest : data.activeRequests.lookup id with
  | none =>
    simp only [hrequest] at h
    exact unknownRequest_advances h
  | some request =>
    simp only [hrequest] at h
    obtain ⟨statusMessage, _, h⟩ := Option.bind_eq_some_iff.mp h
    cases h
    exact complete_advances hrequest rfl

/-- The end of a request is noted before it is looked up. -/
private theorem settle_advances (id : Bytes) (clocks : Clocks) :
    Advances data { data with inflight := data.inflight.erase id, lastNetworkAt := clocks.steady } :=
  .of_eq rfl rfl rfl fun hsome => hsome

theorem handleLoadingFinished_advances {event : NetworkLoadingFinishedEvent}
    (h : env.handleLoadingFinished data event clocks = some data') : Advances data data' := by
  obtain ⟨id, _, h⟩ := Option.bind_eq_some_iff.mp h
  refine (settle_advances id clocks).trans ?_
  cases hrequest : data.activeRequests.lookup id with
  | none =>
    simp only [hrequest] at h
    exact unknownRequest_advances h
  | some request =>
    simp only [hrequest] at h
    cases h
    exact complete_advances hrequest rfl

theorem handleLoadingFailed_advances {event : NetworkLoadingFailedEvent}
    (h : env.handleLoadingFailed data event clocks = some data') : Advances data data' := by
  obtain ⟨id, _, h⟩ := Option.bind_eq_some_iff.mp h
  refine (settle_advances id clocks).trans ?_
  cases hrequest : data.activeRequests.lookup id with
  | none =>
    simp only [hrequest] at h
    exact unknownRequest_advances h
  | some request =>
    simp only [hrequest] at h
    split at h
    · obtain ⟨reason, _, h⟩ := Option.bind_eq_some_iff.mp h
      cases h
      refine .trans ?_ (.fail reason)
      exact .replace { request with loaded := true } hrequest rfl rfl rfl (Or.inl rfl)
        (fun _ hresponse => Or.inl hresponse) rfl
    · cases h
      exact .replace { request with loaded := true } hrequest rfl rfl rfl (Or.inl rfl)
        (fun _ hresponse => Or.inl hresponse) rfl

/-- The same requests are active, the same one is completed, and there is the same error. -/
private def SameRequests (data data' : TrackerData) : Prop :=
  data'.activeRequests = data.activeRequests ∧ data'.completedMainRequest = data.completedMainRequest ∧
    data'.mainRequestError = data.mainRequestError

private theorem recordMainDocumentRedirect_spec {request : TrackedRequest}
    (h : data.recordMainDocumentRedirect request = some data') :
    SameRequests data data' ∧ data'.mainRequestId = data.mainRequestId := by
  obtain ⟨response, _, h⟩ := Option.map_eq_some_iff.mp h
  simp only at h
  split at h
  · cases h
    exact ⟨⟨rfl, rfl, rfl⟩, rfl⟩
  · cases h
    exact ⟨⟨rfl, rfl, rfl⟩, rfl⟩

private theorem closeRedirected_spec {id : Bytes} {request : TrackedRequest}
    (h : closeRedirected data id request = some data') :
    SameRequests data data' ∧ data'.mainRequestId =
      if request.isTrackedMainDocument = true ∧ data.mainRequestId = some id then none else data.mainRequestId := by
  unfold closeRedirected at h
  split at h
  · rename_i htracked
    obtain ⟨recorded, hrecorded, h⟩ := Option.map_eq_some_iff.mp h
    obtain ⟨hsame, hmain⟩ := recordMainDocumentRedirect_spec hrecorded
    simp only [hmain] at h
    split at h
    · rename_i hself
      cases h
      exact ⟨hsame, (if_pos ⟨htracked, hself⟩).symm⟩
    · rename_i hother
      cases h
      refine ⟨hsame, hmain.trans ?_⟩
      rw [if_neg fun hboth => hother hboth.2]
  · rename_i htracked
    obtain ⟨response, _, rfl⟩ := Option.map_eq_some_iff.mp h
    exact ⟨⟨rfl, rfl, rfl⟩, (if_neg fun hboth => htracked hboth.1).symm⟩

/-- What the end of a redirected request does: it is no longer active, nor the main one if it was for the main
document; a request that is not known fails the tracker. -/
theorem finalizeRedirectRequest_spec {id : Bytes} {response : NetworkResponse}
    (h : env.finalizeRedirectRequest data id response clocks = some data') :
    (data.activeRequests.lookup id = none ∧ ∃ reason, data' = data.fail reason) ∨
      ∃ request, data.activeRequests.lookup id = some request ∧ data'.activeRequests = data.activeRequests.erase id ∧
        data'.completedMainRequest = data.completedMainRequest ∧ data'.mainRequestError = data.mainRequestError ∧
        data'.mainRequestId = if request.isTrackedMainDocument = true ∧ data.mainRequestId = some id then none
          else data.mainRequestId := by
  obtain ⟨status, _, h⟩ := Option.bind_eq_some_iff.mp h
  cases hrequest : data.activeRequests.lookup id with
  | none =>
    simp only [hrequest] at h
    obtain ⟨reason, _, h⟩ := Option.bind_eq_some_iff.mp h
    cases h
    exact Or.inl ⟨rfl, reason, rfl⟩
  | some request =>
    simp only [hrequest] at h
    obtain ⟨statusMessage, _, h⟩ := Option.bind_eq_some_iff.mp h
    refine Or.inr ⟨request, rfl, ?_⟩
    obtain ⟨⟨hactive, hcompleted, herror⟩, hmain⟩ := closeRedirected_spec h
    exact ⟨hactive, hcompleted, herror, hmain⟩

private theorem finalizeIfRedirected_kept {id : Bytes} {event : NetworkRequestWillBeSentEvent}
    (h : env.finalizeIfRedirected data id event clocks = some data') :
    data'.completedMainRequest = data.completedMainRequest ∧
      (data.mainRequestError.isSome → data'.mainRequestError.isSome) := by
  unfold finalizeIfRedirected at h
  split at h
  · cases h
    exact ⟨rfl, fun hsome => hsome⟩
  · rcases finalizeRedirectRequest_spec h with ⟨_, reason, rfl⟩ | ⟨_, _, _, hcompleted, herror, _⟩
    · exact ⟨rfl, fun _ => rfl⟩
    · rw [herror]
      exact ⟨hcompleted, fun hsome => hsome⟩

/-- After the end of a redirected request its id is not the main one. -/
theorem finalizeIfRedirected_spec {id : Bytes} {event : NetworkRequestWillBeSentEvent}
    (h : env.finalizeIfRedirected data id event clocks = some data')
    (hhop : id ∈ data.activeRequests → event.redirectResponse.isSome) (hdata : MainTracked data) :
    MainTracked data' ∧ data'.mainRequestId ≠ some id := by
  have hinactive : data.activeRequests.lookup id = none → data.mainRequestId ≠ some id := by
    intro hnone hmain
    obtain ⟨request, hrequest, _⟩ := hdata.main_active id hmain
    cases hnone.symm.trans hrequest
  unfold finalizeIfRedirected at h
  split at h
  · rename_i hnone
    cases h
    rw [hnone] at hhop
    refine ⟨hdata, hinactive ?_⟩
    rw [AList.lookup_eq_none]
    exact fun hmem => nomatch hhop hmem
  · rename_i response _
    rcases finalizeRedirectRequest_spec h with ⟨hnone, reason, rfl⟩ | ⟨request, hrequest, hactive, hcompleted, _, hmain⟩
    · exact ⟨(Advances.fail reason).tracked hdata, hinactive hnone⟩
    · have hother : data'.mainRequestId ≠ some id := by
        intro hself
        rw [hmain] at hself
        split at hself
        · cases hself
        · rename_i hnot
          obtain ⟨request', hrequest', htracked⟩ := hdata.main_active id hself
          cases hrequest.symm.trans hrequest'
          exact hnot ⟨htracked, hself⟩
      refine ⟨⟨?_, ?_, ?_⟩, hother⟩
      · intro id' hid'
        have hne : id' ≠ id := fun he => hother (he ▸ hid')
        rw [hactive, lookup_erase_eq, if_neg hne]
        rw [hmain] at hid'
        split at hid'
        · cases hid'
        · exact hdata.main_active id' hid'
      · rw [hcompleted]
        exact hdata.completed_response
      · intro id' request' hrequest' htracked hresponse
        rw [hactive, lookup_erase_eq] at hrequest'
        rw [hcompleted]
        split at hrequest'
        · cases hrequest'
        · exact hdata.responded id' request' hrequest' htracked hresponse

theorem addRequest_tracked {id : Bytes} {request : TrackedRequest} (hdata : MainTracked data)
    (hother : data.mainRequestId ≠ some id) (hresponse : request.hasResponse = false) :
    MainTracked (addRequest data id request) := by
  have hlookup : ∀ id', id' ≠ id →
      (data.activeRequests.insert id request).lookup id' = data.activeRequests.lookup id' := by
    intro id' hne
    rw [lookup_insert_eq, if_neg hne]
  have hactive : (addRequest data id request).activeRequests = data.activeRequests.insert id request := by
    unfold addRequest
    split <;> rfl
  have hcompleted : (addRequest data id request).completedMainRequest = data.completedMainRequest := by
    unfold addRequest
    split <;> rfl
  refine ⟨?_, ?_, ?_⟩
  · intro id' hid'
    rw [hactive]
    cases htracked : request.isTrackedMainDocument with
    | true =>
      simp only [addRequest, htracked, if_true] at hid'
      cases hid'
      exact ⟨request, by rw [lookup_insert_eq, if_pos rfl], htracked⟩
    | false =>
      simp only [addRequest, htracked, Bool.false_eq_true, if_false] at hid'
      have hne : id' ≠ id := fun he => hother (he ▸ hid')
      rw [hlookup id' hne]
      exact hdata.main_active id' hid'
  · rw [hcompleted]
    exact hdata.completed_response
  · intro id' request' hrequest' htracked hresponse'
    rw [hactive, lookup_insert_eq] at hrequest'
    rw [hcompleted]
    split at hrequest'
    · cases hrequest'
      cases hresponse.symm.trans hresponse'
    · exact hdata.responded id' request' hrequest' htracked hresponse'

private theorem addRequest_completed (id : Bytes) (request : TrackedRequest) :
    (addRequest data id request).completedMainRequest = data.completedMainRequest := by
  unfold addRequest
  split <;> rfl

private theorem addRequest_error (id : Bytes) (request : TrackedRequest) :
    (addRequest data id request).mainRequestError = data.mainRequestError := by
  unfold addRequest
  split <;> rfl

theorem trackRequest_advances {id rawRequestUrl requestMethod : Bytes} {event : NetworkRequestWillBeSentEvent}
    {isTrackedMainDocument : Bool}
    (h : env.trackRequest data id rawRequestUrl requestMethod event clocks isTrackedMainDocument = some data')
    (hhop : id ∈ data.activeRequests → event.redirectResponse.isSome) : Advances data data' := by
  obtain ⟨finalized, hfinalized, h⟩ := Option.bind_eq_some_iff.mp h
  obtain ⟨canonicalRequestUrl, _, h⟩ := Option.bind_eq_some_iff.mp h
  cases h
  obtain ⟨hcompleted, herror⟩ := finalizeIfRedirected_kept hfinalized
  refine ⟨?_, ?_, ?_⟩
  · intro hdata
    obtain ⟨htracked, hother⟩ := finalizeIfRedirected_spec hfinalized hhop hdata
    exact addRequest_tracked htracked hother rfl
  · rw [addRequest_completed, hcompleted]
    exact fun hsome => hsome
  · rw [addRequest_error]
    exact herror

/-- A request id that is active is announced again only by a redirect. -/
def AnnouncedByRedirect (env : CaptureEnv) (data : TrackerData) (event : NetworkRequestWillBeSentEvent) : Prop :=
  ∀ id, fromBytes env.una event.requestId = some id → id ∈ data.activeRequests →
    ∃ response status, event.redirectResponse = some response ∧ response.status = some status

theorem handleRequestWillBeSent_advances {event : NetworkRequestWillBeSentEvent}
    (h : env.handleRequestWillBeSent data event clocks = some data') (hok : AnnouncedByRedirect env data event) :
    Advances data data' := by
  unfold handleRequestWillBeSent at h
  split at h
  · cases h
    exact .refl data
  · obtain ⟨id, hid, h⟩ := Option.bind_eq_some_iff.mp h
    obtain ⟨rawRequestUrl, _, h⟩ := Option.bind_eq_some_iff.mp h
    obtain ⟨requestMethod, _, h⟩ := Option.bind_eq_some_iff.mp h
    simp only at h
    have hhop : id ∈ data.activeRequests → event.redirectResponse.isSome := by
      intro hmem
      obtain ⟨response, _, hresponse, _⟩ := hok id hid hmem
      rw [hresponse]
      rfl
    have hquiet : Advances data { data with inflight := insert id data.inflight, lastNetworkAt := clocks.steady } :=
      .of_eq rfl rfl rfl fun hsome => hsome
    refine hquiet.trans ?_
    split at h
    · cases h
    · cases h
      exact .refl _
    · have hloader : ∀ quiet : TrackerData, Advances quiet (env.expectLoader quiet event.loaderId) ∧
          (env.expectLoader quiet event.loaderId).activeRequests = quiet.activeRequests := by
        intro quiet
        unfold expectLoader
        split
        · exact ⟨.of_eq rfl rfl rfl fun hsome => hsome, rfl⟩
        · exact ⟨.refl quiet, rfl⟩
      obtain ⟨hadvances, hactive⟩ := hloader { data with
        inflight := insert id data.inflight, lastNetworkAt := clocks.steady }
      refine hadvances.trans (trackRequest_advances h ?_)
      rw [hactive]
      exact hhop
    · exact trackRequest_advances h hhop

theorem ofOption_eq_done {result : Option TrackerData} (h : Handled.ofOption result = .done data) :
    result = some data := by
  cases result with
  | none => cases h
  | some data' =>
    cases h
    rfl

private theorem fail_advances {text : Option Bytes} (h : Handled.ofOption (text.map data.fail) = .done data') :
    Advances data data' := by
  obtain ⟨reason, _, rfl⟩ := Option.map_eq_some_iff.mp (ofOption_eq_done h)
  exact .fail reason

private theorem failIf_advances (c : Prop) [Decidable c] (reason : Bytes) :
    Advances data (if c then data.fail reason else data) := by
  split
  · exact .fail reason
  · exact .refl data

theorem handleGone_advances {params : Option (List (Bytes × Json))} {key own reason : Bytes}
    (h : handleGone data params key own reason = .done data') : Advances data data' := by
  unfold handleGone at h
  split at h
  · cases h
    exact .refl data
  · split at h
    · cases h
    · cases h
      exact failIf_advances _ reason

theorem handleInspectorDetached_advances {params : Option (List (Bytes × Json))}
    (h : env.handleInspectorDetached data params = .done data') : Advances data data' := by
  unfold handleInspectorDetached at h
  split at h
  · cases h
  · cases h
    exact .fail _
  · exact fail_advances h

theorem handleParsed_advances {α : Type} {event : CdpEvent} {as : List (Bytes × Json) → Parsed α}
    {handle : TrackerData → α → Option TrackerData} (h : env.handleParsed data event as handle = .done data')
    (hhandle : ∀ params dto, event.params = some params → as params = .parsed dto → handle data dto = some data' →
      Advances data data') : Advances data data' := by
  unfold handleParsed at h
  split at h
  · exact fail_advances h
  · rename_i params hparams
    split at h
    · exact fail_advances h
    · cases h
    · rename_i dto hdto
      exact hhandle params dto hparams hdto (ofOption_eq_done h)

end CaptureEnv

/-- The calls of the tracker, one at a time under its lock. -/
inductive TrackerCall where
  | beginSeedNavigation (seedUrl : Bytes)
  | setMainFrameId (mainFrameId : Bytes)
  | setExpectedMainLoaderId (loaderId : Option Bytes)
  | handleEvent (event : CdpEvent) (clocks : Clocks)
  | fail (reason : Bytes)

/-- An exception leaves the data as it is; an abort ends everything. -/
def trackerStep (env : CaptureEnv) (parsers : EventParsers) (data : TrackerData) : TrackerCall → Option TrackerData
  | .beginSeedNavigation seedUrl => some (data.beginSeedNavigation seedUrl)
  | .setMainFrameId mainFrameId => some (data.setMainFrameId mainFrameId)
  | .setExpectedMainLoaderId loaderId => some (data.setExpectedMainLoaderId loaderId)
  | .handleEvent event clocks =>
    match env.handleEvent parsers data event clocks with
    | .done data' => some data'
    | .threw => some data
    | .aborted => none
  | .fail reason => some (data.fail reason)

/-- What the browser guarantees: a request id that is active is announced again only by a redirect with a status. -/
def RedirectHops (env : CaptureEnv) (parsers : EventParsers) (data : TrackerData) : TrackerCall → Prop
  | .handleEvent event _ => ∀ params dto, event.method = ascii "Network.requestWillBeSent" →
      event.sessionId = some data.sessionId → event.params = some params →
      parsers.asRequestWillBeSent params = .parsed dto → CaptureEnv.AnnouncedByRedirect env data dto
  | _ => True

section Steps
variable {env : CaptureEnv} {parsers : EventParsers} {data data' : TrackerData}

theorem handlePageEvent_advances {event : CdpEvent} {clocks : Clocks} (hsession : event.sessionId = some data.sessionId)
    (hok : RedirectHops env parsers data (.handleEvent event clocks))
    (h : env.handlePageEvent parsers data event clocks = .done data') : Advances data data' := by
  unfold CaptureEnv.handlePageEvent at h
  split at h
  · cases h
    exact .of_eq rfl rfl rfl fun hsome => hsome
  · split at h
    · rename_i hmethod
      exact CaptureEnv.handleParsed_advances h fun params dto hparams hdto hhandle =>
        CaptureEnv.handleRequestWillBeSent_advances hhandle (hok params dto hmethod hsession hparams hdto)
    · split at h
      · exact CaptureEnv.handleParsed_advances h fun _ _ _ _ => CaptureEnv.handleResponseReceived_advances
      · split at h
        · exact CaptureEnv.handleParsed_advances h fun _ _ _ _ => CaptureEnv.handleLoadingFinished_advances
        · split at h
          · exact CaptureEnv.handleParsed_advances h fun _ _ _ _ => CaptureEnv.handleLoadingFailed_advances
          · cases h
            exact .refl data

theorem handleEvent_advances {event : CdpEvent} {clocks : Clocks}
    (hok : RedirectHops env parsers data (.handleEvent event clocks))
    (h : env.handleEvent parsers data event clocks = .done data') : Advances data data' := by
  unfold CaptureEnv.handleEvent at h
  split at h
  · split at h
    · cases h
      exact .refl data
    · split at h
      · cases h
      · cases h
        exact CaptureEnv.failIf_advances _ _
  · split at h
    · exact CaptureEnv.handleGone_advances h
    · split at h
      · exact CaptureEnv.handleGone_advances h
      · split at h
        · split at h
          · cases h
            exact .refl data
          · exact CaptureEnv.handleInspectorDetached_advances h
        · split at h
          · cases h
            exact .refl data
          · rename_i hsession
            exact handlePageEvent_advances (not_not.mp hsession) hok h

theorem trackerStep_advances {call : TrackerCall} (hok : RedirectHops env parsers data call)
    (h : trackerStep env parsers data call = some data') : Advances data data' := by
  cases call with
  | beginSeedNavigation seedUrl =>
    cases h
    exact .of_eq rfl rfl rfl fun hsome => hsome
  | setMainFrameId mainFrameId =>
    cases h
    exact .of_eq rfl rfl rfl fun hsome => hsome
  | setExpectedMainLoaderId loaderId =>
    cases h
    cases loaderId with
    | none => exact .refl data
    | some loaderId => exact .of_eq rfl rfl rfl fun hsome => hsome
  | handleEvent event clocks =>
    unfold trackerStep at h
    simp only at h
    split at h
    · rename_i hdone
      cases h
      exact handleEvent_advances hok hdone
    · cases h
      exact .refl data
    · cases h
  | fail reason =>
    cases h
    exact .fail reason

theorem run_advances {calls : List TrackerCall}
    (h : Run (trackerStep env parsers) (RedirectHops env parsers) data calls data') :
    Advances data data' :=
  h.invariant (Advances data) (.refl data) fun _ _ _ hok hstep hs => hs.trans (trackerStep_advances hok hstep)

theorem MainTracked.initial (sessionId targetId pageId : Bytes) (lastNetworkAt : Int) :
    MainTracked { sessionId := sessionId, targetId := targetId, pageId := pageId, lastNetworkAt := lastNetworkAt } where
  main_active _ h := by cases h
  completed_response _ h := by cases h
  responded _ _ h := by cases h

/-- A main document that is there without an error was completed. -/
theorem MainTracked.completed_of_main (h : MainTracked data) (hmain : data.hasMainDocumentOrError = true)
    (herror : data.mainRequestError = none) : data.completedMainRequest.isSome := by
  rw [TrackerData.hasMainDocumentOrError, herror, Option.isSome_none, Bool.false_or, Bool.or_eq_true] at hmain
  rcases hmain with hcompleted | hactive
  · obtain ⟨request, hrequest, _⟩ := (Option.any_eq_true _ _).mp hcompleted
    rw [hrequest]
    rfl
  · obtain ⟨request, hrequest, hloaded⟩ := (Option.any_eq_true _ _).mp hactive
    obtain ⟨id, hid, hlookup⟩ := Option.bind_eq_some_iff.mp hrequest
    obtain ⟨request', hlookup', htracked⟩ := h.main_active id hid
    cases hlookup.symm.trans hlookup'
    exact h.responded id request hlookup htracked (Bool.and_eq_true_iff.mp hloaded).1

theorem MainTracked.selectMainResponse_isSome (h : MainTracked data) (hcompleted : data.completedMainRequest.isSome)
    (finalUrl : Bytes) : (data.selectMainResponse finalUrl).isSome := by
  obtain ⟨request, hrequest⟩ := Option.isSome_iff_exists.mp hcompleted
  have hresponse := h.completed_response request hrequest
  have hresponded : ∀ {r test}, data.completedResponse.filter test = some r → r.hasResponse = true := by
    intro r test hr
    exact (Option.filter_eq_some_iff.mp (Option.filter_eq_some_iff.mp hr).1).2
  have hcompletedResponse : data.completedResponse = some request := by
    rw [TrackerData.completedResponse, hrequest, Option.filter_some_pos hresponse]
  unfold TrackerData.selectMainResponse
  simp only
  split
  · rename_i r hr
    rw [toMainResponse_isSome]
    exact hresponded hr
  · split
    · rename_i r hr
      rw [toMainResponse_isSome]
      exact (Option.filter_eq_some_iff.mp (Option.filter_eq_some_iff.mp hr).1).2
    · rw [hcompletedResponse]
      simp only
      rw [toMainResponse_isSome, hresponse]

end Steps

section Runs
variable {env : CaptureEnv} {parsers : EventParsers}

/-- In every run in which an active request id is announced again only by a redirect: the main request, if there is
one, is active and for the main document; a completed main request has its whole response and is not lost; and from
the first time the main document is there without an error, `SelectMainResponse` has a response for every final
URL. -/
theorem main_document_kept (env : CaptureEnv) (parsers : EventParsers) (sessionId targetId pageId : Bytes)
    (lastNetworkAt : Int) {calls : List TrackerCall} {data : TrackerData}
    (h : Run (trackerStep env parsers) (RedirectHops env parsers)
      { sessionId := sessionId, targetId := targetId, pageId := pageId, lastNetworkAt := lastNetworkAt } calls data) :
    (∀ id, data.mainRequestId = some id →
      ∃ request, data.activeRequests.lookup id = some request ∧ request.isTrackedMainDocument = true) ∧
    (∀ request, data.completedMainRequest = some request → request.hasResponse = true) ∧
    (data.completedMainRequest.isSome → ∀ later data',
      Run (trackerStep env parsers) (RedirectHops env parsers) data later data' →
      data'.completedMainRequest.isSome) ∧
    (data.hasMainDocumentOrError = true → data.mainRequestError = none →
      ∀ later data', Run (trackerStep env parsers) (RedirectHops env parsers) data later data' →
        ∀ finalUrl, (data'.selectMainResponse finalUrl).isSome) := by
  have hdata : MainTracked data := (run_advances h).tracked (.initial sessionId targetId pageId lastNetworkAt)
  refine ⟨hdata.main_active, hdata.completed_response, ?_, ?_⟩
  · exact fun hsome later data' hrun => (run_advances hrun).completed hsome
  · intro hmain herror later data' hrun finalUrl
    have hadvances := run_advances hrun
    exact (hadvances.tracked hdata).selectMainResponse_isSome
      (hadvances.completed (hdata.completed_of_main hmain herror))
      finalUrl

/-- `RedirectHops` as a test. -/
def redirectHops (env : CaptureEnv) (parsers : EventParsers) (data : TrackerData) : TrackerCall → Bool
  | .handleEvent event _ =>
    if event.method = ascii "Network.requestWillBeSent" then
      match event.params with
      | none => true
      | some params =>
        match parsers.asRequestWillBeSent params with
        | .parsed dto =>
          match fromBytes env.una dto.requestId with
          | none => true
          | some id => (data.activeRequests.lookup id).isNone || (dto.redirectResponse.bind (·.status)).isSome
        | _ => true
    else true
  | _ => true

theorem redirectHops_sound (data : TrackerData) (call : TrackerCall) (h : redirectHops env parsers data call = true) :
    RedirectHops env parsers data call := by
  cases call with
  | handleEvent event clocks =>
    intro params dto hmethod _ hparams hdto id hid hmem
    simp only [redirectHops, hmethod, if_true, hparams, hdto, hid, Bool.or_eq_true] at h
    rcases h with hnone | hstatus
    · obtain ⟨request, hrequest⟩ := Option.isSome_iff_exists.mp (AList.lookup_isSome.mpr hmem)
      rw [hrequest] at hnone
      cases hnone
    · obtain ⟨status, hstatus⟩ := Option.isSome_iff_exists.mp hstatus
      obtain ⟨response, hresponse, hstatus⟩ := Option.bind_eq_some_iff.mp hstatus
      exact ⟨response, status, hresponse, hstatus⟩
  | _ => trivial

/-- One URL is parsed. -/
def seedEnv : CaptureEnv where
  una := asciiUna
  urlFromText text :=
    if text = ascii "http://a/" then
      some
        { isHttp := true
          isHttps := false
          hasPort := false
          host := ascii "a"
          hostname := ascii "a"
          port := []
          pathWithSearch := ascii "/"
          href := ascii "http://a/"
          origin := ascii "http://a"
          hrefWithoutPort := ascii "http://a/"
          hrefWithSearch := fun search => ascii "http://a/" ++ search }
    else none

/-- Parsers that read the request id `R` of a request for the seed in the main frame `F`. -/
def seedParsers : EventParsers where
  asTargetCrashed _ := none
  asRequestWillBeSent _ :=
    .parsed ⟨ascii "R", some (ascii "L"), some (ascii "F"), some (ascii "Document"),
      ascii "http://a/", ascii "GET", none⟩
  asResponseReceived _ := .parsed ⟨ascii "R", none, none, ⟨some 200, some (ascii "OK"), none⟩⟩
  asLoadingFinished _ := .parsed ⟨ascii "R"⟩
  asLoadingFailed _ := .jsonException

/-- An event of the session `S`, with parameters for `seedParsers`. -/
def seedEvent (method : String) : CdpEvent := ⟨ascii method, some [], some (ascii "S")⟩

def seedClocks : Clocks := ⟨ascii "2024-01-01T00:00:00Z", 1⟩

private def seedCalls : List TrackerCall :=
  [.setMainFrameId (ascii "F"), .beginSeedNavigation (ascii "http://a/"),
    .handleEvent (seedEvent "Network.requestWillBeSent") seedClocks,
    .handleEvent (seedEvent "Network.responseReceived") seedClocks,
    .handleEvent (seedEvent "Network.loadingFinished") seedClocks]

theorem main_document_kept_seed :
    ∃ data, Run (trackerStep seedEnv seedParsers) (RedirectHops seedEnv seedParsers)
        { sessionId := ascii "S", targetId := ascii "T", pageId := [] } seedCalls data ∧
      data.mainRequestError = none ∧ ∀ finalUrl, (data.selectMainResponse finalUrl).isSome := by
  have hexec : (execute (fun data call => if redirectHops seedEnv seedParsers data call then
        trackerStep seedEnv seedParsers data call else none)
      { sessionId := ascii "S", targetId := ascii "T", pageId := [] } seedCalls).any
      (fun data => data.mainRequestError.isNone && data.hasMainDocumentOrError) = true := by decide +kernel
  obtain ⟨data, hrun, htest⟩ := Run.exists_of_execute _ hexec
  obtain ⟨herror, hmain⟩ := Bool.and_eq_true_iff.mp htest
  have hrun' := Run.of_checked redirectHops_sound hrun
  obtain ⟨-, -, -, hselect⟩ := main_document_kept seedEnv seedParsers (ascii "S") (ascii "T") [] 0 hrun'
  exact ⟨data, hrun', Option.isNone_iff_eq_none.mp herror,
    hselect hmain (Option.isNone_iff_eq_none.mp herror) [] data (.nil data)⟩

end Runs
end Webshot.Crawler
