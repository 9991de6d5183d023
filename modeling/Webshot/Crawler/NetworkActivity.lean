import Webshot.Crawler.CaptureWaits

/-! Which events of a page count as network activity, and what they leave of it. -/
namespace Webshot.Crawler
open Text Foundation.KeyedMaps Foundation.JsonText

/-- The requests in flight are the same, and the time of the last activity is. -/
def SameNetwork (data data' : TrackerData) : Prop :=
  data'.inflight = data.inflight ∧ data'.lastNetworkAt = data.lastNetworkAt

/-- Activity is noted under the reading of the clock. -/
def NetworkMove (steady : Int) (data data' : TrackerData) : Prop :=
  SameNetwork data data' ∨ data'.lastNetworkAt = steady

namespace SameNetwork
variable {data data' data'' : TrackerData} {steady : Int}

theorem refl (data : TrackerData) : SameNetwork data data := ⟨rfl, rfl⟩

theorem trans (h : SameNetwork data data') (h' : SameNetwork data' data'') : SameNetwork data data'' :=
  ⟨h'.1.trans h.1, h'.2.trans h.2⟩

/-- What comes after activity and touches nothing of it. -/
theorem noted (h : SameNetwork data' data'') (hsteady : data'.lastNetworkAt = steady) :
    NetworkMove steady data data'' :=
  Or.inr (h.2.trans hsteady)

end SameNetwork

namespace CaptureEnv
variable {env : CaptureEnv} {data data' : TrackerData} {clocks : Clocks}

private theorem complete_network (id : Bytes) (request : TrackedRequest) :
    SameNetwork data (complete data id request) := by
  unfold complete
  split
  · exact ⟨rfl, rfl⟩
  · exact ⟨rfl, rfl⟩

private theorem unknownRequest_network {id text : Bytes} (h : env.unknownRequest data id text = some data') :
    SameNetwork data data' := by
  unfold unknownRequest at h
  split at h
  · obtain ⟨reason, _, rfl⟩ := Option.map_eq_some_iff.mp h
    exact ⟨rfl, rfl⟩
  · cases h
    exact .refl data

theorem handleResponseReceived_network {event : NetworkResponseReceivedEvent}
    (h : env.handleResponseReceived data event clocks = some data') : SameNetwork data data' := by
  obtain ⟨id, _, h⟩ := Option.bind_eq_some_iff.mp h
  cases hrequest : data.activeRequests.lookup id with
  | none =>
    simp only [hrequest] at h
    exact unknownRequest_network h
  | some request =>
    simp only [hrequest] at h
    obtain ⟨statusMessage, _, h⟩ := Option.bind_eq_some_iff.mp h
    cases h
    exact complete_network id _

theorem handleLoadingFinished_network {event : NetworkLoadingFinishedEvent}
    (h : env.handleLoadingFinished data event clocks = some data') : data'.lastNetworkAt = clocks.steady := by
  obtain ⟨id, _, h⟩ := Option.bind_eq_some_iff.mp h
  cases hrequest : data.activeRequests.lookup id with
  | none =>
    simp only [hrequest] at h
    exact (unknownRequest_network h).2
  | some request =>
    simp only [hrequest] at h
    cases h
    exact (complete_network id _).2

theorem handleLoadingFailed_network {event : NetworkLoadingFailedEvent}
    (h : env.handleLoadingFailed data event clocks = some data') : data'.lastNetworkAt = clocks.steady := by
  obtain ⟨id, _, h⟩ := Option.bind_eq_some_iff.mp h
  cases hrequest : data.activeRequests.lookup id with
  | none =>
    simp only [hrequest] at h
    exact (unknownRequest_network h).2
  | some request =>
    simp only [hrequest] at h
    split at h
    · obtain ⟨reason, _, h⟩ := Option.bind_eq_some_iff.mp h
      cases h
      rfl
    · cases h
      rfl

private theorem recordMainDocumentRedirect_network {request : TrackedRequest}
    (h : data.recordMainDocumentRedirect request = some data') : SameNetwork data data' := by
  obtain ⟨response, _, h⟩ := Option.map_eq_some_iff.mp h
  simp only at h
  split at h
  · cases h
    exact .refl data
  · cases h
    exact ⟨rfl, rfl⟩

private theorem closeRedirected_network {id : Bytes} {request : TrackedRequest}
    (h : closeRedirected data id request = some data') : SameNetwork data data' := by
  unfold closeRedirected at h
  split at h
  · obtain ⟨recorded, hrecorded, h⟩ := Option.map_eq_some_iff.mp h
    have hsame := recordMainDocumentRedirect_network hrecorded
    split at h
    · cases h
      exact hsame
    · cases h
      exact hsame
  · obtain ⟨response, _, rfl⟩ := Option.map_eq_some_iff.mp h
    exact ⟨rfl, rfl⟩

private theorem finalizeRedirectRequest_network {id : Bytes} {response : NetworkResponse}
    (h : env.finalizeRedirectRequest data id response clocks = some data') : SameNetwork data data' := by
  obtain ⟨status, _, h⟩ := Option.bind_eq_some_iff.mp h
  cases hrequest : data.activeRequests.lookup id with
  | none =>
    simp only [hrequest] at h
    obtain ⟨reason, _, h⟩ := Option.bind_eq_some_iff.mp h
    cases h
    exact ⟨rfl, rfl⟩
  | some request =>
    simp only [hrequest] at h
    obtain ⟨statusMessage, _, h⟩ := Option.bind_eq_some_iff.mp h
    obtain ⟨hinflight, hlast⟩ := closeRedirected_network h
    exact ⟨hinflight, hlast⟩

private theorem addRequest_network (id : Bytes) (request : TrackedRequest) :
    SameNetwork data (addRequest data id request) := by
  unfold addRequest
  split
  · exact ⟨rfl, rfl⟩
  · exact ⟨rfl, rfl⟩

private theorem trackRequest_network {id rawRequestUrl requestMethod : Bytes} {event : NetworkRequestWillBeSentEvent}
    {isTrackedMainDocument : Bool}
    (h : env.trackRequest data id rawRequestUrl requestMethod event clocks isTrackedMainDocument = some data') :
    SameNetwork data data' := by
  obtain ⟨finalized, hfinalized, h⟩ := Option.bind_eq_some_iff.mp h
  obtain ⟨canonicalRequestUrl, _, h⟩ := Option.bind_eq_some_iff.mp h
  cases h
  have hsame : SameNetwork data finalized := by
    unfold finalizeIfRedirected at hfinalized
    split at hfinalized
    · cases hfinalized
      exact .refl data
    · exact finalizeRedirectRequest_network hfinalized
  exact hsame.trans (addRequest_network id _)

/-- A request is noted unless it is for data that the URL holds itself. -/
theorem handleRequestWillBeSent_network {event : NetworkRequestWillBeSentEvent}
    (h : env.handleRequestWillBeSent data event clocks = some data') : NetworkMove clocks.steady data data' := by
  unfold handleRequestWillBeSent at h
  split at h
  · cases h
    exact Or.inl (.refl data)
  · obtain ⟨id, _, h⟩ := Option.bind_eq_some_iff.mp h
    obtain ⟨rawRequestUrl, _, h⟩ := Option.bind_eq_some_iff.mp h
    obtain ⟨requestMethod, _, h⟩ := Option.bind_eq_some_iff.mp h
    simp only at h
    split at h
    · cases h
    · cases h
      exact Or.inr rfl
    · have hloader : ∀ quiet : TrackerData, SameNetwork quiet (env.expectLoader quiet event.loaderId) := by
        intro quiet
        unfold expectLoader
        split
        · exact ⟨rfl, rfl⟩
        · exact .refl quiet
      exact ((hloader _).trans (trackRequest_network h)).noted rfl
    · exact (trackRequest_network h).noted rfl

private theorem failed_network {text : Option Bytes} (h : Handled.ofOption (text.map data.fail) = .done data') :
    SameNetwork data data' := by
  obtain ⟨reason, _, rfl⟩ := Option.map_eq_some_iff.mp (ofOption_eq_done h)
  exact ⟨rfl, rfl⟩

private theorem failIf_network (c : Prop) [Decidable c] (reason : Bytes) :
    SameNetwork data (if c then data.fail reason else data) := by
  split
  · exact ⟨rfl, rfl⟩
  · exact .refl data

private theorem handleGone_network {params : Option (List (Bytes × Json))} {key own reason : Bytes}
    (h : handleGone data params key own reason = .done data') : SameNetwork data data' := by
  unfold handleGone at h
  split at h
  · cases h
    exact .refl data
  · split at h
    · cases h
    · cases h
      exact failIf_network _ reason

private theorem handleInspectorDetached_network {params : Option (List (Bytes × Json))}
    (h : env.handleInspectorDetached data params = .done data') : SameNetwork data data' := by
  unfold handleInspectorDetached at h
  split at h
  · cases h
  · cases h
    exact ⟨rfl, rfl⟩
  · exact failed_network h

private theorem handleParsed_network {α : Type} {event : CdpEvent} {as : List (Bytes × Json) → Parsed α}
    {handle : TrackerData → α → Option TrackerData} {steady : Int}
    (h : env.handleParsed data event as handle = .done data')
    (hhandle : ∀ dto, handle data dto = some data' → NetworkMove steady data data') : NetworkMove steady data data' := by
  unfold handleParsed at h
  split at h
  · exact Or.inl (failed_network h)
  · split at h
    · exact Or.inl (failed_network h)
    · cases h
    · rename_i dto _
      exact hhandle dto (ofOption_eq_done h)

private theorem handlePageEvent_network {parsers : EventParsers} {event : CdpEvent}
    (h : env.handlePageEvent parsers data event clocks = .done data') : NetworkMove clocks.steady data data' := by
  unfold handlePageEvent at h
  split at h
  · cases h
    exact Or.inl ⟨rfl, rfl⟩
  · split at h
    · exact handleParsed_network h fun _ => handleRequestWillBeSent_network
    · split at h
      · exact handleParsed_network h fun _ hhandle => Or.inl (handleResponseReceived_network hhandle)
      · split at h
        · exact handleParsed_network h fun _ hhandle => Or.inr (handleLoadingFinished_network hhandle)
        · split at h
          · exact handleParsed_network h fun _ hhandle => Or.inr (handleLoadingFailed_network hhandle)
          · cases h
            exact Or.inl (.refl data)

/-- An event changes the requests in flight or the time of the last activity only by noting the activity now. -/
theorem handleEvent_network {parsers : EventParsers} {event : CdpEvent}
    (h : env.handleEvent parsers data event clocks = .done data') : NetworkMove clocks.steady data data' := by
  unfold handleEvent at h
  split at h
  · split at h
    · cases h
      exact Or.inl (.refl data)
    · split at h
      · cases h
      · cases h
        exact Or.inl (failIf_network _ _)
  · split at h
    · exact Or.inl (handleGone_network h)
    · split at h
      · exact Or.inl (handleGone_network h)
      · split at h
        · split at h
          · cases h
            exact Or.inl (.refl data)
          · exact Or.inl (handleInspectorDetached_network h)
        · split at h
          · cases h
            exact Or.inl (.refl data)
          · exact handlePageEvent_network h

end CaptureEnv

end Webshot.Crawler
