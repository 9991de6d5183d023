import Webshot.Crawler.JournaledTracker

/-! The tracker and the journal go on together, call by call and over a whole run. -/
namespace Webshot.Crawler
open Text Foundation.KeyedMaps Foundation.JsonText Foundation.TransitionRuns

namespace Silent
variable {data data' data'' : TrackerData} {id : Bytes} {request : TrackedRequest}

theorem refl (data : TrackerData) : Silent data data := ⟨fun _ => rfl, rfl, rfl, rfl⟩

theorem trans (h : Silent data data') (h' : Silent data' data'') : Silent data data'' :=
  ⟨fun id => (h'.active id).trans (h.active id), h'.resources.trans h.resources, h'.chain.trans h.chain,
    h'.redirects.trans h.redirects⟩

theorem fail (data : TrackerData) (reason : Bytes) : Silent data (data.fail reason) := ⟨fun _ => rfl, rfl, rfl, rfl⟩

theorem failIf (c : Prop) [Decidable c] (data : TrackerData) (reason : Bytes) :
    Silent data (if c then data.fail reason else data) := by
  split
  · exact fail data reason
  · exact refl data

/-- A request that is loaded is the hop it was. -/
theorem load (hrequest : data.activeRequests.lookup id = some request)
    (hactive : data'.activeRequests = data.activeRequests.insert id { request with loaded := true })
    (hresources : data'.redirectedResources = data.redirectedResources)
    (hchain : data'.redirectChain = data.redirectChain)
    (hredirects : data'.mainDocumentRedirects = data.mainDocumentRedirects) : Silent data data' := by
  refine ⟨fun id' => ?_, hresources, hchain, hredirects⟩
  rw [hactive, lookup_insert_eq]
  split
  · rename_i he
    rw [he, hrequest]
    rfl
  · rfl

end Silent

namespace CaptureEnv
variable {env : CaptureEnv} {parsers : EventParsers} {data data' : TrackerData} {journal : PageJournal} {clocks : Clocks}
  {id : Bytes}

theorem complete_fields (data : TrackerData) (id : Bytes) (request : TrackedRequest) :
    (complete data id request).activeRequests = data.activeRequests.insert id request ∧
      (complete data id request).redirectedResources = data.redirectedResources ∧
      (complete data id request).redirectChain = data.redirectChain ∧
      (complete data id request).mainDocumentRedirects = data.mainDocumentRedirects := by
  unfold complete
  split
  · exact ⟨rfl, rfl, rfl, rfl⟩
  · exact ⟨rfl, rfl, rfl, rfl⟩

theorem unknownRequest_silent {text : Bytes} (h : env.unknownRequest data id text = some data') : Silent data data' := by
  unfold unknownRequest at h
  split at h
  · obtain ⟨reason, _, rfl⟩ := Option.map_eq_some_iff.mp h
    exact .fail data reason
  · cases h
    exact .refl data

/-- The end of a request is noted before it is looked up. -/
private theorem settle_silent (id : Bytes) (clocks : Clocks) :
    Silent data { data with inflight := data.inflight.erase id, lastNetworkAt := clocks.steady } :=
  ⟨fun _ => rfl, rfl, rfl, rfl⟩

theorem handleLoadingFinished_silent {event : NetworkLoadingFinishedEvent}
    (h : env.handleLoadingFinished data event clocks = some data') : Silent data data' := by
  obtain ⟨id, _, h⟩ := Option.bind_eq_some_iff.mp h
  refine (settle_silent id clocks).trans ?_
  cases hrequest : data.activeRequests.lookup id with
  | none =>
    simp only [hrequest] at h
    exact unknownRequest_silent h
  | some request =>
    simp only [hrequest] at h
    cases h
    obtain ⟨hactive, hresources, hchain, hredirects⟩ := complete_fields
      { data with inflight := data.inflight.erase id, lastNetworkAt := clocks.steady } id { request with loaded := true }
    exact .load hrequest hactive hresources hchain hredirects

theorem handleLoadingFailed_silent {event : NetworkLoadingFailedEvent}
    (h : env.handleLoadingFailed data event clocks = some data') : Silent data data' := by
  obtain ⟨id, _, h⟩ := Option.bind_eq_some_iff.mp h
  refine (settle_silent id clocks).trans ?_
  cases hrequest : data.activeRequests.lookup id with
  | none =>
    simp only [hrequest] at h
    exact unknownRequest_silent h
  | some request =>
    simp only [hrequest] at h
    split at h
    · obtain ⟨reason, _, h⟩ := Option.bind_eq_some_iff.mp h
      cases h
      exact .load hrequest rfl rfl rfl rfl
    · cases h
      exact .load hrequest rfl rfl rfl rfl

/-- A response that the tracker takes is the response of the open hop. -/
theorem handleResponseReceived_recorded {event : NetworkResponseReceivedEvent} (hrecorded : Recorded data journal)
    (h : env.handleResponseReceived data event clocks = some data') :
    ∃ journal', env.journalResponse journal event clocks = some journal' ∧ Recorded data' journal' := by
  obtain ⟨id, hid, h⟩ := Option.bind_eq_some_iff.mp h
  have hopen := hrecorded.active id
  cases hrequest : data.activeRequests.lookup id with
  | none =>
    simp only [hrequest] at h
    rw [hrequest, Option.map_none] at hopen
    refine ⟨journal, ?_, hrecorded.of_silent (unknownRequest_silent h)⟩
    simp only [journalResponse, hid, Option.bind_eq_bind, Option.bind_some, ← hopen]
    rfl
  | some request =>
    simp only [hrequest] at h
    obtain ⟨statusMessage, hstatusMessage, h⟩ := Option.bind_eq_some_iff.mp h
    cases h
    rw [hrequest, Option.map_some] at hopen
    obtain ⟨hactive, hresources, hchain, hredirects⟩ := complete_fields data id
      { request.respond (event.response.status.getD 0) statusMessage
          (env.normalizeHeadersForCapture event.response.headers request.requestUrl) clocks.timestamp with
        resourceType := if event.type.isSome then env.stringOrNull event.type else request.resourceType
        loaderId := if event.loaderId.isSome then env.stringOrNull event.loaderId else request.loaderId }
    have hjournal : env.journalResponse journal event clocks = some (journal.amend id fun hop =>
        { hop with
          resourceType := if event.type.isSome then env.stringOrNull event.type else hop.resourceType
          response := some ⟨event.response.status.getD 0, statusMessage,
            env.normalizeHeadersForCapture event.response.headers hop.url, clocks.timestamp⟩ }) := by
      simp only [journalResponse, hid, Option.bind_eq_bind, Option.bind_some, ← hopen, hstatusMessage]
      rfl
    exact ⟨_, hjournal, hrecorded.answer hrequest hactive hresources hchain hredirects rfl rfl rfl⟩

/-- A redirect that the tracker closes ends the open hop. -/
theorem finalizeIfRedirected_recorded {event : NetworkRequestWillBeSentEvent} (hrecorded : Recorded data journal)
    (hhop : id ∈ data.activeRequests → event.redirectResponse.isSome)
    (h : env.finalizeIfRedirected data id event clocks = some data') :
    ∃ journal', env.journalRedirect journal id event.redirectResponse clocks = some journal' ∧ Recorded data' journal' ∧
      journal'.openHop id = none := by
  have hopen := hrecorded.active id
  unfold finalizeIfRedirected at h
  cases hresponse : event.redirectResponse with
  | none =>
    rw [hresponse] at h hhop
    cases h
    refine ⟨journal, rfl, hrecorded, ?_⟩
    rw [← hopen, AList.lookup_eq_none.mpr fun hmem => Bool.false_ne_true (hhop hmem), Option.map_none]
  | some response =>
    rw [hresponse] at h
    obtain ⟨status, hstatus, h⟩ := Option.bind_eq_some_iff.mp h
    cases hrequest : data.activeRequests.lookup id with
    | none =>
      simp only [hrequest] at h
      obtain ⟨reason, _, h⟩ := Option.bind_eq_some_iff.mp h
      cases h
      rw [hrequest, Option.map_none] at hopen
      refine ⟨journal, ?_, hrecorded.of_silent (.fail data reason), hopen.symm⟩
      simp only [journalRedirect, hstatus, Option.bind_eq_bind, Option.bind_some, ← hopen]
      rfl
    | some request =>
      simp only [hrequest] at h
      obtain ⟨statusMessage, hstatusMessage, h⟩ := Option.bind_eq_some_iff.mp h
      rw [hrequest, Option.map_some] at hopen
      obtain ⟨hclosed, hnone⟩ := hrecorded.close (f := fun hop =>
        { hop with
          response := some ⟨status, statusMessage, env.normalizeHeadersForCapture response.headers hop.url, clocks.timestamp⟩
          redirected := true }) hrequest h rfl rfl rfl
      refine ⟨_, ?_, hclosed, hnone⟩
      simp only [journalRedirect, hstatus, Option.bind_eq_bind, Option.bind_some, ← hopen, hstatusMessage]
      rfl

theorem trackRequest_recorded {rawUrl method : Bytes} {event : NetworkRequestWillBeSentEvent} {isTrackedMainDocument : Bool}
    (hrecorded : Recorded data journal) (hhop : id ∈ data.activeRequests → event.redirectResponse.isSome)
    (h : env.trackRequest data id rawUrl method event clocks isTrackedMainDocument = some data') :
    ∃ journal', env.journalAnnounced journal id rawUrl method event clocks isTrackedMainDocument = some journal' ∧
      Recorded data' journal' := by
  obtain ⟨finalized, hfinalized, h⟩ := Option.bind_eq_some_iff.mp h
  obtain ⟨url, hurl, h⟩ := Option.bind_eq_some_iff.mp h
  cases h
  obtain ⟨journal', hjournal', hrecorded', hnone⟩ := finalizeIfRedirected_recorded hrecorded hhop hfinalized
  have hprevious : (journal.openHop id).map (·.url) = (data.activeRequests.lookup id).map (·.requestUrl) := by
    rw [← hrecorded.active id, Option.map_map]
    rfl
  refine ⟨_, ?_, hrecorded'.announce hnone _⟩
  simp only [journalAnnounced, hprevious, hjournal', hurl, Option.bind_eq_bind, Option.bind_some]
  rfl

theorem handleRequestWillBeSent_recorded {event : NetworkRequestWillBeSentEvent} (hrecorded : Recorded data journal)
    (hok : AnnouncedByRedirect env data event) (h : env.handleRequestWillBeSent data event clocks = some data') :
    ∃ journal', env.journalRequest data journal event clocks = some journal' ∧ Recorded data' journal' := by
  unfold handleRequestWillBeSent at h
  unfold journalRequest
  split at h
  · rename_i hdata
    cases h
    rw [if_pos hdata]
    exact ⟨journal, rfl, hrecorded⟩
  · rename_i hdata
    rw [if_neg hdata]
    obtain ⟨id, hid, h⟩ := Option.bind_eq_some_iff.mp h
    obtain ⟨rawUrl, hrawUrl, h⟩ := Option.bind_eq_some_iff.mp h
    obtain ⟨method, hmethod, h⟩ := Option.bind_eq_some_iff.mp h
    have hhop : id ∈ data.activeRequests → event.redirectResponse.isSome := by
      intro hmem
      obtain ⟨response, _, hresponse, _⟩ := hok id hid hmem
      rw [hresponse]
      rfl
    have hquiet : Silent data { data with inflight := insert id data.inflight, lastNetworkAt := clocks.steady } :=
      ⟨fun _ => rfl, rfl, rfl, rfl⟩
    simp only [hid, hrawUrl, hmethod, Option.bind_eq_bind, Option.bind_some]
    simp only at h
    have hsame : TrackerData.mainCheck { data with inflight := insert id data.inflight, lastNetworkAt := clocks.steady }
        event rawUrl = data.mainCheck event rawUrl := rfl
    rw [hsame] at h
    cases hcheck : data.mainCheck event rawUrl with
    | aborted =>
      rw [hcheck] at h
      cases h
    | ignored =>
      rw [hcheck] at h
      cases h
      exact ⟨journal, rfl, hrecorded.of_silent hquiet⟩
    | main =>
      rw [hcheck] at h
      have hexpected : Silent data (env.expectLoader
          { data with inflight := insert id data.inflight, lastNetworkAt := clocks.steady } event.loaderId) ∧
          (env.expectLoader { data with inflight := insert id data.inflight, lastNetworkAt := clocks.steady }
            event.loaderId).activeRequests = data.activeRequests := by
        unfold expectLoader
        split
        · exact ⟨⟨fun _ => rfl, rfl, rfl, rfl⟩, rfl⟩
        · exact ⟨hquiet, rfl⟩
      obtain ⟨hsilent, hactive⟩ := hexpected
      refine trackRequest_recorded (hrecorded.of_silent hsilent) ?_ h
      rw [hactive]
      exact hhop
    | other =>
      rw [hcheck] at h
      exact trackRequest_recorded (hrecorded.of_silent hquiet) hhop h

end CaptureEnv

/-- The journal goes on with the data an event leaves: new data, or after an exception the old data. -/
def Handled.Journaled (data : TrackerData) (next : Option PageJournal) : Handled → Prop
  | .done data' => ∃ journal, next = some journal ∧ Recorded data' journal
  | .threw => ∃ journal, next = some journal ∧ Recorded data journal
  | .aborted => True

section Steps
variable {env : CaptureEnv} {parsers : EventParsers} {data data' : TrackerData} {journal : PageJournal} {clocks : Clocks}
  {event : CdpEvent}

private theorem fail_journaled (hrecorded : Recorded data journal) (text : Option Bytes) :
    (Handled.ofOption (text.map data.fail)).Journaled data (some journal) := by
  cases text with
  | none => trivial
  | some text => exact ⟨journal, rfl, hrecorded.of_silent (.fail data text)⟩

theorem handleGone_journaled (hrecorded : Recorded data journal) (params : Option (List (Bytes × Json)))
    (key own reason : Bytes) : (CaptureEnv.handleGone data params key own reason).Journaled data (some journal) := by
  unfold CaptureEnv.handleGone
  split
  · exact ⟨journal, rfl, hrecorded⟩
  · split
    · exact ⟨journal, rfl, hrecorded⟩
    · exact ⟨journal, rfl, hrecorded.of_silent (.failIf _ data reason)⟩

theorem handleInspectorDetached_journaled (hrecorded : Recorded data journal) (params : Option (List (Bytes × Json))) :
    (env.handleInspectorDetached data params).Journaled data (some journal) := by
  unfold CaptureEnv.handleInspectorDetached
  split
  · exact ⟨journal, rfl, hrecorded⟩
  · exact ⟨journal, rfl, hrecorded.of_silent (.fail data _)⟩
  · exact fail_journaled hrecorded _

/-- An event whose parameters are read is handled as the journal has it; any other leaves the journal alone. -/
theorem handleParsed_journaled {α : Type} (event : CdpEvent) (as : List (Bytes × Json) → Parsed α)
    (handle : TrackerData → α → Option TrackerData) (next : PageJournal → α → Option PageJournal)
    (hrecorded : Recorded data journal)
    (hhandle : ∀ params dto data', event.params = some params → as params = .parsed dto → handle data dto = some data' →
      ∃ journal', next journal dto = some journal' ∧ Recorded data' journal') :
    (env.handleParsed data event as handle).Journaled data (CaptureEnv.journalParsed journal event as next) := by
  unfold CaptureEnv.handleParsed CaptureEnv.journalParsed
  cases hparams : event.params with
  | none => exact fail_journaled hrecorded _
  | some params =>
    simp only [Option.map_some]
    cases hdto : as params with
    | jsonException => exact fail_journaled hrecorded _
    | otherException => exact ⟨journal, rfl, hrecorded⟩
    | parsed dto =>
      simp only
      cases hdone : handle data dto with
      | none => trivial
      | some data' => exact hhandle params dto data' hparams hdto hdone

theorem journalEvent_other (hrequest : event.method ≠ ascii "Network.requestWillBeSent")
    (hresponse : event.method ≠ ascii "Network.responseReceived") :
    env.journalEvent parsers data journal event clocks = some journal := by
  unfold CaptureEnv.journalEvent
  rw [if_neg hrequest, if_neg hresponse, ite_self]

theorem handlePageEvent_journaled (hrecorded : Recorded data journal) (hsession : event.sessionId = some data.sessionId)
    (hok : RedirectHops env parsers data (.handleEvent event clocks)) :
    (env.handlePageEvent parsers data event clocks).Journaled data
      (env.journalEvent parsers data journal event clocks) := by
  unfold CaptureEnv.handlePageEvent
  split
  · rename_i hmethod
    rw [journalEvent_other (by rw [hmethod]; decide) (by rw [hmethod]; decide)]
    exact ⟨journal, rfl, hrecorded.of_silent ⟨fun _ => rfl, rfl, rfl, rfl⟩⟩
  · split
    · rename_i hmethod
      rw [CaptureEnv.journalEvent, if_neg (not_not.mpr hsession), if_pos hmethod]
      exact handleParsed_journaled event parsers.asRequestWillBeSent (env.handleRequestWillBeSent · · clocks)
        (env.journalRequest data · · clocks) hrecorded fun params dto _ hparams hdto =>
          CaptureEnv.handleRequestWillBeSent_recorded hrecorded (hok params dto hmethod hsession hparams hdto)
    · rename_i hrequest
      split
      · rename_i hmethod
        rw [CaptureEnv.journalEvent, if_neg (not_not.mpr hsession), if_neg hrequest, if_pos hmethod]
        exact handleParsed_journaled event parsers.asResponseReceived (env.handleResponseReceived · · clocks)
          (env.journalResponse · · clocks) hrecorded fun _ _ _ _ _ => CaptureEnv.handleResponseReceived_recorded hrecorded
      · rename_i hresponse
        rw [journalEvent_other hrequest hresponse]
        have hkept : ∀ {α : Type} {as : List (Bytes × Json) → Parsed α} {handle : TrackerData → α → Option TrackerData},
            (∀ dto data', handle data dto = some data' → Silent data data') →
              (env.handleParsed data event as handle).Journaled data (some journal) := by
          intro α as handle hsilent
          have hsame : CaptureEnv.journalParsed journal event as (fun journal _ => some journal) = some journal := by
            unfold CaptureEnv.journalParsed
            split
            · rfl
            · rfl
          rw [← hsame]
          exact handleParsed_journaled event as handle (fun journal _ => some journal) hrecorded
            fun _ dto data' _ _ hdone => ⟨journal, rfl, hrecorded.of_silent (hsilent dto data' hdone)⟩
        split
        · exact hkept fun _ _ => CaptureEnv.handleLoadingFinished_silent
        · split
          · exact hkept fun _ _ => CaptureEnv.handleLoadingFailed_silent
          · exact ⟨journal, rfl, hrecorded⟩

theorem handleEvent_journaled (hrecorded : Recorded data journal)
    (hok : RedirectHops env parsers data (.handleEvent event clocks)) :
    (env.handleEvent parsers data event clocks).Journaled data (env.journalEvent parsers data journal event clocks) := by
  unfold CaptureEnv.handleEvent
  split
  · rename_i hmethod
    rw [journalEvent_other (by rw [hmethod]; decide) (by rw [hmethod]; decide)]
    split
    · exact ⟨journal, rfl, hrecorded⟩
    · split
      · exact ⟨journal, rfl, hrecorded⟩
      · exact ⟨journal, rfl, hrecorded.of_silent (.failIf _ data _)⟩
  · split
    · rename_i hmethod
      rw [journalEvent_other (by rw [hmethod]; decide) (by rw [hmethod]; decide)]
      exact handleGone_journaled hrecorded _ _ _ _
    · split
      · rename_i hmethod
        rw [journalEvent_other (by rw [hmethod]; decide) (by rw [hmethod]; decide)]
        exact handleGone_journaled hrecorded _ _ _ _
      · split
        · rename_i hmethod
          rw [journalEvent_other (by rw [hmethod]; decide) (by rw [hmethod]; decide)]
          split
          · exact ⟨journal, rfl, hrecorded⟩
          · exact handleInspectorDetached_journaled hrecorded _
        · split
          · rename_i hsession
            rw [CaptureEnv.journalEvent, if_pos hsession]
            exact ⟨journal, rfl, hrecorded⟩
          · rename_i hsession
            exact handlePageEvent_journaled hrecorded (not_not.mp hsession) hok

theorem trackerStep_recorded {call : TrackerCall} (hrecorded : Recorded data journal)
    (hok : RedirectHops env parsers data call) (h : trackerStep env parsers data call = some data') :
    ∃ journal', journalCall env parsers data journal call = some journal' ∧ Recorded data' journal' := by
  cases call with
  | beginSeedNavigation seedUrl =>
    cases h
    exact ⟨journal, rfl, hrecorded.of_silent ⟨fun _ => rfl, rfl, rfl, rfl⟩⟩
  | setMainFrameId mainFrameId =>
    cases h
    exact ⟨journal, rfl, hrecorded.of_silent ⟨fun _ => rfl, rfl, rfl, rfl⟩⟩
  | setExpectedMainLoaderId loaderId =>
    cases h
    cases loaderId with
    | none => exact ⟨journal, rfl, hrecorded⟩
    | some loaderId => exact ⟨journal, rfl, hrecorded.of_silent ⟨fun _ => rfl, rfl, rfl, rfl⟩⟩
  | handleEvent event clocks =>
    have hjournaled := handleEvent_journaled hrecorded hok
    unfold trackerStep at h
    simp only at h
    split at h
    · rename_i hdone
      cases h
      rw [hdone] at hjournaled
      exact hjournaled
    · rename_i hthrew
      cases h
      rw [hthrew] at hjournaled
      exact hjournaled
    · cases h
  | fail reason =>
    cases h
    exact ⟨journal, rfl, hrecorded.of_silent (.fail data reason)⟩

/-- A run of the tracker has a journal, and what the tracker holds at its end is what the journal says. -/
theorem run_recorded {calls : List TrackerCall} (hrecorded : Recorded data journal)
    (h : Run (trackerStep env parsers) (RedirectHops env parsers) data calls data') :
    ∃ journal', journalOf env parsers data journal calls = some journal' ∧ Recorded data' journal' := by
  induction h generalizing journal with
  | nil data => exact ⟨journal, rfl, hrecorded⟩
  | cons hok hstep _ ih =>
    obtain ⟨next, hnext, hrecorded'⟩ := trackerStep_recorded hrecorded hok hstep
    obtain ⟨last, hlast, hrecorded''⟩ := ih hrecorded'
    refine ⟨last, ?_, hrecorded''⟩
    simp only [journalOf, hnext, hstep, Option.bind_eq_bind, Option.bind_some]
    exact hlast

end Steps

section Runs

/-- The seed is requested and answered. -/
private def announcedCalls : List TrackerCall :=
  [.setMainFrameId (ascii "F"), .beginSeedNavigation (ascii "http://a/"),
    .handleEvent (seedEvent "Network.requestWillBeSent") seedClocks,
    .handleEvent (seedEvent "Network.responseReceived") seedClocks]

end Runs
end Webshot.Crawler
