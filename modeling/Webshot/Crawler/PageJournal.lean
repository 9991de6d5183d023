import Webshot.Crawler.PageTracker
import Webshot.Crawler.TrackerInvariant

/-! The journal of a page: every request the browser announced to the crawler, in order, with the response it got. -/
namespace Webshot.Crawler
open Text Foundation.KeyedMaps Foundation.JsonText

/-- A response as the browser reported it. -/
structure PageResponse where
  statusCode : Int
  statusMessage : Bytes
  headers : Headers
  timestamp : Bytes

/-- One hop of a request: a redirect ends it, and the next hop is announced under the same id. -/
structure PageHop where
  requestId : Bytes
  url : Bytes
  method : Bytes
  resourceType : Option Bytes
  forMainDocument : Bool
  response : Option PageResponse := none
  redirected : Bool := false

abbrev PageJournal := List PageHop

namespace PageHop

/-- The hop may still get a response under this id. -/
def isOpen (id : Bytes) (hop : PageHop) : Bool := hop.requestId = id && !hop.redirected

/-- The hop as a resource of a capture, if it got a response. -/
def resource (hop : PageHop) (body : Bytes) : Option CapturedResource :=
  hop.response.map fun response =>
    { resourceUrl := hop.url
      method := hop.method
      resourceType := hop.resourceType
      statusCode := response.statusCode
      statusMessage := response.statusMessage
      headers := response.headers
      body := body
      timestamp := response.timestamp }

/-- The hop as a redirect of the main document, if it got a response. -/
def redirect (hop : PageHop) : Option CapturedMainDocumentRedirect :=
  hop.response.map fun response =>
    ⟨hop.url, response.statusCode, response.statusMessage, response.headers, response.timestamp⟩

end PageHop

namespace PageJournal

def openHop (journal : PageJournal) (id : Bytes) : Option PageHop := journal.find? (PageHop.isOpen id)

/-- The open hop of the id changes. -/
def amend (journal : PageJournal) (id : Bytes) (f : PageHop → PageHop) : PageJournal :=
  journal.map fun hop => if hop.isOpen id then f hop else hop

/-- The hops for the main document. -/
def main (journal : PageJournal) : PageJournal := journal.filter (·.forMainDocument)

/-- The other hops. -/
def other (journal : PageJournal) : PageJournal := journal.filter (!·.forMainDocument)

end PageJournal

namespace CaptureEnv
variable (env : CaptureEnv)

/-- A redirect is the response of the open hop, and its end. -/
def journalRedirect (journal : PageJournal) (id : Bytes) (response : Option NetworkResponse) (clocks : Clocks) :
    Option PageJournal :=
  match response with
  | none => some journal
  | some response => do
    let status ← response.status
    match journal.openHop id with
    | none => return journal
    | some _ =>
      let statusMessage ← fromBytes env.una (response.statusText.getD [])
      return journal.amend id fun hop =>
        { hop with
          response := some ⟨status, statusMessage, env.normalizeHeadersForCapture response.headers hop.url, clocks.timestamp⟩
          redirected := true }

/-- A request is announced under the URL its redirect leads to. -/
def journalAnnounced (journal : PageJournal) (id rawUrl method : Bytes) (event : NetworkRequestWillBeSentEvent)
    (clocks : Clocks) (forMainDocument : Bool) : Option PageJournal := do
  let previousUrl := (journal.openHop id).map (·.url)
  let journal ← env.journalRedirect journal id event.redirectResponse clocks
  let url ← env.canonicalRequestUrl previousUrl rawUrl event.redirectResponse
  return journal ++
    [{ requestId := id
       url := url
       method := method
       resourceType := env.stringOrNull event.type
       forMainDocument := forMainDocument }]

/-- Requests for `data:` URLs and for documents of the main frame other than the page's own are not the page's. -/
def journalRequest (data : TrackerData) (journal : PageJournal) (event : NetworkRequestWillBeSentEvent) (clocks : Clocks) :
    Option PageJournal := do
  if startsWith event.url (ascii "data:") then return journal
  let id ← fromBytes env.una event.requestId
  let rawUrl ← fromBytes env.una event.url
  let method ← fromBytes env.una event.method
  match data.mainCheck event rawUrl with
  | .aborted => none
  | .ignored => return journal
  | .main => env.journalAnnounced journal id rawUrl method event clocks true
  | .other => env.journalAnnounced journal id rawUrl method event clocks false

def journalResponse (journal : PageJournal) (event : NetworkResponseReceivedEvent) (clocks : Clocks) :
    Option PageJournal := do
  let id ← fromBytes env.una event.requestId
  match journal.openHop id with
  | none => return journal
  | some _ =>
    let statusMessage ← fromBytes env.una (event.response.statusText.getD [])
    return journal.amend id fun hop =>
      { hop with
        resourceType := if event.type.isSome then env.stringOrNull event.type else hop.resourceType
        response := some ⟨event.response.status.getD 0, statusMessage,
          env.normalizeHeadersForCapture event.response.headers hop.url, clocks.timestamp⟩ }

/-- Only an event whose parameters are read adds to the journal. -/
def journalParsed {α : Type} (journal : PageJournal) (event : CdpEvent) (as : List (Bytes × Json) → Parsed α)
    (next : PageJournal → α → Option PageJournal) : Option PageJournal :=
  match event.params.map as with
  | some (.parsed dto) => next journal dto
  | _ => some journal

/-- What the events of the page's own session add to the journal. -/
def journalEvent (parsers : EventParsers) (data : TrackerData) (journal : PageJournal) (event : CdpEvent) (clocks : Clocks) :
    Option PageJournal :=
  if event.sessionId ≠ some data.sessionId then some journal
  else if event.method = ascii "Network.requestWillBeSent" then
    journalParsed journal event parsers.asRequestWillBeSent (env.journalRequest data · · clocks)
  else if event.method = ascii "Network.responseReceived" then
    journalParsed journal event parsers.asResponseReceived (env.journalResponse · · clocks)
  else some journal

end CaptureEnv

/-- What a call of the tracker adds to the journal. -/
def journalCall (env : CaptureEnv) (parsers : EventParsers) (data : TrackerData) (journal : PageJournal) :
    TrackerCall → Option PageJournal
  | .handleEvent event clocks => env.journalEvent parsers data journal event clocks
  | _ => some journal

/-- The journal of a run of the tracker. -/
def journalOf (env : CaptureEnv) (parsers : EventParsers) (data : TrackerData) (journal : PageJournal) :
    List TrackerCall → Option PageJournal
  | [] => some journal
  | call :: calls => do
    let journal ← journalCall env parsers data journal call
    let data ← trackerStep env parsers data call
    journalOf env parsers data journal calls

namespace PageJournal
variable {journal : PageJournal} {id id' : Bytes} {hop : PageHop} {f : PageHop → PageHop}

/-- No id has two open hops. -/
def OpenOnce (journal : PageJournal) : Prop := ((journal.filter (!·.redirected)).map (·.requestId)).Nodup

theorem openHop_spec (h : journal.openHop id = some hop) : hop.requestId = id ∧ hop.redirected = false := by
  have hopen := List.find?_some h
  rw [PageHop.isOpen, Bool.and_eq_true, Bool.not_eq_true', decide_eq_true_eq] at hopen
  exact hopen

/-- The journal around the open hop of an id, which is the only one that an amendment changes. -/
theorem amend_split (honce : journal.OpenOnce) (h : journal.openHop id = some hop) :
    ∃ before after, journal = before ++ hop :: after ∧ (∀ other ∈ before ++ after, other.isOpen id = false) ∧
      ∀ f, journal.amend id f = before ++ f hop :: after := by
  obtain ⟨hopen, before, after, rfl, hbefore⟩ := List.find?_eq_some_iff_append.mp h
  obtain ⟨hid, hkept⟩ := openHop_spec h
  have hfirst : ∀ other ∈ before, other.isOpen id = false := fun other hother => by
    rw [← Bool.not_eq_true']
    exact hbefore other hother
  have hlast : ∀ other ∈ after, other.isOpen id = false := by
    intro other hother
    rw [OpenOnce, List.filter_append, List.filter_cons_of_pos (by rw [hkept]; rfl), List.map_append, List.map_cons] at honce
    have hfresh := (List.nodup_cons.mp (List.nodup_append.mp honce).2.1).1
    rw [Bool.eq_false_iff]
    intro hopen'
    rw [PageHop.isOpen, Bool.and_eq_true, decide_eq_true_eq] at hopen'
    apply hfresh
    rw [hid, ← hopen'.1]
    exact List.mem_map_of_mem (List.mem_filter.mpr ⟨hother, hopen'.2⟩)
  refine ⟨before, after, rfl, ?_, ?_⟩
  · intro other hother
    rcases List.mem_append.mp hother with hother | hother
    · exact hfirst other hother
    · exact hlast other hother
  · intro f
    have hsame : ∀ hops : PageJournal, (∀ other ∈ hops, other.isOpen id = false) →
        hops.map (fun hop => if hop.isOpen id then f hop else hop) = hops := by
      intro hops hclosed
      calc
        hops.map (fun hop => if hop.isOpen id then f hop else hop) = hops.map fun hop => hop := by
          apply List.map_congr_left
          intro other hother
          rw [hclosed other hother]
          rfl
        _ = hops := List.map_id' hops
    rw [amend, List.map_append, List.map_cons, hsame before hfirst, hsame after hlast, if_pos hopen]

end PageJournal
end Webshot.Crawler
