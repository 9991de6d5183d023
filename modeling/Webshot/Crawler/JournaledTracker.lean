import Webshot.Crawler.PageJournal
import Webshot.Foundation.Repetitions

/-! The page tracker keeps the journal: no response the browser reported is lost, and none is recorded twice. -/
namespace Webshot.Crawler
open Text Foundation.KeyedMaps Foundation.Repetitions Foundation.TransitionRuns

/-- A request as the hop it is. -/
def TrackedRequest.hop (request : TrackedRequest) (id : Bytes) : PageHop where
  requestId := id
  url := request.requestUrl
  method := request.method
  resourceType := request.resourceType
  forMainDocument := request.isTrackedMainDocument
  response := (toMainResponse request).map fun response =>
    ⟨response.statusCode, response.statusMessage, response.headers, response.timestamp⟩

/-- What the tracker holds is what the journal says. -/
structure Recorded (data : TrackerData) (journal : PageJournal) : Prop where
  once : journal.OpenOnce
  active : ∀ id, (data.activeRequests.lookup id).map (·.hop id) = journal.openHop id
  closed : ∀ hop ∈ journal, hop.redirected = true → hop.response.isSome
  resources : data.redirectedResources.Perm ((journal.other.filter (·.redirected)).filterMap (·.resource []))
  chain : data.redirectChain = (journal.main.map (·.url)).destutter (· ≠ ·)
  redirects : ∀ redirect ∈ data.mainDocumentRedirects, ∃ hop ∈ journal.main, hop.redirected = true ∧
    hop.redirect = some redirect
  redirected : ∀ hop ∈ journal.main, hop.redirected = true → ∀ response, hop.response = some response →
    ∃ redirect ∈ data.mainDocumentRedirects, redirect.redirectUrl = hop.url ∧ redirect.statusCode = response.statusCode

/-- The data changes in nothing that is recorded. -/
structure Silent (data data' : TrackerData) : Prop where
  active : ∀ id, (data'.activeRequests.lookup id).map (·.hop id) = (data.activeRequests.lookup id).map (·.hop id)
  resources : data'.redirectedResources = data.redirectedResources
  chain : data'.redirectChain = data.redirectChain
  redirects : data'.mainDocumentRedirects = data.mainDocumentRedirects

namespace Recorded
variable {data data' : TrackerData} {journal : PageJournal} {id : Bytes} {hop : PageHop} {f : PageHop → PageHop}

theorem initial (hactive : data.activeRequests = ∅) (hresources : data.redirectedResources = [])
    (hchain : data.redirectChain = []) (hredirects : data.mainDocumentRedirects = []) : Recorded data [] where
  once := List.nodup_nil
  active id := by
    rw [hactive]
    rfl
  closed hop hhop := absurd hhop List.not_mem_nil
  resources := by
    rw [hresources]
    exact .refl _
  chain := hchain
  redirects := by
    rw [hredirects]
    exact fun redirect hredirect => absurd hredirect List.not_mem_nil
  redirected hop hhop := absurd hhop List.not_mem_nil

/-- Changes that leave every open hop as it is record nothing. -/
theorem of_silent (h : Recorded data journal) (hsilent : Silent data data') : Recorded data' journal where
  once := h.once
  active id := (hsilent.active id).trans (h.active id)
  closed := h.closed
  resources := hsilent.resources ▸ h.resources
  chain := hsilent.chain.trans h.chain
  redirects := hsilent.redirects ▸ h.redirects
  redirected := hsilent.redirects ▸ h.redirected

/-- The hops before and after the open one. -/
private theorem openHop_around {before after : PageJournal} (hclosed : ∀ other ∈ before ++ after, other.isOpen id = false) :
    PageJournal.openHop (before ++ hop :: after) id = if hop.isOpen id then some hop else none := by
  have hnone : ∀ hops : PageJournal, (∀ other ∈ hops, other.isOpen id = false) → hops.find? (PageHop.isOpen id) = none := by
    intro hops hhops
    rw [List.find?_eq_none]
    intro other hother
    rw [hhops other hother]
    exact Bool.false_ne_true
  have hbefore := hnone before fun other hother => hclosed other (List.mem_append_left after hother)
  have hafter := hnone after fun other hother => hclosed other (List.mem_append_right before hother)
  rw [PageJournal.openHop, List.find?_append, hbefore, Option.none_or]
  split
  · exact List.find?_cons_of_pos ‹_›
  · rw [List.find?_cons_of_neg ‹_›, hafter]

/-- Another id has the same open hop whatever becomes of this one. -/
private theorem openHop_other {before after : PageJournal} {hop' : PageHop} {id' : Bytes} (hid : hop.requestId ≠ id')
    (hid' : hop'.requestId ≠ id') :
    PageJournal.openHop (before ++ hop' :: after) id' = PageJournal.openHop (before ++ hop :: after) id' := by
  have hno : ∀ hop : PageHop, hop.requestId ≠ id' → ¬ hop.isOpen id' = true := by
    intro hop hne hopen
    rw [PageHop.isOpen, Bool.and_eq_true, decide_eq_true_eq] at hopen
    exact hne hopen.1
  rw [PageJournal.openHop, PageJournal.openHop, List.find?_append, List.find?_append, List.find?_cons_of_neg (hno _ hid),
    List.find?_cons_of_neg (hno _ hid')]

/-- The open hop of an id changes into one that is still open. -/
theorem answer (h : Recorded data journal) {old new : TrackedRequest} (hold : data.activeRequests.lookup id = some old)
    (hactive : data'.activeRequests = data.activeRequests.insert id new)
    (hresources : data'.redirectedResources = data.redirectedResources)
    (hchain : data'.redirectChain = data.redirectChain)
    (hredirects : data'.mainDocumentRedirects = data.mainDocumentRedirects) (hnew : new.hop id = f (old.hop id))
    (htracked : new.isTrackedMainDocument = old.isTrackedMainDocument) (hurl : new.requestUrl = old.requestUrl) :
    Recorded data' (journal.amend id f) := by
  have hopen : journal.openHop id = some (old.hop id) := by
    rw [← h.active id, hold]
    rfl
  obtain ⟨before, after, hjournal, hclosed, hamend⟩ := PageJournal.amend_split h.once hopen
  rw [hamend f, ← hnew]
  subst hjournal
  have hkeep : ∀ p : PageHop → Bool, p (new.hop id) = false → p (old.hop id) = false →
      (before ++ new.hop id :: after).filter p = (before ++ old.hop id :: after).filter p := by
    intro p hnew hold
    rw [List.filter_append, List.filter_append, List.filter_cons_of_neg (Bool.eq_false_iff.mp hold),
      List.filter_cons_of_neg (Bool.eq_false_iff.mp hnew)]
  refine ⟨?_, ?_, ?_, ?_, ?_, ?_, ?_⟩
  · have honce := h.once
    rw [PageJournal.OpenOnce, List.filter_append, List.filter_cons_of_pos rfl, List.map_append, List.map_cons] at honce ⊢
    exact honce
  · intro id'
    rw [hactive, lookup_insert_eq]
    split
    · rename_i he
      rw [he, openHop_around hclosed]
      exact (if_pos (by rw [PageHop.isOpen]; simp [TrackedRequest.hop])).symm
    · rename_i hne
      rw [h.active id']
      exact (openHop_other (fun he => hne he.symm) fun he => hne he.symm).symm
  · intro hop hhop hredirected
    rcases List.mem_append.mp hhop with hbefore | hafter
    · exact h.closed hop (List.mem_append_left _ hbefore) hredirected
    · rcases List.mem_cons.mp hafter with rfl | hafter
      · cases hredirected
      · exact h.closed hop (List.mem_append_right _ (List.mem_cons_of_mem _ hafter)) hredirected
  · have hresources' := h.resources
    rw [PageJournal.other, List.filter_filter] at hresources' ⊢
    rw [hresources, hkeep _ (by simp [TrackedRequest.hop]) (by simp [TrackedRequest.hop])]
    exact hresources'
  · rw [hchain, h.chain]
    have hmain : (PageJournal.main (before ++ new.hop id :: after)).map (·.url) =
        (PageJournal.main (before ++ old.hop id :: after)).map (·.url) := by
      rw [PageJournal.main, PageJournal.main, List.filter_append, List.filter_append, List.filter_cons, List.filter_cons]
      change (_ ++ (if new.isTrackedMainDocument then _ else _) : List PageHop).map _ =
        (_ ++ (if old.isTrackedMainDocument then _ else _) : List PageHop).map _
      rw [htracked]
      split
      · rw [List.map_append, List.map_append, List.map_cons, List.map_cons]
        change _ ++ new.requestUrl :: _ = _ ++ old.requestUrl :: _
        rw [hurl]
      · rfl
    rw [hmain]
  · intro redirect hredirect
    rw [hredirects] at hredirect
    obtain ⟨hop, hhop, hredirected, heq⟩ := h.redirects redirect hredirect
    refine ⟨hop, ?_, hredirected, heq⟩
    rw [PageJournal.main, List.mem_filter, List.mem_append, List.mem_cons] at hhop ⊢
    obtain ⟨hbefore | rfl | hafter, hmain⟩ := hhop
    · exact ⟨.inl hbefore, hmain⟩
    · cases hredirected
    · exact ⟨.inr (.inr hafter), hmain⟩
  · intro hop hhop hredirected
    rw [hredirects]
    refine h.redirected hop ?_ hredirected
    rw [PageJournal.main, List.mem_filter, List.mem_append, List.mem_cons] at hhop ⊢
    obtain ⟨hbefore | rfl | hafter, hmain⟩ := hhop
    · exact ⟨.inl hbefore, hmain⟩
    · cases hredirected
    · exact ⟨.inr (.inr hafter), hmain⟩

/-- Urls of the main document do not change with what becomes of a hop. -/
private theorem main_urls {before after : PageJournal} {hop' : PageHop} (hmain : hop'.forMainDocument = hop.forMainDocument)
    (hurl : hop'.url = hop.url) : (PageJournal.main (before ++ hop' :: after)).map (·.url) =
      (PageJournal.main (before ++ hop :: after)).map (·.url) := by
  rw [PageJournal.main, PageJournal.main, List.filter_append, List.filter_append, List.filter_cons, List.filter_cons, hmain]
  split
  · rw [List.map_append, List.map_append, List.map_cons, List.map_cons, hurl]
  · rfl

/-- What the end of a redirected request adds to the data. -/
inductive Closes (id : Bytes) (request : TrackedRequest) (data data' : TrackerData) : Prop where
  | main (redirect : CapturedMainDocumentRedirect) (is_main : request.isTrackedMainDocument = true)
      (made : (request.hop id).redirect = some redirect) (resources : data'.redirectedResources = data.redirectedResources)
      (sound : ∀ r ∈ data'.mainDocumentRedirects, r ∈ data.mainDocumentRedirects ∨ r = redirect)
      (kept : ∀ r ∈ data.mainDocumentRedirects, r ∈ data'.mainDocumentRedirects)
      (recorded : ∃ r ∈ data'.mainDocumentRedirects, r.redirectUrl = redirect.redirectUrl ∧
        r.statusCode = redirect.statusCode)
  | other (resource : CapturedResource) (not_main : request.isTrackedMainDocument = false)
      (made : (request.hop id).resource [] = some resource)
      (resources : data'.redirectedResources = data.redirectedResources ++ [resource])
      (redirects : data'.mainDocumentRedirects = data.mainDocumentRedirects)

private theorem recordMainDocumentRedirect_closes {request : TrackedRequest} (id : Bytes)
    (hmain : request.isTrackedMainDocument = true) (h : data.recordMainDocumentRedirect request = some data') :
    data'.activeRequests = data.activeRequests ∧ data'.redirectChain = data.redirectChain ∧ Closes id request data data' := by
  obtain ⟨response, hresponse, h⟩ := Option.map_eq_some_iff.mp h
  have hmade : (request.hop id).redirect = some ⟨request.requestUrl, response.statusCode, response.statusMessage,
      response.headers, response.timestamp⟩ := by
    rw [PageHop.redirect, TrackedRequest.hop, hresponse]
    rfl
  simp only at h
  split at h
  · rename_i hrepeated
    cases h
    obtain ⟨previous, hprevious, hsame⟩ := (Option.any_eq_true _ _).mp hrepeated
    rw [Bool.and_eq_true, decide_eq_true_eq, decide_eq_true_eq] at hsame
    exact ⟨rfl, rfl, .main _ hmain hmade rfl (fun _ hr => .inl hr) (fun _ hr => hr)
      ⟨previous, List.mem_of_getLast? hprevious, hsame⟩⟩
  · cases h
    refine ⟨rfl, rfl, .main _ hmain hmade rfl ?_ ?_ ?_⟩
    · intro r hr
      exact (List.mem_append.mp hr).imp_right List.mem_singleton.mp
    · exact fun r hr => List.mem_append_left _ hr
    · exact ⟨_, List.mem_append_right _ (List.mem_singleton_self _), rfl, rfl⟩

theorem closeRedirected_closes {request : TrackedRequest} (h : CaptureEnv.closeRedirected data id request = some data') :
    data'.activeRequests = data.activeRequests ∧ data'.redirectChain = data.redirectChain ∧ Closes id request data data' := by
  unfold CaptureEnv.closeRedirected at h
  split at h
  · rename_i hmain
    obtain ⟨recorded, hrecorded, h⟩ := Option.map_eq_some_iff.mp h
    obtain ⟨hactive, hchain, hcloses⟩ := recordMainDocumentRedirect_closes id hmain hrecorded
    split at h
    · cases h
      refine ⟨hactive, hchain, ?_⟩
      cases hcloses with
      | main redirect is_main made resources sound kept recorded =>
        exact .main redirect is_main made resources sound kept recorded
      | other resource not_main => exact absurd hmain (Bool.eq_false_iff.mp not_main)
    · cases h
      exact ⟨hactive, hchain, hcloses⟩
  · rename_i hother
    obtain ⟨response, hresponse, rfl⟩ := Option.map_eq_some_iff.mp h
    refine ⟨rfl, rfl, .other _ (Bool.eq_false_iff.mpr hother) ?_ rfl rfl⟩
    rw [PageHop.resource, TrackedRequest.hop, hresponse]
    rfl

/-- The open hop of an id gets its response by a redirect. -/
theorem close (h : Recorded data journal) {old new : TrackedRequest} (hold : data.activeRequests.lookup id = some old)
    (hclose : CaptureEnv.closeRedirected { data with activeRequests := data.activeRequests.erase id } id new = some data')
    (hnew : f (old.hop id) = { new.hop id with redirected := true })
    (htracked : new.isTrackedMainDocument = old.isTrackedMainDocument) (hurl : new.requestUrl = old.requestUrl) :
    Recorded data' (journal.amend id f) ∧ (journal.amend id f).openHop id = none := by
  have hopen : journal.openHop id = some (old.hop id) := by
    rw [← h.active id, hold]
    rfl
  obtain ⟨hactive, hchain, hcloses⟩ := closeRedirected_closes hclose
  obtain ⟨before, after, hjournal, hclosed, hamend⟩ := PageJournal.amend_split h.once hopen
  rw [hamend f, hnew]
  subst hjournal
  have hnone : PageJournal.openHop (before ++ { new.hop id with redirected := true } :: after) id = none := by
    rw [openHop_around hclosed]
    exact if_neg (by simp [PageHop.isOpen])
  have hmem : ∀ hop : PageHop, hop.redirected = true → hop ∈ PageJournal.main (before ++ old.hop id :: after) →
      hop ∈ PageJournal.main (before ++ { new.hop id with redirected := true } :: after) := by
    intro hop hredirected hhop
    rw [PageJournal.main, List.mem_filter, List.mem_append, List.mem_cons] at hhop ⊢
    obtain ⟨hbefore | rfl | hafter, hmain⟩ := hhop
    · exact ⟨.inl hbefore, hmain⟩
    · cases hredirected
    · exact ⟨.inr (.inr hafter), hmain⟩
  refine ⟨⟨?_, ?_, ?_, ?_, ?_, ?_, ?_⟩, hnone⟩
  · have honce := h.once
    rw [PageJournal.OpenOnce, List.filter_append, List.filter_cons_of_pos rfl, List.map_append, List.map_cons] at honce
    rw [PageJournal.OpenOnce, List.filter_append, List.filter_cons_of_neg Bool.false_ne_true, List.map_append]
    exact honce.sublist (List.sublist_cons_self _ _ |>.append_left _)
  · intro id'
    rw [hactive, lookup_erase_eq]
    split
    · rename_i he
      rw [he, hnone]
      rfl
    · rename_i hne
      rw [h.active id']
      exact (openHop_other (fun he => hne he.symm) fun he => hne he.symm).symm
  · intro hop hhop hredirected
    rcases List.mem_append.mp hhop with hbefore | hafter
    · exact h.closed hop (List.mem_append_left _ hbefore) hredirected
    · rcases List.mem_cons.mp hafter with rfl | hafter
      · cases hcloses with
        | main redirect _ made => exact (Option.isSome_map ▸ Option.isSome_of_eq_some made)
        | other resource _ made => exact (Option.isSome_map ▸ Option.isSome_of_eq_some made)
      · exact h.closed hop (List.mem_append_right _ (List.mem_cons_of_mem _ hafter)) hredirected
  · have hresources := h.resources
    rw [PageJournal.other, List.filter_filter, List.filter_append, List.filter_cons_of_neg (by simp [TrackedRequest.hop]),
      List.filterMap_append] at hresources
    rw [PageJournal.other, List.filter_filter, List.filter_append]
    cases hcloses with
    | main redirect is_main made resources =>
      rw [List.filter_cons_of_neg (by simp [TrackedRequest.hop, is_main]), List.filterMap_append, resources]
      exact hresources
    | other resource not_main made resources =>
      have hmade : PageHop.resource { new.hop id with redirected := true } [] = some resource := made
      rw [List.filter_cons_of_pos (by simp [TrackedRequest.hop, not_main]), List.filterMap_append,
        List.filterMap_cons_some (f := fun hop : PageHop => hop.resource []) hmade, resources]
      exact (hresources.append_right [resource]).trans (List.perm_append_singleton _ _ |>.trans List.perm_middle.symm)
  · rw [hchain]
    exact h.chain.trans (congrArg _ (main_urls htracked hurl).symm)
  · intro redirect hredirect
    cases hcloses with
    | main made_redirect is_main made resources sound =>
      rcases sound redirect hredirect with hkept | rfl
      · obtain ⟨hop, hhop, hredirected, heq⟩ := h.redirects redirect hkept
        exact ⟨hop, hmem hop hredirected hhop, hredirected, heq⟩
      · refine ⟨{ new.hop id with redirected := true }, ?_, rfl, made⟩
        rw [PageJournal.main, List.mem_filter]
        exact ⟨List.mem_append_right _ List.mem_cons_self, is_main⟩
    | other resource not_main made resources redirects =>
      rw [redirects] at hredirect
      obtain ⟨hop, hhop, hredirected, heq⟩ := h.redirects redirect hredirect
      exact ⟨hop, hmem hop hredirected hhop, hredirected, heq⟩
  · intro hop hhop hredirected response hresponse
    have hold' : hop ∈ PageJournal.main (before ++ old.hop id :: after) ∨ hop = { new.hop id with redirected := true } := by
      rw [PageJournal.main, List.mem_filter, List.mem_append, List.mem_cons] at hhop ⊢
      obtain ⟨hbefore | rfl | hafter, hmain⟩ := hhop
      · exact .inl ⟨.inl hbefore, hmain⟩
      · exact .inr rfl
      · exact .inl ⟨.inr (.inr hafter), hmain⟩
    cases hcloses with
    | main redirect is_main made resources sound kept recorded =>
      rcases hold' with hhop | rfl
      · obtain ⟨r, hr, hsame⟩ := h.redirected hop hhop hredirected response hresponse
        exact ⟨r, kept r hr, hsame⟩
      · obtain ⟨response', hresponse', rfl⟩ := Option.map_eq_some_iff.mp made
        cases hresponse.symm.trans hresponse'
        exact recorded
    | other resource not_main made resources redirects =>
      rw [redirects]
      rcases hold' with hhop | rfl
      · exact h.redirected hop hhop hredirected response hresponse
      · rw [PageJournal.main, List.mem_filter] at hhop
        exact absurd hhop.2 (Bool.eq_false_iff.mp not_main)

/-- A hop is announced under an id that has no open one. -/
theorem announce (h : Recorded data journal) (hnone : journal.openHop id = none) (request : TrackedRequest) :
    Recorded (CaptureEnv.addRequest data id request) (journal ++ [request.hop id]) := by
  have hfields : (CaptureEnv.addRequest data id request).activeRequests = data.activeRequests.insert id request ∧
      (CaptureEnv.addRequest data id request).redirectedResources = data.redirectedResources ∧
      (CaptureEnv.addRequest data id request).mainDocumentRedirects = data.mainDocumentRedirects := by
    unfold CaptureEnv.addRequest
    split
    · exact ⟨rfl, rfl, rfl⟩
    · exact ⟨rfl, rfl, rfl⟩
  obtain ⟨hactive, hresources, hredirects⟩ := hfields
  refine ⟨?_, ?_, ?_, ?_, ?_, ?_, ?_⟩
  · rw [PageJournal.OpenOnce, List.filter_append, List.map_append]
    refine List.nodup_append.mpr ⟨h.once, List.nodup_singleton _, ?_⟩
    intro id' hid' id'' hid'' heq
    obtain ⟨hop, hhop, rfl⟩ := List.mem_map.mp hid'
    obtain ⟨hmem, hkept⟩ := List.mem_filter.mp hhop
    have hself : id'' = id := List.mem_singleton.mp hid''
    have hno := List.find?_eq_none.mp hnone hop hmem
    apply hno
    rw [PageHop.isOpen, heq, hself, decide_eq_true rfl, Bool.true_and]
    exact hkept
  · intro id'
    rw [hactive, lookup_insert_eq, PageJournal.openHop, List.find?_append]
    split
    · rename_i he
      rw [he, show journal.find? (PageHop.isOpen id) = none from hnone, Option.none_or]
      exact (List.find?_cons_of_pos (by simp [PageHop.isOpen, TrackedRequest.hop])).symm
    · rename_i hne
      rw [h.active id', List.find?_cons_of_neg (by simp [PageHop.isOpen, TrackedRequest.hop, Ne.symm hne]), List.find?_nil,
        Option.or_none]
      rfl
  · intro hop hhop hredirected
    rcases List.mem_append.mp hhop with hhop | hhop
    · exact h.closed hop hhop hredirected
    · rw [List.mem_singleton.mp hhop] at hredirected
      cases hredirected
  · rw [hresources, PageJournal.other, List.filter_filter, List.filter_append]
    have hlast : [request.hop id].filter (fun hop => hop.redirected && !hop.forMainDocument) = [] :=
      List.filter_cons_of_neg (by simp [TrackedRequest.hop])
    rw [hlast, List.append_nil, ← List.filter_filter]
    exact h.resources
  · rw [PageJournal.main, List.filter_append]
    unfold CaptureEnv.addRequest
    split
    · rename_i hmain
      have hlast : [request.hop id].filter (·.forMainDocument) = [request.hop id] :=
        List.filter_cons_of_pos hmain
      rw [hlast, List.map_append, List.map_singleton, destutter_concat, ← PageJournal.main, ← h.chain]
      rfl
    · rename_i hmain
      have hlast : [request.hop id].filter (·.forMainDocument) = [] := List.filter_cons_of_neg hmain
      rw [hlast, List.append_nil]
      exact h.chain
  · intro redirect hredirect
    rw [hredirects] at hredirect
    obtain ⟨hop, hhop, hrest⟩ := h.redirects redirect hredirect
    refine ⟨hop, ?_, hrest⟩
    rw [PageJournal.main, List.filter_append]
    exact List.mem_append_left _ hhop
  · intro hop hhop hredirected
    rw [hredirects]
    refine h.redirected hop ?_ hredirected
    rw [PageJournal.main, List.filter_append, List.mem_append] at hhop
    rcases hhop with hhop | hhop
    · exact hhop
    · rw [List.mem_singleton.mp (List.mem_of_mem_filter hhop)] at hredirected
      cases hredirected

end Recorded
end Webshot.Crawler
