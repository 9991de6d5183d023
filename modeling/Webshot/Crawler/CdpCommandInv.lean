import Webshot.Crawler.CdpSteps
import Webshot.Foundation.TransitionRuns

/-! What ties the waiters and requests of the DevTools client to its commands, and why the operations
on them keep it. -/
namespace Webshot.Crawler
open Text Foundation.KeyedMaps Foundation.TransitionRuns

/-- The waiter the reader has claimed: it is about to complete it, or has died before it could. -/
def ReaderPhase.claimed : ReaderPhase → Option (Nat × Int × Except CdpError (Option Json))
  | completing waiter id reply => some (waiter, id, reply)
  | died owed => owed
  | _ => none

/-- The waiters a call of `SetFatalError` has taken and is still to complete. -/
def FatalCall.queue : FatalCall → Option (List Nat)
  | completing _ waiters _ => some waiters
  | _ => none

/-- What of the system concerns commands. -/
structure CommandView where
  pendingWaiters : KeyedMap Int Nat
  pendingRequests : KeyedMap Int CdpPendingRequest
  nextRequestId : Int
  fatalError : Option CdpError
  waiters : Nat → PendingCommandWaiter
  commands : Nat → CommandPhase
  claimed : Option (Nat × Int × Except CdpError (Option Json))
  queue : Caller → Option (List Nat)
  received : List (Int × Option Json)

def System.commandView (s : System) : CommandView where
  pendingWaiters := s.shared.pendingWaiters
  pendingRequests := s.shared.pendingRequests
  nextRequestId := s.shared.nextRequestId
  fatalError := s.shared.fatalError
  waiters := s.waiters
  commands := s.commands
  claimed := s.reader.claimed
  queue caller := (s.fatalCalls caller).queue
  received := s.history.received

/-- A result belongs to a response with the id. -/
def Answers (received : List (Int × Option Json)) (id : Int) (reply : Except CdpError (Option Json)) : Prop :=
  ∀ result, reply = .ok result → (id, result) ∈ received

/-- The waiter of a command with an id is in the map, was left behind by the command's own timeout,
is about to be completed by the reader or by `SetFatalError`, or is completed. -/
structure CommandInv (v : CommandView) : Prop where
  next_pos : 0 < v.nextRequestId
  request_id : ∀ id, id ∈ v.pendingRequests → 0 < id ∧ id < v.nextRequestId
  waiter_request : ∀ id c, v.pendingWaiters.lookup id = some c →
    ∃ request, v.pendingRequests.lookup id = some request ∧ request.ignoreResponse = false
  request_waiter : ∀ id request, v.pendingRequests.lookup id = some request → request.ignoreResponse = false →
    ∃ c, v.pendingWaiters.lookup id = some c
  fatal_empty : v.fatalError.isSome → v.pendingWaiters = ∅ ∧ v.pendingRequests = ∅
  command_id : ∀ c id, (v.commands c).id? = some id → 0 < id ∧ id < v.nextRequestId
  id_unique : ∀ c c' id, (v.commands c).id? = some id → (v.commands c').id? = some id → c = c'
  waiter_owner : ∀ id c, v.pendingWaiters.lookup id = some c → (v.commands c).id? = some id ∧ v.waiters c = {}
  claimed_open : ∀ c id reply, v.claimed = some (c, id, reply) → (v.commands c).id? = some id ∧ v.waiters c = {} ∧
    v.pendingWaiters.lookup id = none ∧ Answers v.received id reply ∧ ∀ caller ws, v.queue caller = some ws → c ∉ ws
  queue_open : ∀ caller ws, v.queue caller = some ws → v.fatalError.isSome ∧ ws.Nodup ∧
    ∀ c ∈ ws, v.waiters c = {} ∧ ∃ id, (v.commands c).id? = some id
  queue_unique : ∀ a b ws ws', v.queue a = some ws → v.queue b = some ws' → a = b
  waiter_value : ∀ c, v.waiters c = {} ∨ ∃ id reply, (v.commands c).id? = some id ∧
    v.waiters c = PendingCommandWaiter.complete {} reply ∧ Answers v.received id reply
  returned_value : ∀ c id outcome, v.commands c = .returned (some id) outcome → Answers v.received id outcome
  expired_gone : ∀ c id, v.commands c = .expired id → v.pendingWaiters.lookup id = none
  accounted : ∀ c id, (v.commands c).id? = some id → v.pendingWaiters.lookup id = some c ∨ v.commands c = .expired id ∨
    (∃ reply, v.claimed = some (c, id, reply)) ∨ (∃ caller ws, v.queue caller = some ws ∧ c ∈ ws) ∨
    (v.waiters c).done = true
  first_response : ∀ id, 0 < id → id < v.nextRequestId → v.fatalError = none → (∀ r ∈ v.received, r.1 ≠ id) →
    id ∈ v.pendingRequests

theorem Answers.note {received : List (Int × Option Json)} {id : Int} {reply : Except CdpError (Option Json)}
    (h : Answers received id reply) (r : Int × Option Json) : Answers (received ++ [r]) id reply :=
  fun result hr => List.mem_append_left _ (h result hr)

/-- A command that goes on with its id. -/
theorem id?_update {commands : Nat → CommandPhase} {c : Nat} {phase : CommandPhase}
    (hid : phase.id? = (commands c).id?) (c' : Nat) :
    (Function.update commands c phase c').id? = (commands c').id? := by
  by_cases he : c' = c
  · subst he
    rw [Function.update_self, hid]
  · rw [Function.update_of_ne he]

namespace CommandInv
variable {v : CommandView}

/-- A response is noted. -/
theorem note (h : CommandInv v) (r : Int × Option Json) : CommandInv { v with received := v.received ++ [r] } :=
  { h with
    claimed_open := fun c id reply hc =>
      let ⟨hid, hopen, hmap, hanswers, hqueue⟩ := h.claimed_open c id reply hc
      ⟨hid, hopen, hmap, hanswers.note r, hqueue⟩
    waiter_value := fun c => (h.waiter_value c).imp_right fun ⟨id, reply, hid, hvalue, hanswers⟩ =>
      ⟨id, reply, hid, hvalue, hanswers.note r⟩
    returned_value := fun c id outcome hc => (h.returned_value c id outcome hc).note r
    first_response := fun id hpos hlt hfatal hnew =>
      h.first_response id hpos hlt hfatal fun r' hr' => hnew r' (List.mem_append_left _ hr') }

theorem fatal_none_of_waiter (h : CommandInv v) {id : Int} {c : Nat} (hwaiter : v.pendingWaiters.lookup id = some c) :
    v.fatalError = none := by
  rw [← Option.not_isSome_iff_eq_none]
  intro hsome
  rw [(h.fatal_empty hsome).1] at hwaiter
  cases hwaiter

theorem fatal_none_of_request (h : CommandInv v) {id : Int} {request : CdpPendingRequest}
    (hrequest : v.pendingRequests.lookup id = some request) : v.fatalError = none := by
  rw [← Option.not_isSome_iff_eq_none]
  intro hsome
  rw [(h.fatal_empty hsome).2] at hrequest
  cases hrequest

/-- An id that leaves both maps leaves the other waiters with their requests, and these with their waiters. -/
theorem paired_erase (h : CommandInv v) (id : Int) :
    (∀ id' c, (v.pendingWaiters.erase id).lookup id' = some c →
      ∃ request, (v.pendingRequests.erase id).lookup id' = some request ∧ request.ignoreResponse = false) ∧
    ∀ id' request, (v.pendingRequests.erase id).lookup id' = some request → request.ignoreResponse = false →
      ∃ c, (v.pendingWaiters.erase id).lookup id' = some c := by
  constructor
  · intro id' c hc
    rw [lookup_erase_eq] at hc
    split at hc
    · cases hc
    · rename_i hne
      obtain ⟨request, hrequest, hkept⟩ := h.waiter_request id' c hc
      exact ⟨request, by rw [lookup_erase_eq, if_neg hne, hrequest], hkept⟩
  · intro id' request hrequest hkept
    rw [lookup_erase_eq] at hrequest
    split at hrequest
    · cases hrequest
    · rename_i hne
      obtain ⟨c, hc⟩ := h.request_waiter id' request hrequest hkept
      exact ⟨c, by rw [lookup_erase_eq, if_neg hne, hc]⟩

/-- The request of an answered id may leave the map. -/
theorem first_response_erase (h : CommandInv v) {id : Int} (hreceived : ∃ r ∈ v.received, r.1 = id) (id' : Int)
    (hpos : 0 < id') (hlt : id' < v.nextRequestId) (hfatal : v.fatalError = none)
    (hnew : ∀ r ∈ v.received, r.1 ≠ id') : id' ∈ v.pendingRequests.erase id := by
  refine AList.mem_erase.mpr ⟨?_, h.first_response id' hpos hlt hfatal hnew⟩
  rintro rfl
  obtain ⟨r, hr, hid⟩ := hreceived
  exact hnew r hr hid

/-- A request marked as ignored leaves with its response. -/
theorem consume (h : CommandInv v) {id : Int} {request : CdpPendingRequest}
    (hrequest : v.pendingRequests.lookup id = some request) (hignore : request.ignoreResponse = true)
    (hreceived : ∃ r ∈ v.received, r.1 = id) :
    CommandInv { v with
      pendingRequests := v.pendingRequests.erase id, pendingWaiters := v.pendingWaiters.erase id } := by
  have habsent : v.pendingWaiters.lookup id = none := by
    rw [Option.eq_none_iff_forall_ne_some]
    intro c hc
    obtain ⟨request', hrequest', hkept⟩ := h.waiter_request id c hc
    rw [hrequest] at hrequest'
    cases hrequest'
    rw [hignore] at hkept
    cases hkept
  have hsame : ∀ id', (v.pendingWaiters.erase id).lookup id' = v.pendingWaiters.lookup id' := by
    intro id'
    rw [lookup_erase_eq]
    split
    · rename_i he
      rw [he, habsent]
    · rfl
  exact { h with
    request_id := fun id' hid' => h.request_id id' (AList.mem_erase.mp hid').2
    waiter_request := (h.paired_erase id).1
    request_waiter := (h.paired_erase id).2
    fatal_empty := by
      intro hsome
      rw [h.fatal_none_of_request hrequest] at hsome
      cases hsome
    waiter_owner := fun id' c hc => h.waiter_owner id' c ((hsame id').symm.trans hc)
    claimed_open := fun c id' reply hc =>
      let ⟨hid, hopen, hmap, hrest⟩ := h.claimed_open c id' reply hc
      ⟨hid, hopen, (hsame id').trans hmap, hrest⟩
    expired_gone := fun c id' hc => (hsame id').trans (h.expired_gone c id' hc)
    accounted := fun c id' hid => (h.accounted c id' hid).imp_left (hsame id').trans
    first_response := h.first_response_erase hreceived }

/-- The waiter of a pending request leaves the map with the response, for the reader to complete. -/
theorem claim (h : CommandInv v) {id : Int} {c : Nat} {reply : Except CdpError (Option Json)}
    (hwaiter : v.pendingWaiters.lookup id = some c) (hidle : v.claimed = none)
    (hreceived : ∃ r ∈ v.received, r.1 = id) (hanswers : Answers v.received id reply) :
    CommandInv { v with
      pendingRequests := v.pendingRequests.erase id
      pendingWaiters := v.pendingWaiters.erase id
      claimed := some (c, id, reply) } := by
  have hfatal := h.fatal_none_of_waiter hwaiter
  obtain ⟨howner, hopen⟩ := h.waiter_owner id c hwaiter
  exact { h with
    request_id := fun id' hid' => h.request_id id' (AList.mem_erase.mp hid').2
    waiter_request := (h.paired_erase id).1
    request_waiter := (h.paired_erase id).2
    fatal_empty := fun hsome => by
      rw [hfatal] at hsome
      cases hsome
    waiter_owner := by
      intro id' c' hc'
      rw [lookup_erase_eq] at hc'
      split at hc'
      · cases hc'
      · exact h.waiter_owner id' c' hc'
    claimed_open := by
      rintro c' id' reply' ⟨⟩
      refine ⟨howner, hopen, by rw [lookup_erase_eq, if_pos rfl], hanswers, ?_⟩
      intro caller ws hws
      have hsome := (h.queue_open caller ws hws).1
      rw [hfatal] at hsome
      cases hsome
    expired_gone := fun c' id' hc' => lookup_erase_of_none (h.expired_gone c' id' hc')
    accounted := by
      intro c' id' hid'
      by_cases he : id' = id
      · subst he
        cases h.id_unique c c' id' howner hid'
        exact Or.inr (Or.inr (Or.inl ⟨reply, rfl⟩))
      · rcases h.accounted c' id' hid' with hmap | hrest
        · exact Or.inl (by rw [lookup_erase_eq, if_neg he, hmap])
        · rw [hidle] at hrest
          refine Or.inr (hrest.imp_right (Or.imp_left ?_))
          rintro ⟨reply', hreply'⟩
          cases hreply'
    first_response := h.first_response_erase hreceived }

/-- A command is given the next id, with a request and a waiter for it. -/
theorem register (h : CommandInv v) {c : Nat} {request : CdpPendingRequest} (hcalled : v.commands c = .notCalled)
    (hfatal : v.fatalError = none) (hkept : request.ignoreResponse = false) :
    CommandInv { v with
      nextRequestId := v.nextRequestId + 1
      pendingRequests := v.pendingRequests.insert v.nextRequestId request
      pendingWaiters := emplace v.pendingWaiters v.nextRequestId c
      commands := Function.update v.commands c (.registered v.nextRequestId) } := by
  have hnext := h.next_pos
  have hfresh : v.nextRequestId ∉ v.pendingRequests := fun hmem => lt_irrefl _ (h.request_id _ hmem).2
  have hfresh' : v.nextRequestId ∉ v.pendingWaiters := by
    intro hmem
    obtain ⟨c', hc'⟩ := Option.isSome_iff_exists.mp (AList.lookup_isSome.mpr hmem)
    obtain ⟨request', hrequest', _⟩ := h.waiter_request _ c' hc'
    exact hfresh (mem_of_lookup hrequest')
  have hself : Function.update v.commands c (.registered v.nextRequestId) c = .registered v.nextRequestId :=
    Function.update_self _ _ _
  have hnone : (v.commands c).id? = none := by rw [hcalled]; rfl
  have hkeep : ∀ c' id, (v.commands c').id? = some id →
      (Function.update v.commands c (.registered v.nextRequestId) c').id? = some id := by
    intro c' id hid
    rw [Function.update_of_ne, hid]
    rintro rfl
    rw [hnone] at hid
    cases hid
  have hids : ∀ c' id, (Function.update v.commands c (.registered v.nextRequestId) c').id? = some id →
      (c' = c ∧ id = v.nextRequestId) ∨ ((v.commands c').id? = some id ∧ c' ≠ c) := by
    intro c' id hid
    by_cases he : c' = c
    · subst he
      rw [Function.update_self] at hid
      cases hid
      exact Or.inl ⟨rfl, rfl⟩
    · rw [Function.update_of_ne he] at hid
      exact Or.inr ⟨hid, he⟩
  have hopen : v.waiters c = {} := by
    rcases h.waiter_value c with hvalue | ⟨id, _, hid, _⟩
    · exact hvalue
    · rw [hnone] at hid
      cases hid
  rw [emplace_of_notMem hfresh']
  exact {
    next_pos := by
      change 0 < v.nextRequestId + 1
      omega
    request_id := by
      intro id hid
      change 0 < id ∧ id < v.nextRequestId + 1
      rcases (AList.mem_insert _).mp hid with rfl | hid
      · omega
      · have := h.request_id id hid
        omega
    waiter_request := by
      intro id c' hc'
      simp only [lookup_insert_eq] at hc' ⊢
      split
      · exact ⟨request, rfl, hkept⟩
      · rename_i hne
        rw [if_neg hne] at hc'
        exact h.waiter_request id c' hc'
    request_waiter := by
      intro id request' hrequest' hkept'
      simp only [lookup_insert_eq] at hrequest' ⊢
      split
      · exact ⟨c, rfl⟩
      · rename_i hne
        rw [if_neg hne] at hrequest'
        exact h.request_waiter id request' hrequest' hkept'
    fatal_empty := fun hsome => by
      rw [show v.fatalError = none from hfatal] at hsome
      cases hsome
    command_id := by
      intro c' id hid
      change 0 < id ∧ id < v.nextRequestId + 1
      rcases hids c' id hid with ⟨_, rfl⟩ | ⟨hid, _⟩
      · omega
      · have := h.command_id c' id hid
        omega
    id_unique := by
      intro c₁ c₂ id h₁ h₂
      rcases hids c₁ id h₁ with ⟨rfl, rfl⟩ | ⟨hid₁, _⟩
      · rcases hids c₂ _ h₂ with ⟨rfl, _⟩ | ⟨hid₂, _⟩
        · rfl
        · exact absurd (h.command_id c₂ _ hid₂).2 (lt_irrefl _)
      · rcases hids c₂ id h₂ with ⟨rfl, rfl⟩ | ⟨hid₂, _⟩
        · exact absurd (h.command_id c₁ _ hid₁).2 (lt_irrefl _)
        · exact h.id_unique c₁ c₂ id hid₁ hid₂
    waiter_owner := by
      intro id c' hc'
      simp only [lookup_insert_eq] at hc'
      split at hc'
      · rename_i he
        cases hc'
        rw [he]
        exact ⟨congrArg CommandPhase.id? hself, hopen⟩
      · obtain ⟨hid, hvalue⟩ := h.waiter_owner id c' hc'
        exact ⟨hkeep c' id hid, hvalue⟩
    claimed_open := by
      intro c' id reply hc'
      obtain ⟨hid, hvalue, hmap, hanswers, hqueue⟩ := h.claimed_open c' id reply hc'
      refine ⟨hkeep c' id hid, hvalue, ?_, hanswers, hqueue⟩
      rw [lookup_insert_eq, if_neg, hmap]
      rintro rfl
      exact lt_irrefl _ (h.command_id c' _ hid).2
    queue_open := fun caller ws hws =>
      let ⟨hsome, hnodup, hwaiters⟩ := h.queue_open caller ws hws
      ⟨hsome, hnodup, fun c' hc' =>
        let ⟨hvalue, id, hid⟩ := hwaiters c' hc'
        ⟨hvalue, id, hkeep c' id hid⟩⟩
    queue_unique := h.queue_unique
    waiter_value := fun c' => (h.waiter_value c').imp_right fun ⟨id, reply, hid, hrest⟩ =>
      ⟨id, reply, hkeep c' id hid, hrest⟩
    returned_value := by
      intro c' id outcome hc'
      rcases update_cases hc' with ⟨_, hnew⟩ | ⟨_, hold⟩
      · cases hnew
      · exact h.returned_value c' id outcome hold
    expired_gone := by
      intro c' id hc'
      rcases update_cases hc' with ⟨_, hnew⟩ | ⟨_, hgone⟩
      · cases hnew
      · rw [lookup_insert_eq, if_neg, h.expired_gone c' id hgone]
        rintro rfl
        exact lt_irrefl _ (h.command_id c' _ (congrArg CommandPhase.id? hgone)).2
    accounted := by
      intro c' id hid
      rcases hids c' id hid with ⟨rfl, rfl⟩ | ⟨hid, hne⟩
      · exact Or.inl (by rw [lookup_insert_eq, if_pos rfl])
      · rcases h.accounted c' id hid with hmap | hexpired | hrest
        · refine Or.inl ?_
          rw [lookup_insert_eq, if_neg, hmap]
          rintro rfl
          exact lt_irrefl _ (h.command_id c' _ hid).2
        · exact Or.inr (Or.inl ((Function.update_of_ne hne _ _).trans hexpired))
        · exact Or.inr (Or.inr hrest)
    first_response := by
      intro id hpos hlt hfatal' hnew
      rw [AList.mem_insert]
      by_cases he : id = v.nextRequestId
      · exact Or.inl he
      · have hlt' : id < v.nextRequestId + 1 := hlt
        exact Or.inr (h.first_response id hpos (by omega) hfatal' hnew) }

/-- A command goes on without a new id. -/
theorem move (h : CommandInv v) {c : Nat} {phase : CommandPhase} (hid : phase.id? = (v.commands c).id?)
    (hexpired : ∀ id, v.commands c ≠ .expired id ∧ phase ≠ .expired id)
    (hvalue : ∀ id outcome, phase = .returned (some id) outcome → Answers v.received id outcome) :
    CommandInv { v with commands := Function.update v.commands c phase } := by
  have hids := id?_update hid
  exact { h with
    command_id := fun c' id hc' => h.command_id c' id ((hids c').symm.trans hc')
    id_unique := fun c₁ c₂ id h₁ h₂ => h.id_unique c₁ c₂ id ((hids c₁).symm.trans h₁) ((hids c₂).symm.trans h₂)
    waiter_owner := fun id c' hc' => (h.waiter_owner id c' hc').imp_left (hids c').trans
    claimed_open := fun c' id reply hc' => (h.claimed_open c' id reply hc').imp_left (hids c').trans
    queue_open := fun caller ws hws =>
      let ⟨hsome, hnodup, hwaiters⟩ := h.queue_open caller ws hws
      ⟨hsome, hnodup, fun c' hc' => (hwaiters c' hc').imp_right fun ⟨id, hid'⟩ => ⟨id, (hids c').trans hid'⟩⟩
    waiter_value := fun c' => (h.waiter_value c').imp_right fun ⟨id, reply, hid', hrest⟩ =>
      ⟨id, reply, (hids c').trans hid', hrest⟩
    returned_value := by
      intro c' id outcome hc'
      rcases update_cases hc' with ⟨rfl, hnew⟩ | ⟨_, hold⟩
      · exact hvalue id outcome hnew
      · exact h.returned_value c' id outcome hold
    expired_gone := by
      intro c' id hc'
      rcases update_cases hc' with ⟨_, hnew⟩ | ⟨_, hold⟩
      · exact absurd hnew (hexpired id).2
      · exact h.expired_gone c' id hold
    accounted := by
      intro c' id hc'
      rcases h.accounted c' id ((hids c').symm.trans hc') with hmap | hgone | hrest
      · exact Or.inl hmap
      · refine Or.inr (Or.inl ((Function.update_of_ne ?_ _ _).trans hgone))
        rintro rfl
        exact (hexpired id).1 hgone
      · exact Or.inr (Or.inr hrest) }

/-- A command whose time is over leaves its request behind, marked, and takes its waiter out of the map. -/
theorem expire (h : CommandInv v) {c : Nat} {id : Int} {request : CdpPendingRequest}
    (hphase : v.commands c = .waitOver id)
    (hrequest : v.pendingRequests.lookup id = some request) :
    CommandInv { v with
      pendingRequests := v.pendingRequests.insert id { request with ignoreResponse := true }
      pendingWaiters := v.pendingWaiters.erase id
      commands := Function.update v.commands c (.expired id) } := by
  have hmem : id ∈ v.pendingRequests := mem_of_lookup hrequest
  have howner : (v.commands c).id? = some id := by rw [hphase]; rfl
  have hfatal := h.fatal_none_of_request hrequest
  have hself : Function.update v.commands c (.expired id) c = .expired id := Function.update_self _ _ _
  have hids : ∀ c', (Function.update v.commands c (.expired id) c').id? = (v.commands c').id? :=
    id?_update howner.symm
  exact { h with
    request_id := by
      intro id' hid'
      rcases (AList.mem_insert _).mp hid' with rfl | hid'
      · exact h.request_id _ hmem
      · exact h.request_id id' hid'
    waiter_request := by
      intro id' c' hc'
      rw [lookup_erase_eq] at hc'
      split at hc'
      · cases hc'
      · rename_i hne
        obtain ⟨request', hrequest', hkept⟩ := h.waiter_request id' c' hc'
        exact ⟨request', by rw [lookup_insert_eq, if_neg hne, hrequest'], hkept⟩
    request_waiter := by
      intro id' request' hrequest' hkept
      rw [lookup_insert_eq] at hrequest'
      split at hrequest'
      · cases hrequest'
        cases hkept
      · rename_i hne
        obtain ⟨c', hc'⟩ := h.request_waiter id' request' hrequest' hkept
        exact ⟨c', by rw [lookup_erase_eq, if_neg hne, hc']⟩
    fatal_empty := fun hsome => by
      rw [hfatal] at hsome
      cases hsome
    command_id := fun c' id' hc' => h.command_id c' id' ((hids c').symm.trans hc')
    id_unique := fun c₁ c₂ id' h₁ h₂ => h.id_unique c₁ c₂ id' ((hids c₁).symm.trans h₁) ((hids c₂).symm.trans h₂)
    waiter_owner := by
      intro id' c' hc'
      rw [lookup_erase_eq] at hc'
      split at hc'
      · cases hc'
      · exact (h.waiter_owner id' c' hc').imp_left (hids c').trans
    claimed_open := by
      intro c' id' reply hc'
      obtain ⟨hid', hvalue, hmap, hrest⟩ := h.claimed_open c' id' reply hc'
      exact ⟨(hids c').trans hid', hvalue, lookup_erase_of_none hmap, hrest⟩
    queue_open := fun caller ws hws =>
      let ⟨hsome, hnodup, hwaiters⟩ := h.queue_open caller ws hws
      ⟨hsome, hnodup, fun c' hc' => (hwaiters c' hc').imp_right fun ⟨id', hid'⟩ => ⟨id', (hids c').trans hid'⟩⟩
    waiter_value := fun c' => (h.waiter_value c').imp_right fun ⟨id', reply, hid', hrest⟩ =>
      ⟨id', reply, (hids c').trans hid', hrest⟩
    returned_value := by
      intro c' id' outcome hc'
      rcases update_cases hc' with ⟨_, hnew⟩ | ⟨_, hold⟩
      · cases hnew
      · exact h.returned_value c' id' outcome hold
    expired_gone := by
      intro c' id' hc'
      rcases update_cases hc' with ⟨_, hnew⟩ | ⟨_, hold⟩
      · cases hnew
        rw [lookup_erase_eq, if_pos rfl]
      · exact lookup_erase_of_none (h.expired_gone c' id' hold)
    accounted := by
      intro c' id' hc'
      have hid' := (hids c').symm.trans hc'
      by_cases he : c' = c
      · subst he
        cases howner.symm.trans hid'
        exact Or.inr (Or.inl hself)
      · rcases h.accounted c' id' hid' with hmap | hgone | hrest
        · refine Or.inl ?_
          rw [lookup_erase_eq, if_neg, hmap]
          rintro rfl
          exact he (h.id_unique c' c _ hid' howner)
        · exact Or.inr (Or.inl ((Function.update_of_ne he _ _).trans hgone))
        · exact Or.inr (Or.inr hrest)
    first_response := fun id' hpos hlt hfatal' hnew =>
      (AList.mem_insert _).mpr (Or.inr (h.first_response id' hpos hlt hfatal' hnew)) }

theorem complete_done (waiter : PendingCommandWaiter) (reply : Except CdpError (Option Json)) :
    (waiter.complete reply).done = true := by
  cases reply <;> rfl

/-- The reader completes the waiter it has claimed. -/
theorem completeClaimed (h : CommandInv v) {c : Nat} {id : Int} {reply : Except CdpError (Option Json)}
    (hclaimed : v.claimed = some (c, id, reply)) :
    CommandInv { v with
      waiters := Function.update v.waiters c ((v.waiters c).complete reply)
      claimed := none } := by
  obtain ⟨howner, hopen, hmap, hanswers, hqueue⟩ := h.claimed_open c id reply hclaimed
  have hself : Function.update v.waiters c ((v.waiters c).complete reply) c =
      PendingCommandWaiter.complete {} reply := by
    rw [Function.update_self, hopen]
  exact { h with
    waiter_owner := by
      intro id' c' hc'
      obtain ⟨hid', hvalue⟩ := h.waiter_owner id' c' hc'
      refine ⟨hid', (Function.update_of_ne ?_ _ _).trans hvalue⟩
      rintro rfl
      cases howner.symm.trans hid'
      rw [hmap] at hc'
      cases hc'
    claimed_open := fun _ _ _ hc' => nomatch hc'
    queue_open := by
      intro caller ws hws
      obtain ⟨hsome, hnodup, hwaiters⟩ := h.queue_open caller ws hws
      refine ⟨hsome, hnodup, fun c' hc' => (hwaiters c' hc').imp_left (Function.update_of_ne ?_ _ _).trans⟩
      rintro rfl
      exact hqueue caller ws hws hc'
    waiter_value := by
      intro c'
      by_cases he : c' = c
      · subst he
        exact Or.inr ⟨id, reply, howner, hself, hanswers⟩
      · rcases h.waiter_value c' with hvalue | ⟨id', reply', hid', hvalue, hrest⟩
        · exact Or.inl ((Function.update_of_ne he _ _).trans hvalue)
        · exact Or.inr ⟨id', reply', hid', (Function.update_of_ne he _ _).trans hvalue, hrest⟩
    accounted := by
      intro c' id' hid'
      by_cases he : c' = c
      · subst he
        exact Or.inr (Or.inr (Or.inr (Or.inr ((congrArg _ hself).trans (complete_done _ _)))))
      · rcases h.accounted c' id' hid' with hkept | hgone | ⟨reply', hother⟩ | hqueued | hdone
        · exact Or.inl hkept
        · exact Or.inr (Or.inl hgone)
        · cases hclaimed.symm.trans hother
          exact absurd rfl he
        · exact Or.inr (Or.inr (Or.inr (Or.inl hqueued)))
        · exact Or.inr (Or.inr (Or.inr (Or.inr ((congrArg _ (Function.update_of_ne he _ _)).trans hdone)))) }

/-- The first fatal error takes every waiter out of the map, for the call that reports it to complete. -/
theorem enterFatal (h : CommandInv v) (hfatal : v.fatalError = none) (caller : Caller) (error : CdpError) :
    CommandInv { v with
      fatalError := some error
      pendingWaiters := ∅
      pendingRequests := ∅
      queue := Function.update v.queue caller (some (values v.pendingWaiters)) } := by
  have hnoqueue : ∀ other ws, v.queue other ≠ some ws := by
    intro other ws hws
    have hsome := (h.queue_open other ws hws).1
    rw [hfatal] at hsome
    cases hsome
  have hqueue : ∀ other ws, Function.update v.queue caller (some (values v.pendingWaiters)) other = some ws →
      other = caller ∧ ws = values v.pendingWaiters := by
    intro other ws hws
    rcases update_cases hws with ⟨hcaller, hnew⟩ | ⟨_, hold⟩
    · exact ⟨hcaller, (Option.some.inj hnew).symm⟩
    · exact absurd hold (hnoqueue other ws)
  exact { h with
    request_id := fun id hid => absurd hid (AList.notMem_empty id)
    waiter_request := fun _ _ hc => nomatch hc
    request_waiter := fun _ _ hrequest => nomatch hrequest
    fatal_empty := fun _ => ⟨rfl, rfl⟩
    waiter_owner := fun _ _ hc => nomatch hc
    claimed_open := by
      intro c id reply hc
      obtain ⟨hid, hvalue, hmap, hanswers, _⟩ := h.claimed_open c id reply hc
      refine ⟨hid, hvalue, rfl, hanswers, ?_⟩
      intro other ws hws hmem
      rw [(hqueue other ws hws).2] at hmem
      obtain ⟨id', hid'⟩ := mem_values.mp hmem
      cases hid.symm.trans (h.waiter_owner id' c hid').1
      rw [hmap] at hid'
      cases hid'
    queue_open := by
      intro other ws hws
      obtain ⟨_, rfl⟩ := hqueue other ws hws
      refine ⟨rfl, values_nodup ?_, ?_⟩
      · intro id id' c hc hc'
        exact Option.some.inj ((h.waiter_owner id c hc).1.symm.trans (h.waiter_owner id' c hc').1)
      · intro c hmem
        obtain ⟨id, hid⟩ := mem_values.mp hmem
        obtain ⟨hid', hvalue⟩ := h.waiter_owner id c hid
        exact ⟨hvalue, id, hid'⟩
    queue_unique := fun a b ws ws' ha hb => (hqueue a ws ha).1.trans (hqueue b ws' hb).1.symm
    expired_gone := fun _ _ _ => rfl
    accounted := by
      intro c id hid
      rcases h.accounted c id hid with hmap | hgone | hclaimed | ⟨other, ws, hws, _⟩ | hdone
      · exact Or.inr (Or.inr (Or.inr (Or.inl ⟨caller, _, Function.update_self _ _ _, mem_values.mpr ⟨id, hmap⟩⟩)))
      · exact Or.inr (Or.inl hgone)
      · exact Or.inr (Or.inr (Or.inl hclaimed))
      · exact absurd hws (hnoqueue other ws)
      · exact Or.inr (Or.inr (Or.inr (Or.inr hdone)))
    first_response := fun _ _ _ hnone => nomatch hnone }

/-- `SetFatalError` completes the next waiter it has taken. -/
theorem failWaiter (h : CommandInv v) {caller : Caller} {w : Nat} {ws : List Nat}
    (hqueue : v.queue caller = some (w :: ws))
    (error : CdpError) :
    CommandInv { v with
      waiters := Function.update v.waiters w ((v.waiters w).complete (.error error))
      queue := Function.update v.queue caller (some ws) } := by
  obtain ⟨hfatal, hnodup, hwaiters⟩ := h.queue_open caller _ hqueue
  obtain ⟨hw, hws⟩ := List.nodup_cons.mp hnodup
  obtain ⟨hopen, id, hid⟩ := hwaiters w List.mem_cons_self
  have hself : Function.update v.waiters w ((v.waiters w).complete (.error error)) w =
      PendingCommandWaiter.complete {} (.error error) := by
    rw [Function.update_self, hopen]
  have hrest : ∀ other us, Function.update v.queue caller (some ws) other = some us → other = caller ∧ us = ws := by
    intro other us hus
    rcases update_cases hus with ⟨hcaller, hnew⟩ | ⟨hne, hold⟩
    · exact ⟨hcaller, (Option.some.inj hnew).symm⟩
    · exact absurd (h.queue_unique other caller us _ hold hqueue) hne
  exact { h with
    waiter_owner := by
      intro id' c hc
      rw [(h.fatal_empty hfatal).1] at hc
      cases hc
    claimed_open := by
      intro c id' reply hc
      obtain ⟨hid', hvalue, hmap, hanswers, hnone⟩ := h.claimed_open c id' reply hc
      have hnot := hnone caller _ hqueue
      refine ⟨hid', (Function.update_of_ne ?_ _ _).trans hvalue, hmap, hanswers, ?_⟩
      · rintro rfl
        exact hnot List.mem_cons_self
      · intro other us hus hmem
        rw [(hrest other us hus).2] at hmem
        exact hnot (List.mem_cons_of_mem _ hmem)
    queue_open := by
      intro other us hus
      obtain ⟨_, rfl⟩ := hrest other us hus
      refine ⟨hfatal, hws, fun c hc => ?_⟩
      refine (hwaiters c (List.mem_cons_of_mem _ hc)).imp_left (Function.update_of_ne ?_ _ _).trans
      rintro rfl
      exact hw hc
    queue_unique := fun a b us us' ha hb => (hrest a us ha).1.trans (hrest b us' hb).1.symm
    waiter_value := by
      intro c
      by_cases he : c = w
      · subst he
        exact Or.inr ⟨id, _, hid, hself, fun _ hr => nomatch hr⟩
      · rcases h.waiter_value c with hvalue | ⟨id', reply, hid', hvalue, hanswers⟩
        · exact Or.inl ((Function.update_of_ne he _ _).trans hvalue)
        · exact Or.inr ⟨id', reply, hid', (Function.update_of_ne he _ _).trans hvalue, hanswers⟩
    accounted := by
      intro c id' hid'
      by_cases he : c = w
      · subst he
        exact Or.inr (Or.inr (Or.inr (Or.inr ((congrArg _ hself).trans (complete_done _ _)))))
      · rcases h.accounted c id' hid' with hmap | hgone | hclaimed | ⟨other, us, hus, hmem⟩ | hdone
        · exact Or.inl hmap
        · exact Or.inr (Or.inl hgone)
        · exact Or.inr (Or.inr (Or.inl hclaimed))
        · cases h.queue_unique other caller us _ hus hqueue
          cases hqueue.symm.trans hus
          rcases List.mem_cons.mp hmem with rfl | hmem
          · exact absurd rfl he
          · exact Or.inr (Or.inr (Or.inr (Or.inl ⟨caller, ws, Function.update_self _ _ _, hmem⟩)))
        · exact Or.inr (Or.inr (Or.inr (Or.inr ((congrArg _ (Function.update_of_ne he _ _)).trans hdone)))) }

/-- `SetFatalError` returns once it has completed all it took. -/
theorem endFatal (h : CommandInv v) {caller : Caller} (hqueue : v.queue caller = some []) :
    CommandInv { v with queue := Function.update v.queue caller none } := by
  have hrest : ∀ other us, Function.update v.queue caller none other = some us → v.queue other = some us := by
    intro other us hus
    rcases update_cases hus with ⟨_, hnew⟩ | ⟨_, hold⟩
    · cases hnew
    · exact hold
  exact { h with
    claimed_open := fun c id reply hc =>
      let ⟨hid, hvalue, hmap, hanswers, hnone⟩ := h.claimed_open c id reply hc
      ⟨hid, hvalue, hmap, hanswers, fun other us hus => hnone other us (hrest other us hus)⟩
    queue_open := fun other us hus => h.queue_open other us (hrest other us hus)
    queue_unique := fun a b us us' ha hb => h.queue_unique a b us us' (hrest a us ha) (hrest b us' hb)
    accounted := by
      intro c id hid
      rcases h.accounted c id hid with hmap | hgone | hclaimed | ⟨other, us, hus, hmem⟩ | hdone
      · exact Or.inl hmap
      · exact Or.inr (Or.inl hgone)
      · exact Or.inr (Or.inr (Or.inl hclaimed))
      · refine Or.inr (Or.inr (Or.inr (Or.inl ⟨other, us, (Function.update_of_ne ?_ _ _).trans hus, hmem⟩)))
        rintro rfl
        cases hqueue.symm.trans hus
        cases hmem
      · exact Or.inr (Or.inr (Or.inr (Or.inr hdone))) }

end CommandInv
end Webshot.Crawler
