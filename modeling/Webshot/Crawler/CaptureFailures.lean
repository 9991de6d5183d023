import Webshot.Crawler.CaptureErrors

/-! Every failing step of a capture is known by how its text begins. -/
namespace Webshot.Crawler
open Text Foundation.JsonText

/-- What is known of a failure of `CaptureAttachedTarget`. -/
structure Failure.Sound (una : UniAlgo) (proxyError : Option Bytes) (failure : Failure) : Prop where
  valid : una.isValidUtf8 failure.text = true
  normal : una.toNfcUtf8 failure.text = failure.text
  worded : failure.origin = .worded → startsWith failure.text netLimitPrefix = false
  retained : failure.origin = .retainBody → startsWith failure.text sizeLimitPrefix = true
  proxied : failure.origin = .proxyCheck → proxyError = some failure.text

/-- Every failure of the stretch is sound. -/
def Stretch.Sound {α : Type} (una : UniAlgo) (proxyError : Option Bytes) (x : Stretch α) : Prop :=
  ∀ failure, x.run = some (.error failure) → failure.Sound una proxyError

namespace Stretch.Sound
variable {una : UniAlgo} {proxyError : Option Bytes} {α β : Type}

theorem pure (value : α) : Stretch.Sound una proxyError (Pure.pure value) := nofun

theorem lift (x : Option α) : Stretch.Sound una proxyError (liftM x : Stretch α) := by
  intro failure h
  cases x with
  | none => cases h
  | some value => cases h

theorem bind {x : Stretch α} {f : α → Stretch β} (hx : Stretch.Sound una proxyError x)
    (hf : ∀ value, Stretch.Sound una proxyError (f value)) : Stretch.Sound una proxyError (x >>= f) := by
  intro failure h
  rw [ExceptT.run_bind] at h
  obtain ⟨result, hresult, h⟩ := Option.bind_eq_some_iff.mp h
  cases result with
  | error failure' =>
    cases h
    exact hx failure hresult
  | ok value => exact hf value failure h

theorem failWith {origin : Origin} {text : Bytes} (h : Failure.Sound una proxyError ⟨origin, text⟩) :
    Stretch.Sound una proxyError (failWith origin text : Stretch α) := by
  intro failure hfailure
  cases hfailure
  exact h

theorem ite {c : Prop} [Decidable c] {x y : Stretch α} (hx : c → Stretch.Sound una proxyError x)
    (hy : ¬c → Stretch.Sound una proxyError y) : Stretch.Sound una proxyError (if c then x else y) := by
  split
  · exact hx ‹_›
  · exact hy ‹_›

theorem foldlM {f : β → α → Stretch β} (hf : ∀ acc entry, Stretch.Sound una proxyError (f acc entry))
    (entries : List α) (acc : β) : Stretch.Sound una proxyError (entries.foldlM f acc) := by
  induction entries generalizing acc with
  | nil => exact pure acc
  | cons entry entries ih =>
    rw [List.foldlM_cons]
    exact bind (hf acc entry) ih

end Stretch.Sound

section Steps
variable {env : CaptureEnv} {proxyError : Option Bytes} {α : Type}

theorem worded_sound (una : UniAlgo) {words : Bytes} (h : IsOwnWords words) :
    Failure.Sound una proxyError ⟨.worded, words⟩ := by
  refine ⟨una.ascii_valid words h.1, una.ascii_nfc words h.1, fun _ => ?_, nofun, nofun⟩
  obtain ⟨_, hlength, hfirst⟩ := h
  match words, hlength with
  | x :: _ :: _, _ => exact not_netLimit_of_head rfl fun hx => hfirst (congrArg some hx)

theorem replied_sound (laws : TextLaws env.una) (action : Bytes) (h : IsOwnWords action) (reply : Reply env.una α) :
    Stretch.Sound env.una proxyError (env.replied action reply) := by
  cases reply with
  | ok value => exact .pure value
  | error detail =>
    intro failure hfailure
    cases htext : env.formatCdpError action detail with
    | none =>
      simp only [CaptureEnv.replied, htext] at hfailure
      cases hfailure
    | some text =>
      simp only [CaptureEnv.replied, htext] at hfailure
      cases hfailure
      cases detail with
      | none =>
        cases htext
        exact worded_sound env.una h
      | some detail =>
        have hdetail := laws.valid_append _ _ (env.una.ascii_valid (ascii ": ") (.ofList rfl)) detail.valid
        exact ⟨laws.valid_text htext, laws.nfc_text htext,
          fun _ => TextLaws.not_netLimit laws h hdetail htext, nofun, nofun⟩

theorem waited_sound (reply : Except (Str env.una) Unit) : Stretch.Sound env.una proxyError (env.waited reply) := by
  cases reply with
  | ok _ => exact .pure ()
  | error text => exact .failWith ⟨text.valid, text.normal, nofun, nofun, nofun⟩

theorem pause_sound (una : UniAlgo) {text : String} (h : IsOwnWords (ascii text)) (seconds : Nat) (reached : Bool) :
    Stretch.Sound una proxyError (CaptureEnv.pause seconds reached text) :=
  .ite (fun _ => .failWith (worded_sound una h)) fun _ => .pure ()

theorem retainBody_sound (body : Bytes) (budget : RetainedBodyBudget) :
    Stretch.Sound env.una proxyError (env.retainBody body budget) := by
  have hnumbers : ∀ found limit : Int, IsAscii (intText found ++ (ascii " exceeded size limit " ++ intText limit)) :=
    fun found limit => .append (intText_ascii found) (.append (.ofList rfl) (intText_ascii limit))
  refine .ite (fun _ => ?_) fun _ => .pure _
  have hascii := IsAscii.append (a := ascii "size_limit: retained body bytes ") (.ofList rfl)
    (hnumbers (budget.retainedBytes + body.length) budget.maxBytes)
  have hsound : Failure.Sound env.una proxyError ⟨.retainBody, ascii "size_limit: retained body bytes " ++
      (intText (budget.retainedBytes + body.length) ++ (ascii " exceeded size limit " ++ intText budget.maxBytes))⟩ :=
    ⟨env.una.ascii_valid _ hascii, env.una.ascii_nfc _ hascii, nofun,
      fun _ => startsWith_append _ rfl, nofun⟩
  rw [CaptureEnv.format, fromBytes_ascii _ hascii]
  exact .failWith hsound

theorem readBody_sound (settings : CaptureSettings env.una) (page : PageReplies env.una) (budget : RetainedBodyBudget)
    (fallbackBody : Bytes) : Stretch.Sound env.una proxyError (env.readBody settings page budget fallbackBody) := by
  unfold CaptureEnv.readBody
  split
  · exact retainBody_sound _ _
  · split
    · exact retainBody_sound _ _
    · split <;> exact retainBody_sound _ _

theorem readResource_sound (settings : CaptureSettings env.una) (page : PageReplies env.una)
    (acc : List CapturedResource × RetainedBodyBudget) (entry : Bytes × TrackedRequest) :
    Stretch.Sound env.una proxyError (env.readResource settings page acc entry) := by
  refine .ite (fun _ => .pure _) fun _ => .bind (.lift _) fun response => ?_
  refine .ite (fun _ => .pure _) fun _ => ?_
  split
  · exact .pure _
  · exact .bind (retainBody_sound _ _) fun _ => .pure _

theorem readResources_sound (settings : CaptureSettings env.una) (page : PageReplies env.una)
    (budget : RetainedBodyBudget) : Stretch.Sound env.una proxyError (env.readResources settings page budget) :=
  .bind (.foldlM (readResource_sound settings page) _ _) fun _ => .pure _

private theorem own_failed (method : String) (h : IsOwnWords (ascii method)) :
    IsOwnWords (ascii method ++ ascii " failed") := by
  obtain ⟨hascii, hlength, hfirst⟩ := h
  match hwords : ascii method, hlength with
  | x :: y :: words, _ =>
    rw [hwords] at hascii hfirst
    exact ⟨hascii.append (.ofList rfl), by simp, hfirst⟩

theorem sendVoid_sound (laws : TextLaws env.una) (page : PageReplies env.una) (method : String)
    (h : IsOwnWords (ascii method)) : Stretch.Sound env.una proxyError (env.sendVoid page method) :=
  replied_sound laws _ (own_failed method h) _

theorem prepareTarget_sound (laws : TextLaws env.una) (page : PageReplies env.una) :
    Stretch.Sound env.una proxyError (env.prepareTarget page) := by
  have hbase : Stretch.Sound env.una proxyError (env.enableBaseDomains page) := by
    refine .bind (sendVoid_sound laws page "Page.enable" (.ofList (by decide) rfl)) fun _ => ?_
    refine .bind (sendVoid_sound laws page "Runtime.enable" (.ofList (by decide) rfl)) fun _ => ?_
    refine .bind (sendVoid_sound laws page "Network.enable" (.ofList (by decide) rfl)) fun _ => ?_
    exact sendVoid_sound laws page "Page.setLifecycleEventsEnabled" (.ofList (by decide) rfl)
  refine .bind hbase fun _ => .bind (sendVoid_sound laws page "Fetch.enable" (.ofList (by decide) rfl)) fun _ => ?_
  refine .bind (sendVoid_sound laws page "Network.setCacheDisabled" (.ofList (by decide) rfl)) fun _ => ?_
  refine .bind (sendVoid_sound laws page "Network.setBypassServiceWorker" (.ofList (by decide) rfl)) fun _ => ?_
  refine .bind (sendVoid_sound laws page "Network.setExtraHTTPHeaders" (.ofList (by decide) rfl)) fun _ => ?_
  refine .bind (replied_sound laws (ascii "Page.getFrameTree failed") ?_ page.frameId) fun _ => .pure _
  exact .ofList (by decide) rfl

/-- The text that the browser gives for a failed navigation is passed on as it is. -/
private theorem passedOn_sound (text : Str env.una) : Failure.Sound env.una proxyError ⟨.passedOn, text.bytes⟩ where
  valid := text.valid
  normal := text.normal
  worded h := by cases h
  retained h := by cases h
  proxied h := by cases h

theorem navigate_sound (laws : TextLaws env.una) (settings : CaptureSettings env.una) (page : PageReplies env.una) :
    Stretch.Sound env.una proxyError (env.navigate settings page) := by
  have hreply : Stretch.Sound env.una proxyError (env.replied (ascii "Page.navigate failed") page.navigate) :=
    replied_sound laws (ascii "Page.navigate failed") (.ofList (by decide) rfl) page.navigate
  refine .ite (fun _ => .bind (.failWith (worded_sound env.una (.ofList (by decide) rfl))) fun _ => ?_) fun _ => ?_
  all_goals
    refine .bind hreply fun result => ?_
    cases result.errorText with
    | some text => exact .failWith (passedOn_sound text)
    | none => exact .pure ()

theorem settlePage_sound (laws : TextLaws env.una) (settings : CaptureSettings env.una) (page : PageReplies env.una) :
    Stretch.Sound env.una proxyError (env.settlePage settings page) := by
  have hbehavior : Stretch.Sound env.una proxyError (env.runSiteBehavior page) := by
    have hrun : Stretch.Sound env.una proxyError
        (env.replied (ascii "failed to run site behavior") page.siteBehavior) :=
      replied_sound laws (ascii "failed to run site behavior") (.ofList (by decide) rfl) page.siteBehavior
    refine .ite (fun _ => ?_) fun _ => hrun
    exact .bind (.failWith (worded_sound env.una (.ofList (by decide) rfl))) fun _ => hrun
  have hlast : ∀ _ : Unit, Stretch.Sound env.una proxyError (do
      CaptureEnv.pause settings.timings.pageExtraDelay page.pageExtraDelayReached
        "timed out waiting for extra page delay"
      env.waited page.waitForMainDocument) := fun _ =>
    .bind (pause_sound env.una (.ofList (by decide) rfl) _ _) fun _ => waited_sound _
  refine .bind (waited_sound _) fun _ => .bind (pause_sound env.una (.ofList (by decide) rfl) _ _) fun _ => ?_
  refine .ite (fun _ => .bind hbehavior fun _ => ?_) fun _ => ?_
  · exact .ite (fun _ => .bind (waited_sound _) hlast) fun _ => hlast ()
  · exact .ite (fun _ => .bind (waited_sound _) hlast) fun _ => hlast ()

theorem readDomState_sound (laws : TextLaws env.una) (page : PageReplies env.una) :
    Stretch.Sound env.una proxyError (env.readDomState page) := by
  refine .bind (replied_sound laws (ascii "failed to read dom state") ?_ page.domState) fun value => ?_
  · exact .ofList (by decide) rfl
  split
  · exact .failWith (worded_sound env.una (.ofList (by decide) rfl))
  · exact .pure _

theorem stopPageSession_sound (laws : TextLaws env.una) (page : PageReplies env.una) :
    Stretch.Sound env.una proxyError (env.stopPageSession page) :=
  .bind (sendVoid_sound laws page "Target.detachFromTarget" (.ofList (by decide) rfl)) fun _ =>
    sendVoid_sound laws page "Target.disposeBrowserContext" (.ofList (by decide) rfl)

theorem checkProxy_sound
    (h : ∀ reason, proxyError = some reason → env.una.isValidUtf8 reason = true ∧ env.una.toNfcUtf8 reason = reason)
    (exchange : CapturedExchange) : Stretch.Sound env.una proxyError (CaptureEnv.checkProxy proxyError exchange) := by
  unfold CaptureEnv.checkProxy
  split
  · rename_i reason
    obtain ⟨hvalid, hnormal⟩ := h reason rfl
    exact .ite (fun _ => .pure _) fun _ => .failWith ⟨hvalid, hnormal, nofun, nofun, fun _ => rfl⟩
  · exact .pure _

/-- A capture that fails says where and in which words. -/
theorem captureAttachedTarget_sound (laws : TextLaws env.una) (settings : CaptureSettings env.una)
    (page : PageReplies env.una)
    (h : ∀ reason, proxyError = some reason → env.una.isValidUtf8 reason = true ∧ env.una.toNfcUtf8 reason = reason) :
    Stretch.Sound env.una proxyError (env.captureAttachedTarget settings page proxyError) := by
  refine .bind (prepareTarget_sound laws page) fun _ => ?_
  refine .bind (navigate_sound laws settings page) fun _ => ?_
  refine .bind (settlePage_sound laws settings page) fun _ => ?_
  refine .bind (readDomState_sound laws page) fun domState => ?_
  refine .bind (readBody_sound settings page _ _) fun _ => ?_
  refine .bind (readResources_sound settings page _) fun _ => ?_
  refine .bind (stopPageSession_sound laws page) fun _ => ?_
  exact .bind (.lift _) fun exchange => checkProxy_sound h exchange

end Steps

end Webshot.Crawler
