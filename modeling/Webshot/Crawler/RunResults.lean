import Webshot.Crawler.RunArtifacts

/-! The result of `ExecuteRun` is complete or holds an error, and it keeps the limits of the run. -/
namespace Webshot.Crawler
open Text Foundation.JsonText

theorem checked64_of_bounds {n : Int} (hlow : -2 ^ 63 ≤ n) (hhigh : n ≤ int64Max) : checked64 n = some n :=
  if_pos ⟨hlow, hhigh⟩

/-- The quotient by which both products are guarded. -/
private theorem div64_max {d : Int} (hd : 0 < d) : div64 int64Max d = some (int64Max / d) := by
  have hmax : (0 : Int) ≤ int64Max := by decide
  rw [div64, if_neg (by omega), Int.tdiv_eq_ediv_of_nonneg hmax]
  refine checked64_of_bounds ?_ (Int.ediv_le_self d hmax)
  have hnonneg : 0 ≤ int64Max / d := Int.ediv_nonneg hmax (by omega)
  omega

/-- A product of `i64` that saturates: it is computed without overflow. -/
private theorem saturating_product {ratio d : Int} (hd : 0 < d) (hratio : 0 ≤ ratio) :
    (if ratio > int64Max / d then some int64Max else mul64 ratio d) = some (min (ratio * d) int64Max) := by
  split
  · rename_i hlarge
    have hover : int64Max < ratio * d := (Int.ediv_lt_iff_lt_mul hd).mp hlarge
    rw [min_eq_right hover.le]
  · rename_i hsmall
    have hfits : ratio * d ≤ int64Max := (Int.le_ediv_iff_mul_le hd).mp (not_lt.mp hsmall)
    have hnonneg : 0 ≤ ratio * d := Int.mul_nonneg hratio hd.le
    rw [min_eq_left hfits, mul64]
    exact checked64_of_bounds (by omega) hfits

theorem maxDownBytes_eq {maxArchiveBytes ratio : Int} (hmax : 0 < maxArchiveBytes) (hratio : 0 ≤ ratio) :
    maxDownBytes maxArchiveBytes ratio = some (min (ratio * maxArchiveBytes) int64Max) := by
  rw [← saturating_product hmax hratio, maxDownBytes, div64_max hmax]
  rfl

theorem maxDownByFinal_eq {waczBytes ratio : Int} (hbytes : 0 ≤ waczBytes) (hratio : 0 ≤ ratio) :
    maxDownByFinal waczBytes ratio = some (min (ratio * waczBytes) int64Max) := by
  unfold maxDownByFinal
  split
  · rename_i hzero
    have h : waczBytes = 0 := by omega
    rw [h, Int.mul_zero]
    rfl
  · rename_i hpos
    have hpos : 0 < waczBytes := by omega
    rw [← saturating_product hpos hratio, div64_max hpos]
    rfl

/-- The limit on a message is computed as long as four times the size of an archive is an `i64`. -/
theorem computeCdpMaxRemotePayloadBytes_isSome_iff {maxArchiveBytes : Int} :
    (computeCdpMaxRemotePayloadBytes maxArchiveBytes).isSome ↔ -2 ^ 61 ≤ maxArchiveBytes ∧ maxArchiveBytes < 2 ^ 61 := by
  by_cases hsmall : -2 ^ 61 ≤ maxArchiveBytes ∧ maxArchiveBytes < 2 ^ 61
  · obtain ⟨hlow, hhigh⟩ := hsmall
    have hquotient : ((maxArchiveBytes * 4).tdiv 3).natAbs = (maxArchiveBytes * 4).natAbs / 3 := Int.natAbs_tdiv _ _
    have hmul : mul64 maxArchiveBytes 4 = some (maxArchiveBytes * 4) :=
      checked64_of_bounds (by omega) (by rw [int64Max]; omega)
    have hdiv : div64 (maxArchiveBytes * 4) 3 = some ((maxArchiveBytes * 4).tdiv 3) := by
      rw [div64, if_neg (by decide)]
      exact checked64_of_bounds (by omega) (by rw [int64Max]; omega)
    have hsum : checked64 ((maxArchiveBytes * 4).tdiv 3 + cdpWsPayloadSlackBytes) =
        some ((maxArchiveBytes * 4).tdiv 3 + cdpWsPayloadSlackBytes) := by
      rw [cdpWsPayloadSlackBytes]
      exact checked64_of_bounds (by omega) (by rw [int64Max]; omega)
    simp only [computeCdpMaxRemotePayloadBytes, hmul, hdiv, hsum, Option.bind_eq_bind, Option.bind_some]
    exact iff_of_true rfl ⟨hlow, hhigh⟩
  · have hover : ¬(-2 ^ 63 ≤ maxArchiveBytes * 4 ∧ maxArchiveBytes * 4 ≤ int64Max) := by
      rw [int64Max]
      omega
    have hmul : mul64 maxArchiveBytes 4 = none := if_neg hover
    rw [computeCdpMaxRemotePayloadBytes, hmul]
    exact iff_of_false nofun hsmall

/-- The archive and what the proxy let through for it keep the limits. -/
def WithinLimits (limits : RunLimits) (captured : CaptureWithNetwork) (wacz : Bytes) : Prop :=
  (wacz.length : Int) ≤ limits.maxArchiveBytes ∧
    captured.proxyDownBytes ≤ min (limits.networkDownBytesRatioMax * wacz.length) int64Max

/-- The capture, the makers and the limits all let the run through. -/
def Succeeded {Warc : Type} (makers : ArtifactMakers Warc) (limits : RunLimits) (seedUrl : Bytes) :
    Except Bytes (Except CaptureError CaptureWithNetwork) → Prop
  | .ok (.ok captured) => ∃ pages warc wacz, makers.makePagesJsonl captured.exchange = .ok pages ∧
      (makers.makeWarc captured.exchange).run = some (.ok (.ok warc)) ∧
      (makers.makeWacz seedUrl pages warc (makeSuccessStdoutLog seedUrl captured.exchange) []).run =
        some (.ok (.ok wacz)) ∧
      WithinLimits limits captured wacz
  | _ => False

/-- None of the makers aborts on what it is given. -/
def ArtifactMakers.Builds {Warc : Type} (makers : ArtifactMakers Warc) (seedUrl : Bytes)
    (exchange : CapturedExchange) : Prop :=
  ∀ pages, makers.makePagesJsonl exchange = .ok pages →
    (∃ result, (makers.makeWarc exchange).run = some result) ∧
    ∀ warc, (makers.makeWarc exchange).run = some (.ok (.ok warc)) →
      ∃ result, (makers.makeWacz seedUrl pages warc (makeSuccessStdoutLog seedUrl exchange) []).run = some result

/-- Nothing of a failed run is left to be stored. -/
structure CrawlerRunArtifacts.Failed (out : CrawlerRunArtifacts) : Prop where
  error : out.error.isSome
  wacz : out.wacz = none
  contentSha256 : out.contentSha256 = none

/-- All that a successful run has to bring. -/
structure CrawlerRunArtifacts.Complete (limits : RunLimits) (captured : CaptureWithNetwork)
    (out : CrawlerRunArtifacts) : Prop where
  wacz : ∃ wacz, out.wacz = some wacz ∧ WithinLimits limits captured wacz
  contentSha256 : ∃ hash, out.contentSha256 = some hash ∧ hash.length = 32
  pagesJsonl : out.pagesJsonl.isSome
  replayUrl : out.replayUrl.isSome

/-- The result of a run over what the capture came to. -/
structure AllOrNothing (env : CaptureEnv) {Warc : Type} (makers : ArtifactMakers Warc) (limits : RunLimits)
    (seedUrl : Bytes) (result : Except Bytes (Except CaptureError CaptureWithNetwork)) (out : CrawlerRunArtifacts) :
    Prop where
  complete : out.error = none →
    ∃ captured, result = .ok (.ok captured) ∧ out.Complete limits captured ∧ captured.exchange.statusCode < 400
  nothing : ¬Succeeded makers limits seedUrl result → out.Failed
  storable : ∀ message, tryStoreSuccess env out ≠ .invariantFails message

section Exits
variable {env : CaptureEnv} {Warc : Type} {makers : ArtifactMakers Warc} {limits : RunLimits} {seedUrl : Bytes}
  {result : Except Bytes (Except CaptureError CaptureWithNetwork)} {out : CrawlerRunArtifacts}

theorem tryStoreSuccess_of_error (h : out.error.isSome) : tryStoreSuccess env out = .unsuccessful := if_pos h

/-- Every exit with an error and nothing to store. -/
theorem CrawlerRunArtifacts.Failed.allOrNothing (h : out.Failed) :
    AllOrNothing env makers limits seedUrl result out where
  complete hnone := by
    have herror := h.error
    rw [hnone] at herror
    cases herror
  nothing _ := h
  storable message := by
    rw [tryStoreSuccess_of_error h.error]
    nofun

/-- The exits at which the archive is kept. -/
theorem CrawlerRunArtifacts.Complete.allOrNothing {captured : CaptureWithNetwork} (h : out.Complete limits captured)
    (hresult : result = .ok (.ok captured)) (hsucceeded : Succeeded makers limits seedUrl result)
    (hstatus : out.error = none → captured.exchange.statusCode < 400) :
    AllOrNothing env makers limits seedUrl result out where
  complete hnone := ⟨captured, hresult, h, hstatus hnone⟩
  nothing hbroken := absurd hsucceeded hbroken
  storable message := by
    obtain ⟨wacz, hwacz, _⟩ := h.wacz
    obtain ⟨hash, hhash, hlength⟩ := h.contentSha256
    obtain ⟨replayUrl, hreplayUrl⟩ := Option.isSome_iff_exists.mp h.replayUrl
    have hwidth : ¬((hash.length : Int) ≠ 32) := by
      rw [hlength]
      decide
    simp only [tryStoreSuccess, hwacz, hhash, hreplayUrl, if_neg hwidth]
    split
    · nofun
    · split <;> nofun

private theorem format_ascii (text : Bytes) (h : IsAscii text) : env.format text = some text := fromBytes_ascii _ h

private theorem words_number (words : Bytes) (n : Int) {more : Bytes} (hwords : IsAscii words) (hmore : IsAscii more) :
    IsAscii (words ++ (intText n ++ more)) := hwords.append (.append (intText_ascii n) hmore)

/-- The exits after a WACZ was made. -/
theorem finishRun_spec (env : CaptureEnv) (hmax : 0 < limits.maxArchiveBytes)
    (hmax64 : limits.maxArchiveBytes ≤ int64Max) (hratio : 0 ≤ limits.networkDownBytesRatioMax)
    (captured : CaptureWithNetwork) (pages wacz : Bytes) (out : CrawlerRunArtifacts) {hash : Bytes}
    (hhash : out.contentSha256 = some hash) (hlength : hash.length = 32) :
    ∃ out', finishRun env limits out captured pages wacz = some out' ∧
      ((¬WithinLimits limits captured wacz ∧ out'.Failed) ∨
        (WithinLimits limits captured wacz ∧ out'.Complete limits captured ∧
          (out'.error = none → captured.exchange.statusCode < 400))) := by
  unfold finishRun
  by_cases hsize : (wacz.length : Int) > limits.maxArchiveBytes
  · have hmib : div64 limits.maxArchiveBytes 1048576 = some (limits.maxArchiveBytes / 1048576) := by
      rw [div64, if_neg (by decide), Int.tdiv_eq_ediv_of_nonneg hmax.le]
      refine checked64_of_bounds ?_ ((Int.ediv_le_self _ hmax.le).trans hmax64)
      have hnonneg : 0 ≤ limits.maxArchiveBytes / 1048576 := Int.ediv_nonneg hmax.le (by decide)
      omega
    have hmega : mul64 1024 1024 = some 1048576 := by decide
    have hdetail := words_number (ascii "archive bytes ") (wacz.length : Int) (.ofList rfl)
      (words_number (ascii " exceeded size limit ") (limits.maxArchiveBytes / 1048576) (.ofList rfl)
        (show IsAscii (ascii " MiB") from .ofList rfl))
    simp only [if_pos hsize, hmega, hmib, format_ascii _ hdetail, Option.bind_eq_bind, Option.bind_some]
    refine ⟨_, rfl, Or.inl ⟨fun hwithin => ?_, rfl, rfl, rfl⟩⟩
    exact absurd hwithin.1 (not_le.mpr hsize)
  · have hlimit := maxDownByFinal_eq (Int.natCast_nonneg wacz.length) hratio
    simp only [if_neg hsize, hlimit, Option.bind_eq_bind, Option.bind_some]
    by_cases hdown : captured.proxyDownBytes > min (limits.networkDownBytesRatioMax * wacz.length) int64Max
    · have hdetail := words_number (ascii "net_limit: proxy downstream bytes ") captured.proxyDownBytes
        (.ofList rfl) (IsAscii.append (a := ascii " exceeded post-run limit ") (.ofList rfl)
          (intText_ascii (min (limits.networkDownBytesRatioMax * wacz.length) int64Max)))
      simp only [if_pos hdown, format_ascii _ hdetail, Option.bind_some]
      refine ⟨_, rfl, Or.inl ⟨fun hwithin => ?_, rfl, rfl, rfl⟩⟩
      exact absurd hwithin.2 (not_le.mpr hdown)
    · have hwithin : WithinLimits limits captured wacz := ⟨not_lt.mp hsize, not_lt.mp hdown⟩
      by_cases hstatus : captured.exchange.statusCode ≥ 400
      · have hdetail := IsAscii.append (a := ascii "seed returned HTTP ") (.ofList rfl)
          (intText_ascii captured.exchange.statusCode)
        simp only [if_neg hdown, if_pos hstatus, format_ascii _ hdetail, Option.bind_some]
        exact ⟨_, rfl, Or.inr ⟨hwithin, ⟨⟨wacz, rfl, hwithin⟩, ⟨hash, hhash, hlength⟩, rfl, rfl⟩, nofun⟩⟩
      · simp only [if_neg hdown, if_neg hstatus]
        exact ⟨_, rfl, Or.inr ⟨hwithin, ⟨⟨wacz, rfl, hwithin⟩, ⟨hash, hhash, hlength⟩, rfl, rfl⟩,
          fun _ => not_le.mp hstatus⟩⟩

/-- The exits of `ExecuteRun` after a successful capture, maker by maker. -/
theorem archiveRun_run (env : CaptureEnv) (makers : ArtifactMakers Warc) (seedUrl : Bytes)
    (captured : CaptureWithNetwork) :
    (archiveRun env makers limits seedUrl {} captured).run =
      let out : CrawlerRunArtifacts :=
        { contentSha256 := some (makers.sha.computeContentSha256 captured.exchange)
          stdoutLog := makeSuccessStdoutLog seedUrl captured.exchange }
      match makers.makePagesJsonl captured.exchange with
      | .error what => some (.error what)
      | .ok pages => (makers.makeWarc captured.exchange).run.bind fun warc => match warc with
        | .error what => some (.error what)
        | .ok (.error detail) => some (.ok (out.failArtifact env detail))
        | .ok (.ok warc) =>
          (makers.makeWacz seedUrl pages warc out.stdoutLog []).run.bind fun wacz => match wacz with
          | .error what => some (.error what)
          | .ok (.error detail) => some (.ok (out.failArtifact env detail))
          | .ok (.ok wacz) => (finishRun env limits out captured pages wacz).map .ok := by
  cases hpages : makers.makePagesJsonl captured.exchange with
  | error what =>
    simp only [archiveRun, hpages]
    rfl
  | ok pages =>
    simp only [archiveRun, hpages]
    change ((makers.makeWarc captured.exchange) >>= _ : Throwing CrawlerRunArtifacts).run = _
    rw [ExceptT.run_bind]
    refine Option.bind_congr fun warc _ => ?_
    match warc with
    | .error what => rfl
    | .ok (.error detail) => rfl
    | .ok (.ok warc) =>
      change ((makers.makeWacz seedUrl pages warc _ []) >>= _ : Throwing CrawlerRunArtifacts).run = _
      rw [ExceptT.run_bind]
      refine Option.bind_congr fun wacz _ => ?_
      match wacz with
      | .error what => rfl
      | .ok (.error detail) => rfl
      | .ok (.ok wacz) => exact rfl

/-- `ExecuteRun` after a successful capture: if no maker aborts, an exception, or a result that is complete or empty. -/
theorem archiveRun_spec (env : CaptureEnv) (makers : ArtifactMakers Warc) (seedUrl : Bytes)
    (captured : CaptureWithNetwork) (hmax : 0 < limits.maxArchiveBytes) (hmax64 : limits.maxArchiveBytes ≤ int64Max)
    (hratio : 0 ≤ limits.networkDownBytesRatioMax) (hbuilds : makers.Builds seedUrl captured.exchange) :
    (∃ out, (archiveRun env makers limits seedUrl {} captured).run = some (.ok out) ∧
      AllOrNothing env makers limits seedUrl (.ok (.ok captured)) out) ∨
    ∃ what, (archiveRun env makers limits seedUrl {} captured).run = some (.error what) := by
  have hbroken : ∀ (detail : Bytes) (out : CrawlerRunArtifacts), (out.failArtifact env detail).Failed :=
    fun _ _ => ⟨rfl, rfl, rfl⟩
  cases hpages : makers.makePagesJsonl captured.exchange with
  | error what =>
    refine Or.inr ⟨what, ?_⟩
    rw [archiveRun_run, hpages]
  | ok pages =>
    obtain ⟨⟨warc, hwarc⟩, hmakesWacz⟩ := hbuilds pages hpages
    simp only [archiveRun_run, hpages, hwarc, Option.bind_some]
    match warc, hwarc with
    | .error what, hwarc => exact Or.inr ⟨what, rfl⟩
    | .ok (.error detail), hwarc => exact Or.inl ⟨_, rfl, (hbroken detail _).allOrNothing⟩
    | .ok (.ok warc), hwarc =>
      obtain ⟨wacz, hwacz⟩ := hmakesWacz warc hwarc
      simp only [hwacz, Option.bind_some]
      match wacz, hwacz with
      | .error what, hwacz => exact Or.inr ⟨what, rfl⟩
      | .ok (.error detail), hwacz => exact Or.inl ⟨_, rfl, (hbroken detail _).allOrNothing⟩
      | .ok (.ok wacz), hwacz =>
        have hhash := makers.sha.computeContentSha256_length captured.exchange
        have hfinish := finishRun_spec env hmax hmax64 hratio captured pages wacz
          { contentSha256 := some (makers.sha.computeContentSha256 captured.exchange)
            stdoutLog := makeSuccessStdoutLog seedUrl captured.exchange } rfl hhash
        obtain ⟨out, hout, hexit⟩ := hfinish
        refine Or.inl ⟨out, congrArg (Option.map Except.ok) hout, ?_⟩
        rcases hexit with ⟨_, hfailed⟩ | ⟨hwithin, hcomplete, hstatus⟩
        · exact hfailed.allOrNothing
        · exact hcomplete.allOrNothing rfl ⟨pages, warc, wacz, hpages, hwarc, hwacz, hwithin⟩ hstatus

theorem builds_of_archiveRun {env : CaptureEnv} {makers : ArtifactMakers Warc} {seedUrl : Bytes}
    {captured : CaptureWithNetwork} {outcome : Except Bytes CrawlerRunArtifacts}
    (h : (archiveRun env makers limits seedUrl {} captured).run = some outcome) :
    makers.Builds seedUrl captured.exchange := by
  intro pages hpages
  rw [archiveRun_run, hpages] at h
  obtain ⟨result, hresult, h⟩ := Option.bind_eq_some_iff.mp h
  refine ⟨⟨result, hresult⟩, fun warc hwarc => ?_⟩
  cases hresult.symm.trans hwarc
  obtain ⟨made, hmade, _⟩ := Option.bind_eq_some_iff.mp h
  exact ⟨made, hmade⟩

/-- The body of `ExecuteRun` goes by what the capture came to. -/
private theorem executeBody_run (env : CaptureEnv) (makers : ArtifactMakers Warc) (seedUrl : Bytes)
    (capture : Int → Int → Throwing (Except CaptureError CaptureWithNetwork)) {limit payload : Int}
    (hlimit : maxDownBytes limits.maxArchiveBytes limits.networkDownBytesRatioMax = some limit)
    (hpayload : computeCdpMaxRemotePayloadBytes limits.maxArchiveBytes = some payload) :
    (executeBody env makers limits seedUrl capture).run =
      (capture limit payload).run.bind fun result => match result with
        | .error what => some (.error what)
        | .ok (.error error) => some (.ok (.failCapture env error))
        | .ok (.ok captured) => (archiveRun env makers limits seedUrl {} captured).run := by
  unfold executeBody
  rw [hlimit, hpayload]
  change ((capture limit payload) >>= _ : Throwing CrawlerRunArtifacts).run = _
  rw [ExceptT.run_bind]
  refine Option.bind_congr fun result _ => ?_
  match result with
  | .error what => rfl
  | .ok (.error error) => rfl
  | .ok (.ok captured) => rfl

private theorem executeRun_of_body {capture : Int → Int → Throwing (Except CaptureError CaptureWithNetwork)}
    {body : CrawlerRunArtifacts} (cancelRequested : Bool)
    (hrun : (executeBody env makers limits seedUrl capture).run = some (.ok body))
    (hall : AllOrNothing env makers limits seedUrl result body) :
    ∃ outcome, executeRun env makers limits seedUrl cancelRequested capture = some outcome ∧
      (cancelRequested = false → ∃ out, outcome = .ok out) ∧
      ∀ out, outcome = .ok out → AllOrNothing env makers limits seedUrl result out := by
  refine ⟨.ok body, by simp only [executeRun, hrun]; rfl, fun _ => ⟨body, rfl⟩, fun out hout => ?_⟩
  cases hout
  exact hall

private theorem executeRun_of_exception {capture : Int → Int → Throwing (Except CaptureError CaptureWithNetwork)}
    {what : Bytes} (cancelRequested : Bool)
    (hrun : (executeBody env makers limits seedUrl capture).run = some (.error what)) :
    ∃ outcome, executeRun env makers limits seedUrl cancelRequested capture = some outcome ∧
      (cancelRequested = false → ∃ out, outcome = .ok out) ∧
      ∀ out, outcome = .ok out → AllOrNothing env makers limits seedUrl result out := by
  refine ⟨if cancelRequested then .error what else .ok (.failException env what),
    by simp only [executeRun, hrun]; rfl, fun hcancel => ⟨_, if_neg (by rw [hcancel]; decide)⟩, fun out hout => ?_⟩
  split at hout
  · cases hout
  · cases hout
    exact CrawlerRunArtifacts.Failed.allOrNothing ⟨rfl, rfl, rfl⟩

/-- A run whose capture and whose makers come back does so too, with a result that is complete or holds an error; only an
exception during a cancellation is thrown on. -/
theorem executeRun_spec (env : CaptureEnv) (makers : ArtifactMakers Warc) (seedUrl : Bytes) (cancelRequested : Bool)
    {capture : Int → Int → Throwing (Except CaptureError CaptureWithNetwork)} {payload : Int}
    (hmax : 0 < limits.maxArchiveBytes) (hmax64 : limits.maxArchiveBytes ≤ int64Max)
    (hratio : 0 ≤ limits.networkDownBytesRatioMax)
    (hpayload : computeCdpMaxRemotePayloadBytes limits.maxArchiveBytes = some payload)
    (hresult : (capture (min (limits.networkDownBytesRatioMax * limits.maxArchiveBytes) int64Max) payload).run =
      some result)
    (hbuilds : ∀ captured, result = .ok (.ok captured) → makers.Builds seedUrl captured.exchange) :
    ∃ outcome, executeRun env makers limits seedUrl cancelRequested capture = some outcome ∧
      (cancelRequested = false → ∃ out, outcome = .ok out) ∧
      ∀ out, outcome = .ok out → AllOrNothing env makers limits seedUrl result out := by
  have hbody := executeBody_run env makers seedUrl capture (maxDownBytes_eq hmax hratio) hpayload
  rw [hresult, Option.bind_some] at hbody
  match result, hbody, hbuilds with
  | .error what, hbody, _ => exact executeRun_of_exception cancelRequested hbody
  | .ok (.error error), hbody, _ =>
    exact executeRun_of_body cancelRequested hbody (CrawlerRunArtifacts.Failed.allOrNothing ⟨rfl, rfl, rfl⟩)
  | .ok (.ok captured), hbody, hbuilds =>
    rcases archiveRun_spec env makers seedUrl captured hmax hmax64 hratio (hbuilds captured rfl) with
      ⟨out, hout, hall⟩ | ⟨what, hwhat⟩
    · exact executeRun_of_body cancelRequested (hbody.trans hout) hall
    · exact executeRun_of_exception cancelRequested (hbody.trans hwhat)

/-- A run that comes back after a successful capture has made its artifacts without an abort. -/
theorem builds_of_executeRun {env : CaptureEnv} {makers : ArtifactMakers Warc} {seedUrl : Bytes}
    {cancelRequested : Bool} {capture : Int → Int → Throwing (Except CaptureError CaptureWithNetwork)}
    {limit payload : Int} {captured : CaptureWithNetwork} {outcome : Except Bytes CrawlerRunArtifacts}
    (hlimit : maxDownBytes limits.maxArchiveBytes limits.networkDownBytesRatioMax = some limit)
    (hpayload : computeCdpMaxRemotePayloadBytes limits.maxArchiveBytes = some payload)
    (hresult : (capture limit payload).run = some (.ok (.ok captured)))
    (h : executeRun env makers limits seedUrl cancelRequested capture = some outcome) :
    makers.Builds seedUrl captured.exchange := by
  obtain ⟨body, hbody, _⟩ := Option.bind_eq_some_iff.mp h
  rw [executeBody_run env makers seedUrl capture hlimit hpayload, hresult] at hbody
  exact builds_of_archiveRun hbody

/-- A library that knows no URLs, and makers of three bytes. -/
def plainEnv : CaptureEnv := ⟨asciiUna, fun _ => none⟩

def plainMakers : ArtifactMakers Unit where
  sha := .plain
  makePagesJsonl _ := .ok (ascii "pages")
  makeWarc _ := pure (.ok ())
  makeWacz _ _ _ _ _ := pure (.ok (ascii "zip"))

end Exits

end Webshot.Crawler
