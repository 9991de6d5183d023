import Webshot.Arkhiv.ZipRoundTrip
import Webshot.Crawler.CdxIndex
import Webshot.Crawler.WarcIndex

/-! `MakeWacz`: the files of an archive of a capture, and the package that lists them. -/
namespace Webshot.Crawler
open Text Arkhiv

def warcPath : Bytes := ascii "archive/data.warc.gz"

def indexPath : Bytes := ascii "indexes/index.cdx"

def pagesPath : Bytes := ascii "pages/pages.jsonl"

/-- What the making of an archive takes from libraries; `now` is the text of the time at which it is made. -/
structure WaczEnv where
  cdx : CdxEnv
  sha : Sha256
  lib : LibArchive
  now : Bytes

/-- `dto::WaczResource`. -/
structure WaczResource where
  name : Bytes
  path : Bytes
  hash : Bytes
  bytes : Nat

def WaczResource.json (resource : WaczResource) : Json :=
  .object [(ascii "name", .string resource.name), (ascii "path", .string resource.path),
    (ascii "hash", .string resource.hash), (ascii "bytes", .number (some resource.bytes))]

def makeWaczResource (sha : Sha256) (name path body : Bytes) : WaczResource :=
  ⟨name, path, sha256PrefixedHex sha body (ascii "sha256:"), body.length⟩

def makeWaczResources (sha : Sha256) (warcBytes pagesBytes cdxBytes : Bytes) : List WaczResource :=
  [makeWaczResource sha (ascii "pages.jsonl") pagesPath pagesBytes, makeWaczResource sha warcFilename warcPath warcBytes,
    makeWaczResource sha (ascii "index.cdx") indexPath cdxBytes]

/-- `MakeWaczDataPackage`, as it is written. -/
def makeWaczDataPackage (seedUrl now : Bytes) (resources : List WaczResource) : Json :=
  .object [(ascii "profile", .string (ascii "data-package")),
    (ascii "resources", .array (resources.map WaczResource.json)), (ascii "wacz_version", .string (ascii "1.1.1")),
    (ascii "title", .string seedUrl), (ascii "software", .string (ascii "webshotd")), (ascii "created", .string now),
    (ascii "modified", .string now)]

/-- The body of a file; no `std::string` is longer. -/
def toBody (bytes : Bytes) : Option Body := if h : bytes.length < 2 ^ 63 then some ⟨bytes, h⟩ else none

def storedEntry (file : Bytes × Bytes) : Option StoredEntry := (toBody file.2).map (⟨file.1, ·⟩)

def addFile (zip : ZipArchiveBuilder) (file : StoredEntry) : Except ArtifactError ZipArchiveBuilder :=
  match zip.addStoredFile file.path file.body with
  | (.ok _, zip) => .ok zip
  | (.error error, _) => .error ⟨.zipFailed, error.detail⟩

namespace WaczEnv
variable (env : WaczEnv)

def makeWaczPagesBytes (pagesJsonl : Bytes) : Bytes :=
  env.cdx.jsonToString (.object [(ascii "format", .string (ascii "json-pages-1.0")),
    (ascii "id", .string (ascii "pages")), (ascii "title", .string (ascii "All Pages")),
    (ascii "hasText", .bool false)]) ++ (ascii "\n" ++ pagesJsonl)

/-- The files in the order in which they are added. -/
def waczFiles (seedUrl pagesJsonl warcBytes cdx stdoutLog stderrLog : Bytes) : List (Bytes × Bytes) :=
  let waczPages := env.makeWaczPagesBytes pagesJsonl
  let resources := makeWaczResources env.sha warcBytes waczPages cdx
  [(ascii "datapackage.json", env.cdx.jsonToString (makeWaczDataPackage seedUrl env.now resources)),
    (warcPath, warcBytes), (pagesPath, waczPages), (ascii "logs/stdout.log", stdoutLog),
    (ascii "logs/stderr.log", stderrLog), (indexPath, cdx)]

/-- `MakeWacz`; `none` is an abort. -/
def makeWacz (seedUrl pagesJsonl : Bytes) (warc : WarcBuildOutput) (stdoutLog stderrLog : Bytes) :
    Option (Except ArtifactError Bytes) := do
  let cdx ← env.cdx.makeCdx warc.cdxRecords
  let files ← (env.waczFiles seedUrl pagesJsonl warc.bytes cdx stdoutLog stderrLog).mapM storedEntry
  match files.foldlM addFile {} with
  | .error error => return .error error
  | .ok zip =>
    match env.lib.finish zip with
    | .error error => return .error ⟨.zipFailed, error.detail⟩
    | .ok bytes => return .ok bytes

end WaczEnv

/-- The response is found in an archive by the address of its page: a line of the index has the key of the URL and the
place of a member in the WARC, and the member there is a record of the response with its body. -/
def Replays (env : WaczEnv) (gunzip : Bytes → Option Bytes) (archive : ZipArchive) (response : SerializableResponse) :
    Prop :=
  ∃ (warc : Bytes) (lines : List CdxLine) (line : CdxLine) (members : List (Bytes × Json)) (offset length : Nat)
    (record : Bytes),
    archive.findFile warcPath = some warc ∧ archive.findFile indexPath = some (lines.flatMap CdxLine.text) ∧
    line ∈ lines ∧ env.cdx.toSurtKey response.responseUrl = some line.key ∧
    line.json = env.cdx.jsonToString (.object members) ∧
    members.lookup (ascii "url") = some (.string response.responseUrl) ∧
    members.lookup (ascii "filename") = some (.string warcFilename) ∧
    members.lookup (ascii "status") = some (.number (some response.statusCode)) ∧
    members.lookup (ascii "offset") = some (.number (some offset)) ∧
    members.lookup (ascii "length") = some (.number (some length)) ∧
    gunzip ((warc.drop offset).take length) = some record ∧
    warcVersion ++ crlf ++ headerLineText ⟨ascii "WARC-Type", ascii "response"⟩ ++
      headerLineText ⟨ascii "WARC-Target-URI", response.responseUrl⟩ <+: record ∧
    response.body ++ ascii "\r\n\r\n" <:+ record

/-- Every file that the package lists is in the archive, with the size and the digest that the package says. -/
def Described (env : WaczEnv) (archive : ZipArchive) : Prop :=
  ∃ (package : List (Bytes × Json)) (resources : List WaczResource),
    archive.findFile (ascii "datapackage.json") = some (env.cdx.jsonToString (.object package)) ∧
    package.lookup (ascii "resources") = some (.array (resources.map WaczResource.json)) ∧
    resources.map WaczResource.path = [pagesPath, warcPath, indexPath] ∧
    ∀ resource ∈ resources, ∃ body, archive.findFile resource.path = some body ∧ resource.bytes = body.length ∧
      resource.hash = ascii "sha256:" ++ sha256Hex env.sha body

def waczPaths : List Bytes :=
  [ascii "datapackage.json", warcPath, pagesPath, ascii "logs/stdout.log", ascii "logs/stderr.log", indexPath]

theorem waczPaths_allowed : ∀ path ∈ waczPaths, isAllowedZipPath path = true := by decide +kernel

theorem waczPaths_nodup : waczPaths.Nodup := by decide +kernel

section Files
variable {env : WaczEnv}

theorem mapM_some {α β : Type} {f : α → Option β} {xs : List α} {ys : List β} (h : xs.mapM f = some ys) :
    List.Forall₂ (fun x y => f x = some y) xs ys := by
  induction xs generalizing ys with
  | nil =>
    cases h
    exact .nil
  | cons x xs ih =>
    rw [List.mapM_cons] at h
    obtain ⟨y, hy, h⟩ := Option.bind_eq_some_iff.mp h
    obtain ⟨rest, hrest, h⟩ := Option.bind_eq_some_iff.mp h
    cases h
    exact .cons hy (ih hrest)

private theorem storedEntries_eq {files : List (Bytes × Bytes)} {entries : List StoredEntry}
    (h : files.mapM storedEntry = some entries) : entries.map (fun entry => (entry.path, entry.body.val)) = files := by
  have hall := mapM_some h
  clear h
  induction hall with
  | nil => rfl
  | @cons file entry files entries hfile _ ih =>
    obtain ⟨body, hbody, rfl⟩ := Option.map_eq_some_iff.mp hfile
    unfold toBody at hbody
    split at hbody
    · cases hbody
      rw [List.map_cons, ih]
    · cases hbody

/-- Files with allowed paths that are all different are added one behind the other. -/
theorem addFiles_spec {files : List StoredEntry} (zip : ZipArchiveBuilder)
    (hallowed : ∀ path ∈ files.map StoredEntry.path, isAllowedZipPath path = true)
    (hnodup : ((zip.entries ++ files).map StoredEntry.path).Nodup) :
    ∃ zip', files.foldlM addFile zip = .ok zip' ∧ zip'.entries = zip.entries ++ files := by
  induction files generalizing zip with
  | nil => exact ⟨zip, rfl, (List.append_nil _).symm⟩
  | cons file files ih =>
    rw [List.map_cons, List.forall_mem_cons] at hallowed
    have hnew : file.path ∉ zip.entries.map StoredEntry.path := by
      rw [List.map_append, List.nodup_append] at hnodup
      exact fun hmem => hnodup.2.2 _ hmem _ List.mem_cons_self rfl
    rcases addStoredFile_cases zip file.path file.body with ⟨-, -, hok, hentries⟩ | ⟨hold, -, -⟩
    · have hfile : addFile zip file = .ok (zip.addStoredFile file.path file.body).2 := by
        unfold addFile
        split
        · rename_i heq
          rw [heq]
        · rename_i heq
          rw [heq] at hok
          cases hok
      rw [List.append_cons, ← hentries] at hnodup
      obtain ⟨zip', hrest, hall⟩ := ih _ hallowed.2 hnodup
      refine ⟨zip', ?_, ?_⟩
      · rw [List.foldlM_cons, hfile]
        exact hrest
      · rw [hall, hentries, List.append_assoc, List.singleton_append]
    · exact absurd (hold hallowed.1) hnew

theorem find?_storedEntries {entries : List StoredEntry} (path : Bytes) :
    (entries.find? (·.path = path)).map (·.body.val) =
      (entries.map fun entry => (entry.path, entry.body.val)).lookup path := by
  induction entries with
  | nil => rfl
  | cons entry entries ih =>
    rw [List.map_cons, List.lookup_cons]
    by_cases hpath : entry.path = path
    · rw [List.find?_cons_of_pos (by simpa using hpath), beq_iff_eq.mpr hpath.symm]
      rfl
    · rw [List.find?_cons_of_neg (by simpa using hpath), beq_false_of_ne (Ne.symm hpath), ih]

/-- The archive of a capture is written without an error, and read as its files. -/
theorem makeWacz_files (transports : env.lib.Transports) {seedUrl pagesJsonl stdoutLog stderrLog : Bytes}
    {warc : WarcBuildOutput} {result : Except ArtifactError Bytes}
    (h : env.makeWacz seedUrl pagesJsonl warc stdoutLog stderrLog = some result) :
    ∃ (cdx bytes : Bytes) (archive : ZipArchive), env.cdx.makeCdx warc.cdxRecords = some cdx ∧ result = .ok bytes ∧
      (∀ rounds > 6, ZipArchive.fromBytes env.lib rounds bytes = some (.ok archive)) ∧
      archive.entryPathsInOrder = waczPaths ∧
      ∀ path, archive.findFile path =
        (env.waczFiles seedUrl pagesJsonl warc.bytes cdx stdoutLog stderrLog).lookup path := by
  unfold WaczEnv.makeWacz at h
  obtain ⟨cdx, hcdx, h⟩ := Option.bind_eq_some_iff.mp h
  obtain ⟨files, hfiles, h⟩ := Option.bind_eq_some_iff.mp h
  have hentries := storedEntries_eq hfiles
  have hpaths : files.map StoredEntry.path = waczPaths := by
    have hfirst := congrArg (List.map Prod.fst) hentries
    rw [List.map_map] at hfirst
    exact hfirst
  have hallowed : ∀ path ∈ files.map StoredEntry.path, isAllowedZipPath path = true := hpaths ▸ waczPaths_allowed
  have hnodup : (files.map StoredEntry.path).Nodup := hpaths ▸ waczPaths_nodup
  obtain ⟨zip, hzip, hall⟩ := addFiles_spec {} hallowed hnodup
  rw [hzip] at h
  obtain ⟨bytes, new, zipReader, reader, hfinish, hnew, hformat, hopen, hat⟩ := finish_spec transports zip
  simp only [hfinish] at h
  cases h
  rw [hall, List.nil_append] at hat
  have hempty : Holds {} [] := ⟨rfl, fun _ => rfl⟩
  obtain ⟨archive, hread, hold⟩ := readEntries_spec transports hempty hat
    hallowed hnodup
  have hsix : files.length = 6 := by
    rw [← List.length_map (f := StoredEntry.path), hpaths]
    rfl
  refine ⟨cdx, bytes, archive, hcdx, rfl, fun rounds hrounds => ?_, hold.paths.trans hpaths, fun path => ?_⟩
  · simp only [ZipArchive.fromBytes, LibArchive.makeZipReader, hnew, hformat, hopen, LibArchive.orFail,
      Except.mapError, hread rounds (hsix ▸ hrounds)]
  · rw [← hentries, ← find?_storedEntries]
    exact hold.lookup path

/-- Each record has its line among those of the index. -/
theorem makeCdx_line {records : List WarcCdxRecord} {cdx : Bytes} (h : env.cdx.makeCdx records = some cdx)
    {record : WarcCdxRecord} (hrecord : record ∈ records) :
    ∃ lines : List CdxLine, cdx = lines.flatMap CdxLine.text ∧ ∃ line ∈ lines, env.cdx.makeCdxLine record = some line := by
  obtain ⟨lines, hlines, h⟩ := Option.bind_eq_some_iff.mp h
  cases h
  obtain ⟨i, hi, rfl⟩ := List.getElem_of_mem hrecord
  have hall := mapM_some hlines
  have hlength := hall.length_eq
  refine ⟨env.cdx.sort lines, rfl, lines.get ⟨i, hlength ▸ hi⟩, ?_, hall.get hi (hlength ▸ hi)⟩
  exact (env.cdx.sort_perm lines).mem_iff.mpr (List.getElem_mem _)

end Files

/-- An archive is made of every WARC, unless a text cannot be made at all. It is read back as its six files; the package
lists the pages, the WARC and the index as they are there; and each response of the capture is found by its URL. -/
theorem wacz_replays (env : WaczEnv) (transports : env.lib.Transports) (warcEnv : WarcEnv)
    {gunzip : Bytes → Option Bytes}
    (hgunzip : ∀ text member, warcEnv.gzipCompressMember text = .ok member → gunzip member = some text ∧ member ≠ [])
    {exchange : CapturedExchange} {warc : WarcBuildOutput} (hwarc : makeWarc warcEnv exchange = some (.ok warc))
    {seedUrl pagesJsonl stdoutLog stderrLog : Bytes} {result : Except ArtifactError Bytes}
    (hwacz : env.makeWacz seedUrl pagesJsonl warc stdoutLog stderrLog = some result) :
    ∃ bytes archive, result = .ok bytes ∧
      (∀ rounds > 6, ZipArchive.fromBytes env.lib rounds bytes = some (.ok archive)) ∧
      archive.entryPathsInOrder = waczPaths ∧ archive.findFile (ascii "logs/stdout.log") = some stdoutLog ∧
      archive.findFile (ascii "logs/stderr.log") = some stderrLog ∧
      (∃ header, archive.findFile pagesPath = some (header ++ pagesJsonl)) ∧ Described env archive ∧
      ∀ response ∈ capturedResponses exchange, Replays env gunzip archive response := by
  obtain ⟨cdx, bytes, archive, hcdx, hresult, hread, hpaths, hfiles⟩ := makeWacz_files transports hwacz
  have hwarcFile : archive.findFile warcPath = some warc.bytes := hfiles _
  have hindexFile : archive.findFile indexPath = some cdx := hfiles _
  have hpagesFile : archive.findFile pagesPath = some (env.makeWaczPagesBytes pagesJsonl) := hfiles _
  have hpagesEnd : ∃ header, archive.findFile pagesPath = some (header ++ pagesJsonl) := by
    rw [hpagesFile, WaczEnv.makeWaczPagesBytes, ← List.append_assoc]
    exact ⟨_, rfl⟩
  refine ⟨bytes, archive, hresult, hread, hpaths, hfiles _, hfiles _, hpagesEnd, ?_, fun response hresponse => ?_⟩
  · refine ⟨_, makeWaczResources env.sha warc.bytes (env.makeWaczPagesBytes pagesJsonl) cdx, hfiles _, rfl, rfl, ?_⟩
    intro resource hresource
    simp only [makeWaczResources, List.mem_cons, List.not_mem_nil, or_false] at hresource
    rcases hresource with rfl | rfl | rfl
    · exact ⟨_, hpagesFile, rfl, rfl⟩
    · exact ⟨_, hwarcFile, rfl, rfl⟩
    · exact ⟨_, hindexFile, rfl, rfl⟩
  · obtain ⟨record, hrecord, hurl, hstatus, drawn, statusMessage, hfinds⟩ := makeWarc_finds hgunzip hwarc hresponse
    obtain ⟨lines, hlines, line, hline, hmade⟩ := makeCdx_line hcdx hrecord
    have hmine : IsLineOf env.cdx record line := makeCdxLine_eq_some env.cdx hmade
    have hkey := hmine.key
    rw [hurl] at hkey
    refine ⟨warc.bytes, lines, line, _, record.offset, record.length, _, hwarcFile, hlines ▸ hindexFile, hline, hkey,
      hmine.json, ?_, rfl, ?_, rfl, rfl, hfinds.decompressed, ?_, hfinds.payload⟩
    · rw [← hurl]
      rfl
    · rw [← hstatus]
      rfl
    · rw [← hurl]
      exact hfinds.target

/-- Libraries that keep marked files and write empty objects. -/
private def sampleWaczEnv : WaczEnv := ⟨sampleCdxEnv, .plain, sampleLib, ascii "2024-01-01T00:00:00Z"⟩

private theorem storedEntries_some {files : List (Bytes × Bytes)} (h : ∀ file ∈ files, file.2.length < 2 ^ 63) :
    (files.mapM storedEntry).isSome := by
  induction files with
  | nil => rfl
  | cons file files ih =>
    rw [List.forall_mem_cons] at h
    obtain ⟨entries, hentries⟩ := Option.isSome_iff_exists.mp (ih h.2)
    rw [List.mapM_cons, storedEntry, toBody, dif_pos h.1, hentries]
    rfl

theorem wacz_replays_empty : ∃ warc bytes archive, makeWarc plainWarcEnv emptyPage = some (.ok warc) ∧
    sampleWaczEnv.makeWacz (ascii "https://a/") [] warc (ascii "out") [] = some (.ok bytes) ∧
    ZipArchive.fromBytes sampleLib 7 bytes = some (.ok archive) ∧ Described sampleWaczEnv archive ∧
    Replays sampleWaczEnv (some ·.tail) archive (makeMainDocumentResponse emptyPage) := by
  have hcollected : collectSerializableResponses plainWarcEnv emptyPage = [makeMainDocumentResponse emptyPage] :=
    List.mergeSort_singleton _
  have hmade : (makeWarc plainWarcEnv emptyPage).any (fun
      | .ok out => out.bytes.length < 5000 && (out.cdxRecords.mapM sampleCdxEnv.makeCdxLine).any fun lines =>
          (lines.flatMap CdxLine.text).length < 5000
      | .error _ => false) = true := by
    rw [makeWarc, hcollected]
    decide +kernel
  obtain ⟨outcome, hwarc, htest⟩ := (Option.any_eq_true _ _).mp hmade
  cases outcome with
  | error error => cases htest
  | ok warc =>
    obtain ⟨hbytes, hlines⟩ := Bool.and_eq_true_iff.mp htest
    obtain ⟨lines, hmapM, hlength⟩ := (Option.any_eq_true _ _).mp hlines
    have hcdx : sampleCdxEnv.makeCdx warc.cdxRecords = some ((sampleCdxEnv.sort lines).flatMap CdxLine.text) := by
      rw [CdxEnv.makeCdx, hmapM]
      rfl
    have hsize : ((sampleCdxEnv.sort lines).flatMap CdxLine.text).length < 5000 := by
      rw [((sampleCdxEnv.sort_perm lines).flatMap_right CdxLine.text).length_eq]
      exact of_decide_eq_true hlength
    have hfiles : ((sampleWaczEnv.waczFiles (ascii "https://a/") [] warc.bytes
        ((sampleCdxEnv.sort lines).flatMap CdxLine.text) (ascii "out") []).mapM storedEntry).isSome := by
      refine storedEntries_some ?_
      simp only [WaczEnv.waczFiles, List.forall_mem_cons]
      have hempty : (ascii "\x7b\x7d").length < 2 ^ 63 := by decide
      refine ⟨hempty, (of_decide_eq_true hbytes).trans (by decide), by decide, by decide, by decide,
        hsize.trans (by decide), List.forall_mem_nil _⟩
    have hresult : ∃ result,
        sampleWaczEnv.makeWacz (ascii "https://a/") [] warc (ascii "out") [] = some result := by
      obtain ⟨files, hfiles⟩ := Option.isSome_iff_exists.mp hfiles
      rw [WaczEnv.makeWacz, show sampleWaczEnv.cdx = sampleCdxEnv from rfl, hcdx]
      simp only [Option.bind_eq_bind, Option.bind_some, hfiles]
      split
      · exact ⟨_, rfl⟩
      · split <;> exact ⟨_, rfl⟩
    obtain ⟨result, hresult⟩ := hresult
    have hgunzip : ∀ text member, plainWarcEnv.gzipCompressMember text = .ok member →
        some member.tail = some text ∧ member ≠ [] := by
      intro text member hmember
      cases hmember
      exact ⟨rfl, List.cons_ne_nil 31 text⟩
    obtain ⟨bytes, archive, rfl, hread, -, -, -, -, hdescribed, hreplays⟩ :=
      wacz_replays sampleWaczEnv sampleLib_transports plainWarcEnv hgunzip hwarc hresult
    exact ⟨warc, bytes, archive, hwarc, hresult, hread 7 (by decide), hdescribed, hreplays _ List.mem_cons_self⟩

end Webshot.Crawler
