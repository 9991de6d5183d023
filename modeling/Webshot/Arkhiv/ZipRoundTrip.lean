import Webshot.Arkhiv.ZipArchives
import Webshot.Foundation.Octets

/-! What a builder was given is what the archive it writes is read as. -/
namespace Webshot.Arkhiv
open Text Foundation.KeyedMaps

/-- libarchive carries the files with an allowed path in their order. `Wrote` is a writer with all of its files
complete, `Awaits` one that still has to be given a body of that size, and `At` a reader with the rest of a body and
the files behind it. -/
structure LibArchive.Transports (lib : LibArchive) where
  Wrote : lib.Writer → List StoredEntry → Prop
  Awaits : lib.Writer → List StoredEntry → Bytes → Nat → Prop
  At : lib.Reader → Bytes → List StoredEntry → Prop
  entryNew : lib.entryNew = true
  opensWriter : ∃ new zip store writer, lib.writeNew = some new ∧ lib.writeSetFormatZip new = .ok zip ∧
    lib.writeZipSetCompressionStore zip = .ok store ∧ lib.writeOpen store = .ok writer ∧ Wrote writer []
  writesHeader : ∀ {writer entries path} (size : Nat), Wrote writer entries → isAllowedZipPath path = true →
    ∃ writer', lib.writeHeader writer ⟨some path, true, false, 0o644, size⟩ = .ok writer' ∧
      Awaits writer' entries path size
  /-- A file without a body is complete with its header. -/
  writesEmpty : ∀ {writer entries path} (body : Body), Awaits writer entries path 0 → body.val = [] →
    Wrote writer (entries ++ [⟨path, body⟩])
  writesData : ∀ {writer entries path} (body : Body), Awaits writer entries path body.val.length → body.val ≠ [] →
    ∃ detail writer', lib.writeData writer body.val = ((body.val.length : Int), detail, writer') ∧
      Wrote writer' (entries ++ [⟨path, body⟩])
  closes : ∀ {writer entries}, Wrote writer entries → ∃ bytes new zip reader, lib.writeClose writer = .ok bytes ∧
    lib.readNew = some new ∧ lib.readSupportFormatZip new = .ok zip ∧ lib.readOpenMemory zip bytes = .ok reader ∧
    At reader [] entries
  readsEnd : ∀ {reader}, At reader [] [] → lib.readNextHeader reader = .eof
  readsHeader : ∀ {reader entry entries}, At reader [] (entry :: entries) → ∃ reader',
    lib.readNextHeader reader = .entry ⟨some entry.path, true, false, 0o644, entry.body.val.length⟩ reader' ∧
      At reader' entry.body.val entries
  /-- Some octets at least, and no more than there is room for. -/
  readsData : ∀ {reader rest entries capacity}, At reader rest entries → rest ≠ [] → 0 < capacity →
    ∃ chunk rest' reader', lib.readData reader capacity = .ok (chunk, reader') ∧ chunk ≠ [] ∧
      chunk.length ≤ capacity ∧ rest = chunk ++ rest' ∧ At reader' rest' entries

/-- The files of the calls that succeeded. -/
def accepted (calls : List StoredEntry) (results : List (Except ZipArchiveError Unit)) : List StoredEntry :=
  ((calls.zip results).filter fun call => call.2.toBool).map Prod.fst

section Builder
variable (builder : ZipArchiveBuilder)

/-- A call either adds its file behind the others, or fails and changes nothing. -/
theorem addStoredFile_cases (path : Bytes) (body : Body) :
    (isAllowedZipPath path = true ∧ path ∉ builder.entries.map StoredEntry.path ∧
      (builder.addStoredFile path body).1 = .ok () ∧
      (builder.addStoredFile path body).2.entries = builder.entries ++ [⟨path, body⟩]) ∨
    ((isAllowedZipPath path = true → path ∈ builder.entries.map StoredEntry.path) ∧
      (∃ error, (builder.addStoredFile path body).1 = .error error) ∧
      (builder.addStoredFile path body).2 = builder) := by
  rw [← builder.mem_entryPaths]
  by_cases hallowed : isAllowedZipPath path = true
  · by_cases hknown : path ∈ builder.entryPaths
    · refine .inr ⟨fun _ => hknown, ?_, ?_⟩ <;> rw [ZipArchiveBuilder.addStoredFile, dif_pos hallowed, dif_pos hknown]
      exact ⟨_, rfl⟩
    · refine .inl ⟨hallowed, hknown, ?_, ?_⟩ <;>
        rw [ZipArchiveBuilder.addStoredFile, dif_pos hallowed, dif_neg hknown]
      rfl
  · refine .inr ⟨fun h => absurd h hallowed, ?_, ?_⟩ <;> rw [ZipArchiveBuilder.addStoredFile, dif_neg hallowed]
    exact ⟨_, rfl⟩

/-- A run of calls adds the files of those that succeed, in their order. -/
theorem addStoredFiles_entries (calls : List StoredEntry) :
    (builder.addStoredFiles calls).2.entries = builder.entries ++ accepted calls (builder.addStoredFiles calls).1 := by
  induction calls generalizing builder with
  | nil => exact (List.append_nil _).symm
  | cons call calls ih =>
    rw [ZipArchiveBuilder.addStoredFiles, ih]
    rcases addStoredFile_cases builder call.path call.body with ⟨-, -, hok, hentries⟩ | ⟨-, ⟨error, herror⟩, hsame⟩
    · rw [hentries, List.append_assoc]
      simp only [accepted, List.zip_cons_cons, hok, Except.toBool, List.filter_cons_of_pos, List.map_cons,
        List.singleton_append]
    · rw [hsame]
      simp only [accepted, List.zip_cons_cons, herror, Except.toBool, Bool.false_eq_true, not_false_eq_true,
        List.filter_cons_of_neg]

/-- A call of a run succeeds if its path is allowed, new to the builder and no path of a call before it. -/
theorem addStoredFiles_ok_iff (calls : List StoredEntry) (i : Nat) (call : StoredEntry) (hi : calls[i]? = some call) :
    (builder.addStoredFiles calls).1[i]? = some (.ok ()) ↔ isAllowedZipPath call.path = true ∧
      call.path ∉ builder.entries.map StoredEntry.path ∧ ∀ earlier ∈ calls.take i, earlier.path ≠ call.path := by
  induction calls generalizing builder i with
  | nil => cases hi
  | cons first calls ih =>
    rw [ZipArchiveBuilder.addStoredFiles]
    cases i with
    | zero =>
      cases hi
      rcases addStoredFile_cases builder call.path call.body with ⟨hallowed, hnew, hok, -⟩ | ⟨hold, ⟨error, herror⟩, -⟩
      · simp only [List.getElem?_cons_zero, hok, hallowed, hnew, List.take_zero, List.not_mem_nil, true_and,
          not_false_eq_true, IsEmpty.forall_iff, implies_true]
      · simp only [List.getElem?_cons_zero, herror, Option.some.injEq, reduceCtorEq, false_iff]
        exact fun h => h.2.1 (hold h.1)
    | succ i =>
      rw [List.getElem?_cons_succ] at hi ⊢
      rw [ih _ i hi, List.take_succ_cons, List.forall_mem_cons]
      rcases addStoredFile_cases builder first.path first.body with ⟨-, -, -, hentries⟩ | ⟨hold, -, hsame⟩
      · rw [hentries, List.map_append, List.mem_append, not_or, List.map_singleton, List.mem_singleton, and_assoc]
        exact and_congr_right fun _ => and_congr_right fun _ => and_congr_left fun _ => ne_comm
      · rw [hsame]
        -- The path of a call that failed is no allowed one, or is known already.
        refine and_congr_right fun hallowed => and_congr_right fun hnew => (and_iff_right ?_).symm
        intro heq
        exact hnew (heq ▸ hold (heq ▸ hallowed))

end Builder

section Writing
variable {lib : LibArchive} (h : lib.Transports) {writer : lib.Writer} {entries : List StoredEntry}

theorem writeEntry_spec (hwriter : h.Wrote writer entries) {entry : StoredEntry}
    (hallowed : isAllowedZipPath entry.path = true) :
    ∃ writer', lib.writeEntry writer entry = .ok writer' ∧ h.Wrote writer' (entries ++ [entry]) := by
  obtain ⟨awaiting, hheader, hawaits⟩ := h.writesHeader entry.body.val.length hwriter hallowed
  have hentry : lib.makeRegularFileEntry entry.path entry.body =
      .ok ⟨some entry.path, true, false, 0o644, entry.body.val.length⟩ := if_pos h.entryNew
  by_cases hbody : entry.body.val = []
  · have hlength : entry.body.val.length = 0 := List.length_eq_zero_iff.mpr hbody
    refine ⟨awaiting, ?_, h.writesEmpty entry.body (hlength ▸ hawaits) hbody⟩
    simp only [LibArchive.writeEntry, hentry, bind, Except.bind, hheader, LibArchive.orFail, Except.mapError]
    rw [if_pos (List.isEmpty_iff.mpr hbody)]
    rfl
  · obtain ⟨detail, writer', hdata, hwrote⟩ := h.writesData entry.body hawaits hbody
    refine ⟨writer', ?_, hwrote⟩
    simp only [LibArchive.writeEntry, hentry, bind, Except.bind, hheader, LibArchive.orFail, Except.mapError, hdata]
    rw [if_neg (by rwa [List.isEmpty_iff]), if_neg (not_not_intro rfl)]
    rfl

theorem writeEntries_spec (hwriter : h.Wrote writer entries) {rest : List StoredEntry}
    (hallowed : ∀ path ∈ rest.map StoredEntry.path, isAllowedZipPath path = true) :
    ∃ writer', rest.foldlM lib.writeEntry writer = .ok writer' ∧ h.Wrote writer' (entries ++ rest) := by
  induction rest generalizing writer entries with
  | nil => exact ⟨writer, rfl, by rwa [List.append_nil]⟩
  | cons entry rest ih =>
    rw [List.map_cons, List.forall_mem_cons] at hallowed
    obtain ⟨next, hnext, hwrote⟩ := writeEntry_spec h hwriter hallowed.1
    obtain ⟨writer', hrest, hall⟩ := ih hwrote hallowed.2
    refine ⟨writer', ?_, by rwa [List.append_assoc] at hall⟩
    rw [List.foldlM_cons, hnext]
    exact hrest

theorem finish_spec (builder : ZipArchiveBuilder) :
    ∃ bytes new zip reader, lib.finish builder = .ok bytes ∧ lib.readNew = some new ∧
      lib.readSupportFormatZip new = .ok zip ∧ lib.readOpenMemory zip bytes = .ok reader ∧
      h.At reader [] builder.entries := by
  obtain ⟨new, zip, store, writer, hnew, hzip, hstore, hopen, hwriter⟩ := h.opensWriter
  obtain ⟨writer', hentries, hwrote⟩ := writeEntries_spec h hwriter builder.paths_allowed
  obtain ⟨bytes, newReader, zipReader, reader, hclose, hread⟩ := h.closes hwrote
  refine ⟨bytes, newReader, zipReader, reader, ?_, hread⟩
  simp only [LibArchive.finish, LibArchive.makeZipWriter, hnew, hzip, hstore, hopen, hentries, hclose, bind,
    Except.bind, LibArchive.orFail, Except.mapError]

end Writing

section Reading
variable {lib : LibArchive} (h : lib.Transports) {reader : lib.Reader} {entries : List StoredEntry}

/-- Whatever the sizes of the chunks, the loop puts the body together. -/
theorem readBody_spec {body copied rest : Bytes} {rounds : Nat} (hat : h.At reader rest entries)
    (hbody : body = copied ++ rest) (hrounds : rest.length ≤ rounds) :
    ∃ reader', lib.readBody body.length rounds reader copied = .ok (body, reader') ∧ h.At reader' [] entries := by
  induction rounds generalizing reader copied rest with
  | zero =>
    have hrest : rest = [] := List.length_eq_zero_iff.mp (Nat.le_zero.mp hrounds)
    subst hrest
    exact ⟨reader, by rw [hbody, List.append_nil]; rfl, hat⟩
  | succ rounds ih =>
    have hlength : body.length = copied.length + rest.length := by rw [hbody, List.length_append]
    rw [LibArchive.readBody]
    by_cases hrest : rest = []
    · subst hrest
      rw [List.append_nil] at hbody
      rw [hbody, if_neg (lt_irrefl _)]
      exact ⟨reader, rfl, hat⟩
    · have hpos : 0 < rest.length := List.length_pos_iff.mpr hrest
      have hroom : body.length - copied.length = rest.length := by omega
      obtain ⟨chunk, rest', reader', hdata, hchunk, -, hparts, hat'⟩ := h.readsData hat hrest hpos
      have hfewer : rest'.length ≤ rounds := by
        have hsum : rest.length = chunk.length + rest'.length := by rw [hparts, List.length_append]
        have := List.length_pos_iff.mpr hchunk
        omega
      have hnext : body = copied ++ chunk ++ rest' := by rw [hbody, hparts, List.append_assoc]
      obtain ⟨last, hread, hlast⟩ := ih hat' hnext hfewer
      refine ⟨last, ?_, hlast⟩
      rw [if_pos (by omega), hroom, hdata]
      simp only
      rw [if_neg (by rwa [List.isEmpty_iff]), hread]

theorem readEntryBytes_spec {entry : ArchiveEntry} (body : Body) (hat : h.At reader body.val entries)
    (hsize : entry.size = body.val.length) :
    ∃ reader', lib.readEntryBytes reader entry = .ok (body.val, reader') ∧ h.At reader' [] entries := by
  have hbound : body.val.length < 2 ^ 63 := body.property
  have hpos : ¬entry.size < 0 := by omega
  have hfits : ¬ LibArchive.sizeMax < entry.size := by
    rw [LibArchive.sizeMax]
    omega
  have hnat : entry.size.toNat = body.val.length := by omega
  have hnone : body.val = [] ++ body.val := rfl
  obtain ⟨reader', hbody, hat'⟩ := readBody_spec h hat hnone le_rfl
  refine ⟨reader', ?_, hat'⟩
  rw [LibArchive.readEntryBytes, if_neg hpos, if_neg hfits]
  simp only [hnat, hbody, bind, Except.bind]
  rw [if_neg (not_not_intro rfl)]
  rfl

/-- What has been read of an archive: the files of a list, whose paths are its own. -/
structure Holds (archive : ZipArchive) (files : List StoredEntry) : Prop where
  paths : archive.paths = files.map StoredEntry.path
  lookup : ∀ path, archive.files.lookup path = (files.find? (·.path = path)).map (·.body.val)

theorem Holds.mem_iff {archive : ZipArchive} {files : List StoredEntry} (hold : Holds archive files) (path : Bytes) :
    path ∈ archive.files ↔ path ∈ files.map StoredEntry.path := by
  rw [← AList.lookup_isSome, hold.lookup, Option.isSome_map, List.find?_isSome, List.mem_map]
  simp only [decide_eq_true_eq]

/-- A file with a new path is read and put behind the others. -/
theorem readEntry_spec {archive : ZipArchive} {files : List StoredEntry} (hold : Holds archive files)
    {file : StoredEntry} (hat : h.At reader file.body.val entries) (hallowed : isAllowedZipPath file.path = true)
    (hnew : file.path ∉ files.map StoredEntry.path) :
    ∃ archive' reader', archive.readEntry lib ⟨some file.path, true, false, 0o644, file.body.val.length⟩ reader =
        .ok (archive', reader') ∧ Holds archive' (files ++ [file]) ∧ h.At reader' [] entries := by
  let entry : ArchiveEntry := ⟨some file.path, true, false, 0o644, file.body.val.length⟩
  have hsize : entry.size = file.body.val.length := rfl
  obtain ⟨reader', hbody, hat'⟩ := readEntryBytes_spec h file.body hat hsize
  refine ⟨⟨archive.files.insert file.path file.body.val, archive.paths ++ [file.path]⟩, reader', ?_, ⟨?_, ?_⟩, hat'⟩
  · simp only [ZipArchive.readEntry, hallowed, Bool.not_true, Bool.false_eq_true, if_false]
    rw [if_neg (by rwa [hold.mem_iff]), hbody]
    rfl
  · rw [List.map_append, hold.paths, List.map_singleton]
  · intro path
    rw [lookup_insert_eq, hold.lookup, List.find?_append]
    by_cases hpath : path = file.path
    · subst hpath
      have hnone : files.find? (fun entry => decide (entry.path = file.path)) = none := by
        rw [List.find?_eq_none]
        intro entry hentry
        rw [decide_eq_true_eq]
        exact fun heq => hnew (heq ▸ List.mem_map_of_mem hentry)
      simp only [if_true, hnone, Option.none_or, List.find?_singleton, decide_true, Option.map_some]
    · have hother : [file].find? (fun entry => decide (entry.path = path)) = none := by
        rw [List.find?_singleton, decide_eq_false (Ne.symm hpath)]
        rfl
      rw [if_neg hpath, hother, Option.or_none]

theorem readEntries_spec {archive : ZipArchive} {files rest : List StoredEntry} (hold : Holds archive files)
    (hat : h.At reader [] rest) (hallowed : ∀ path ∈ rest.map StoredEntry.path, isAllowedZipPath path = true)
    (hnodup : ((files ++ rest).map StoredEntry.path).Nodup) :
    ∃ archive', (∀ rounds > rest.length, ZipArchive.readEntries lib rounds reader archive = some (.ok archive')) ∧
      Holds archive' (files ++ rest) := by
  induction rest generalizing reader archive files with
  | nil =>
    refine ⟨archive, fun rounds hrounds => ?_, by rwa [List.append_nil]⟩
    obtain ⟨rounds, rfl⟩ := Nat.exists_eq_succ_of_ne_zero (Nat.ne_zero_of_lt hrounds)
    rw [ZipArchive.readEntries, h.readsEnd hat]
  | cons file rest ih =>
    rw [List.map_cons, List.forall_mem_cons] at hallowed
    have hnew : file.path ∉ files.map StoredEntry.path := by
      rw [List.map_append, List.nodup_append] at hnodup
      exact fun hmem => hnodup.2.2 _ hmem _ List.mem_cons_self rfl
    obtain ⟨inBody, hheader, hbody⟩ := h.readsHeader hat
    obtain ⟨next, behind, hentry, hold', hbehind⟩ := readEntry_spec h hold hbody hallowed.1 hnew
    rw [List.append_cons] at hnodup ⊢
    obtain ⟨archive', hrest, hfiles⟩ := ih hold' hbehind hallowed.2 hnodup
    refine ⟨archive', fun rounds hrounds => ?_, hfiles⟩
    obtain ⟨rounds, rfl⟩ := Nat.exists_eq_succ_of_ne_zero (Nat.ne_zero_of_lt hrounds)
    rw [ZipArchive.readEntries, hheader]
    simp only [hentry, hrest rounds (Nat.lt_of_succ_lt_succ hrounds)]

end Reading

/-- For any calls, exactly the first one with each allowed path succeeds, one that fails leaves the builder as it was,
and the archive is read as the files of those that succeeded, in the order of the calls. -/
theorem zipArchive_round_trip (lib : LibArchive) (h : lib.Transports) (calls : List StoredEntry) :
    let run := ({} : ZipArchiveBuilder).addStoredFiles calls
    (∀ i call, calls[i]? = some call → (run.1[i]? = some (.ok ()) ↔
      isAllowedZipPath call.path = true ∧ ∀ earlier ∈ calls.take i, earlier.path ≠ call.path)) ∧
    (∀ (builder : ZipArchiveBuilder) path body, (builder.addStoredFile path body).1 ≠ .ok () →
      (builder.addStoredFile path body).2 = builder) ∧
    ∃ bytes archive, lib.finish run.2 = .ok bytes ∧
      (∀ rounds > (accepted calls run.1).length, ZipArchive.fromBytes lib rounds bytes = some (.ok archive)) ∧
      archive.entryPathsInOrder = (accepted calls run.1).map StoredEntry.path ∧
      ∀ path, archive.findFile path = ((accepted calls run.1).find? (·.path = path)).map (·.body.val) := by
  intro run
  have hentries : run.2.entries = accepted calls run.1 := addStoredFiles_entries {} calls
  refine ⟨fun i call hi => ?_, fun builder path body hfail => ?_, ?_⟩
  · rw [addStoredFiles_ok_iff {} calls i call hi]
    exact and_congr_right fun _ => and_iff_right List.not_mem_nil
  · rcases addStoredFile_cases builder path body with ⟨-, -, hok, -⟩ | ⟨-, -, hsame⟩
    · exact absurd hok hfail
    · exact hsame
  · obtain ⟨bytes, new, zip, reader, hfinish, hnew, hzip, hopen, hat⟩ := finish_spec h run.2
    have hempty : Holds {} [] := ⟨rfl, fun _ => rfl⟩
    obtain ⟨archive, hread, hold⟩ := readEntries_spec h hempty hat run.2.paths_allowed run.2.paths_nodup
    rw [List.nil_append] at hold
    rw [← hentries]
    refine ⟨bytes, archive, hfinish, fun rounds hrounds => ?_, hold.paths, hold.lookup⟩
    simp only [ZipArchive.fromBytes, LibArchive.makeZipReader, hnew, hzip, hopen, LibArchive.orFail, Except.mapError,
      hread rounds hrounds]

/-- An archive format: a 1 in front of every octet of a path or body, and a 0 behind each of them. -/
def marked (bytes : Bytes) : Bytes := bytes.flatMap (fun b => [1, b]) ++ [0]

/-- What was marked, and what is behind it. -/
def unmarked : Bytes → Bytes × Bytes
  | mark :: b :: rest => if mark = 1 then (b :: (unmarked rest).1, (unmarked rest).2) else ([], b :: rest)
  | _ => ([], [])

theorem unmarked_marked (bytes rest : Bytes) : unmarked (marked bytes ++ rest) = (bytes, rest) := by
  induction bytes with
  | nil =>
    cases rest with
    | nil => rfl
    | cons b rest => rfl
  | cons b bytes ih =>
    rw [marked, List.flatMap_cons, List.append_assoc, List.append_assoc, List.cons_append, List.singleton_append,
      unmarked, if_pos rfl, ← List.append_assoc]
    change (b :: (unmarked (marked bytes ++ rest)).1, (unmarked (marked bytes ++ rest)).2) = _
    rw [ih]

/-- A libarchive that keeps marked files and reads two octets at a time. -/
def sampleLib : LibArchive where
  Writer := Bytes
  Reader := Bytes × Bytes
  writeNew := some []
  writeSetFormatZip writer := .ok writer
  writeZipSetCompressionStore writer := .ok writer
  writeOpen writer := .ok writer
  entryNew := true
  writeHeader writer entry :=
    .ok (writer ++ marked (entry.pathname.getD []) ++ if entry.size = 0 then marked [] else [])
  writeData writer bytes := (bytes.length, none, writer ++ marked bytes)
  writeClose writer := .ok writer
  readNew := some ([], [])
  readSupportFormatZip reader := .ok reader
  readOpenMemory _ bytes := .ok ([], bytes)
  readNextHeader reader :=
    if reader.2.isEmpty then .eof
    else
      let (path, rest) := unmarked reader.2
      let (body, rest) := unmarked rest
      .entry ⟨some path, true, false, 0o644, body.length⟩ (body, rest)
  readData reader capacity := .ok (reader.1.take (min capacity 2), (reader.1.drop (min capacity 2), reader.2))

def sampleLib_transports : sampleLib.Transports where
  Wrote writer entries := writer = entries.flatMap fun file => marked file.path ++ marked file.body.val
  Awaits writer entries path size :=
    writer = (entries.flatMap fun file => marked file.path ++ marked file.body.val) ++ marked path ++
      if size = 0 then marked [] else []
  At reader rest entries :=
    reader = (rest, entries.flatMap fun file => marked file.path ++ marked file.body.val)
  entryNew := rfl
  opensWriter := ⟨[], [], [], [], rfl, rfl, rfl, rfl, rfl⟩
  writesHeader size hwrote _ := by
    refine ⟨_, rfl, ?_⟩
    rw [hwrote]
    simp only [Option.getD_some, Int.natCast_eq_zero]
    rfl
  writesEmpty body hawaits hbody := by
    rw [hawaits, List.flatMap_append, List.flatMap_singleton, hbody, if_pos rfl, List.append_assoc]
  writesData body hawaits hbody := by
    refine ⟨none, _, rfl, ?_⟩
    have hne : body.val.length ≠ 0 := fun hzero => hbody (List.length_eq_zero_iff.mp hzero)
    rw [hawaits, if_neg hne, List.flatMap_append, List.flatMap_singleton, List.append_nil, List.append_assoc]
  closes {writer entries} hwrote := ⟨writer, _, _, _, rfl, rfl, rfl, rfl, by rw [hwrote]⟩
  readsEnd hat := by
    rw [hat]
    rfl
  readsHeader {reader entry entries} hat := by
    refine ⟨_, ?_, rfl⟩
    have hsome : marked entry.path ≠ [] := List.append_ne_nil_of_right_ne_nil _ (List.cons_ne_nil _ _)
    rw [hat, List.flatMap_cons, List.append_assoc]
    simp only [sampleLib, unmarked_marked, List.isEmpty_iff]
    rw [if_neg (List.append_ne_nil_of_left_ne_nil hsome _)]
  readsData {reader rest entries capacity} hat hrest hcapacity := by
    have hpos : 0 < min capacity 2 := lt_min hcapacity Nat.two_pos
    refine ⟨rest.take (min capacity 2), rest.drop (min capacity 2), _, by rw [hat]; rfl, ?_, ?_, ?_, rfl⟩
    · rw [Ne, List.take_eq_nil_iff, not_or]
      exact ⟨hpos.ne', hrest⟩
    · exact (List.length_take_le _ _).trans (min_le_left _ _)
    · exact (List.take_append_drop _ _).symm

/-- A bad path, an empty body, a file that comes twice and a body of three octets. -/
def sampleCalls : List StoredEntry :=
  [⟨ascii "../a", ⟨ascii "x", by decide⟩⟩, ⟨ascii "b", ⟨[], by decide⟩⟩, ⟨ascii "b", ⟨ascii "y", by decide⟩⟩,
    ⟨ascii "c/d", ⟨ascii "xyz", by decide⟩⟩]

theorem zipArchive_round_trip_sample :
    ∃ bytes archive, sampleLib.finish (({} : ZipArchiveBuilder).addStoredFiles sampleCalls).2 = .ok bytes ∧
      ZipArchive.fromBytes sampleLib 3 bytes = some (.ok archive) ∧
      archive.entryPathsInOrder = [ascii "b", ascii "c/d"] ∧ archive.findFile (ascii "c/d") = some (ascii "xyz") ∧
      archive.findFile (ascii "../a") = none := by
  obtain ⟨-, -, bytes, archive, hfinish, hread, hpaths, hfiles⟩ :=
    zipArchive_round_trip sampleLib sampleLib_transports sampleCalls
  have haccepted : accepted sampleCalls (({} : ZipArchiveBuilder).addStoredFiles sampleCalls).1 =
      [⟨ascii "b", ⟨[], by decide⟩⟩, ⟨ascii "c/d", ⟨ascii "xyz", by decide⟩⟩] := by decide
  rw [haccepted] at hread hpaths hfiles
  exact ⟨bytes, archive, hfinish, hread 3 (by decide), hpaths, hfiles _, hfiles _⟩

end Webshot.Arkhiv
