import Mathlib.Data.Finset.Insert
import Webshot.Arkhiv.ZipPaths
import Webshot.Foundation.KeyedMaps

/-! `ZipArchiveBuilder` and `ZipArchive`: files are collected, written as one archive, and read again. -/
namespace Webshot.Arkhiv
open Text Foundation.KeyedMaps

inductive ZipArchiveErrorCode where
  | writerInitFailed
  | readerInitFailed
  | openFailed
  | missingPath
  | invalidPath
  | unsupportedEntryType
  | invalidEntrySize
  | entryTooLarge
  | readDataFailed
  | truncatedEntry
  | duplicateEntry
  | readHeaderFailed
  | writeHeaderFailed
  | writeDataFailed
  | finishFailed
  deriving DecidableEq

/-- What a call leaves in `error_out` when it fails; a call that does not fail clears it. -/
structure ZipArchiveError where
  code : ZipArchiveErrorCode
  detail : Bytes
  deriving DecidableEq

/-- No `std::string` has 2^63 octets, so that the cast of its size to `la_int64_t` keeps it. -/
abbrev Body := {bytes : Bytes // bytes.length < 2 ^ 63}

structure StoredEntry where
  path : Bytes
  body : Body
  deriving DecidableEq

/-- The files collected so far; the set holds their paths, which are allowed and all different. -/
structure ZipArchiveBuilder where
  entries : List StoredEntry := []
  entryPaths : Finset Bytes := ∅
  mem_entryPaths : ∀ path, path ∈ entryPaths ↔ path ∈ entries.map StoredEntry.path := by simp
  paths_nodup : (entries.map StoredEntry.path).Nodup := by simp
  paths_allowed : ∀ path ∈ entries.map StoredEntry.path, isAllowedZipPath path = true := by simp

namespace ZipArchiveBuilder

/-- The builder with one more file, whose path is allowed and new. -/
def push (builder : ZipArchiveBuilder) (entry : StoredEntry) (hallowed : isAllowedZipPath entry.path = true)
    (hnew : entry.path ∉ builder.entryPaths) : ZipArchiveBuilder where
  entries := builder.entries ++ [entry]
  entryPaths := insert entry.path builder.entryPaths
  mem_entryPaths path := by
    rw [Finset.mem_insert, builder.mem_entryPaths, List.map_append, List.mem_append, List.map_singleton,
      List.mem_singleton, or_comm]
  paths_nodup := by
    rw [List.map_append, List.map_singleton]
    refine builder.paths_nodup.append (List.nodup_singleton _) ?_
    rw [List.disjoint_singleton, ← builder.mem_entryPaths]
    exact hnew
  paths_allowed path hpath := by
    rw [List.map_append, List.map_singleton] at hpath
    rcases List.mem_append.mp hpath with hpath | hpath
    · exact builder.paths_allowed path hpath
    · rw [List.mem_singleton.mp hpath]
      exact hallowed

/-- The result and the builder afterwards. -/
def addStoredFile (builder : ZipArchiveBuilder) (path : Bytes) (body : Body) :
    Except ZipArchiveError Unit × ZipArchiveBuilder :=
  if hallowed : isAllowedZipPath path = true then
    if hknown : path ∈ builder.entryPaths then
      (.error ⟨.duplicateEntry, ascii "duplicate zip entry: " ++ path⟩, builder)
    else (.ok (), builder.push ⟨path, body⟩ hallowed hknown)
  else (.error ⟨.invalidPath, ascii "zip entry path is not allowed: " ++ path⟩, builder)

/-- One call after the other: the results and the builder at the end. -/
def addStoredFiles (builder : ZipArchiveBuilder) :
    List StoredEntry → List (Except ZipArchiveError Unit) × ZipArchiveBuilder
  | [] => ([], builder)
  | call :: calls =>
    let first := builder.addStoredFile call.path call.body
    let rest := first.2.addStoredFiles calls
    (first.1 :: rest.1, rest.2)

end ZipArchiveBuilder

/-- `archive_entry`, as far as it is written and read here. -/
structure ArchiveEntry where
  pathname : Option Bytes
  isRegularFile : Bool
  isLink : Bool
  perm : Nat
  size : Int
  deriving DecidableEq

/-- What a call of libarchive leaves for `archive_error_string`. -/
abbrev ArchiveDetail := Option Bytes

inductive NextHeader (Reader : Type) where
  | eof
  | failed (detail : ArchiveDetail)
  | entry (header : ArchiveEntry) (reader : Reader)

/-- The calls of libarchive. -/
structure LibArchive where
  Writer : Type
  Reader : Type
  writeNew : Option Writer
  writeSetFormatZip : Writer → Except ArchiveDetail Writer
  writeZipSetCompressionStore : Writer → Except ArchiveDetail Writer
  writeOpen : Writer → Except ArchiveDetail Writer
  /-- Whether `archive_entry_new` returns an entry. -/
  entryNew : Bool
  writeHeader : Writer → ArchiveEntry → Except ArchiveDetail Writer
  /-- The number of octets written, or a negative one. -/
  writeData : Writer → Bytes → Int × ArchiveDetail × Writer
  /-- What all calls together gave to the callback that collects the archive. -/
  writeClose : Writer → Except ArchiveDetail Bytes
  readNew : Option Reader
  readSupportFormatZip : Reader → Except ArchiveDetail Reader
  readOpenMemory : Reader → Bytes → Except ArchiveDetail Reader
  readNextHeader : Reader → NextHeader Reader
  /-- The octets put into a buffer of the given size. -/
  readData : Reader → Nat → Except ArchiveDetail (Bytes × Reader)

def formatArchiveDetail (detail : ArchiveDetail) (context : Bytes) : Bytes :=
  context ++ detail.elim [] (ascii ": " ++ ·)

namespace LibArchive
variable (lib : LibArchive)

/-- A failed call as the error of ours. -/
def orFail {α : Type} (result : Except ArchiveDetail α) (code : ZipArchiveErrorCode) (context : Bytes) :
    Except ZipArchiveError α :=
  result.mapError fun detail => ⟨code, formatArchiveDetail detail context⟩

def makeZipWriter : Except ZipArchiveError lib.Writer := do
  match lib.writeNew with
  | none => .error ⟨.writerInitFailed, ascii "failed to allocate zip writer"⟩
  | some writer =>
    let writer ← orFail (lib.writeSetFormatZip writer) .writerInitFailed (ascii "failed to enable zip writer")
    orFail (lib.writeZipSetCompressionStore writer) .writerInitFailed (ascii "failed to configure stored zip output")

def makeZipReader : Except ZipArchiveError lib.Reader := do
  match lib.readNew with
  | none => .error ⟨.readerInitFailed, ascii "failed to allocate zip reader"⟩
  | some reader => orFail (lib.readSupportFormatZip reader) .readerInitFailed (ascii "failed to enable zip reader")

def makeRegularFileEntry (path : Bytes) (body : Body) : Except ZipArchiveError ArchiveEntry :=
  if lib.entryNew then .ok ⟨some path, true, false, 0o644, body.val.length⟩
  else .error ⟨.writerInitFailed, ascii "failed to allocate zip entry"⟩

/-- A round of the loop of `Finish`. -/
def writeEntry (writer : lib.Writer) (entrySpec : StoredEntry) : Except ZipArchiveError lib.Writer := do
  let entry ← lib.makeRegularFileEntry entrySpec.path entrySpec.body
  let writer ← orFail (lib.writeHeader writer entry) .writeHeaderFailed
    (ascii "failed to write zip header for " ++ entrySpec.path)
  if entrySpec.body.val.isEmpty then return writer
  else
    let (written, detail, writer) := lib.writeData writer entrySpec.body.val
    if written ≠ entrySpec.body.val.length then
      .error ⟨.writeDataFailed, formatArchiveDetail detail (ascii "failed to write zip body for " ++ entrySpec.path)⟩
    else return writer

/-- `Finish`. -/
def finish (builder : ZipArchiveBuilder) : Except ZipArchiveError Bytes := do
  let writer ← lib.makeZipWriter
  let writer ← orFail (lib.writeOpen writer) .openFailed (ascii "failed to open zip writer")
  let writer ← builder.entries.foldlM lib.writeEntry writer
  orFail (lib.writeClose writer) .finishFailed (ascii "failed to close zip writer")

/-- The loop of `ReadEntryBytes`. Each round but the last adds an octet at least, so `size` rounds are enough. -/
def readBody (size : Nat) : (rounds : Nat) → lib.Reader → Bytes → Except ZipArchiveError (Bytes × lib.Reader)
  | 0, reader, copied => .ok (copied, reader)
  | rounds + 1, reader, copied =>
    if copied.length < size then
      match lib.readData reader (size - copied.length) with
      | .error detail => .error ⟨.readDataFailed, formatArchiveDetail detail (ascii "failed to read zip entry body")⟩
      | .ok (chunk, reader) =>
        if chunk.isEmpty then .ok (copied, reader) else readBody size rounds reader (copied ++ chunk)
    else .ok (copied, reader)

/-- `std::numeric_limits<size_t>::max()`. -/
def sizeMax : Int := 18446744073709551615

def readEntryBytes (reader : lib.Reader) (entry : ArchiveEntry) : Except ZipArchiveError (Bytes × lib.Reader) := do
  if entry.size < 0 then .error ⟨.invalidEntrySize, ascii "zip entry size must not be negative"⟩
  else if sizeMax < entry.size then .error ⟨.entryTooLarge, ascii "zip entry is too large to fit in memory"⟩
  else
    let size := entry.size.toNat
    let (data, reader) ← readBody lib size size reader []
    if data.length ≠ size then .error ⟨.truncatedEntry, ascii "zip entry body was truncated"⟩
    else return (data, reader)

end LibArchive

/-- The files of an archive by their paths, and the paths in the order of the archive. -/
structure ZipArchive where
  files : KeyedMap Bytes Bytes := ∅
  paths : List Bytes := []

namespace ZipArchive

def findFile (archive : ZipArchive) (path : Bytes) : Option Bytes := archive.files.lookup path

def entryPathsInOrder (archive : ZipArchive) : List Bytes := archive.paths

variable (lib : LibArchive)

/-- The checks and the reading of one entry. -/
def readEntry (archive : ZipArchive) (entry : ArchiveEntry) (reader : lib.Reader) :
    Except ZipArchiveError (ZipArchive × lib.Reader) := do
  match entry.pathname with
  | none => .error ⟨.missingPath, ascii "zip entry is missing a pathname"⟩
  | some path =>
    if !isAllowedZipPath path then .error ⟨.invalidPath, ascii "zip entry path is not allowed: " ++ path⟩
    else if !entry.isRegularFile then
      .error ⟨.unsupportedEntryType, ascii "zip entry is not a regular file: " ++ path⟩
    else if entry.isLink then .error ⟨.unsupportedEntryType, ascii "zip entry must not be a link: " ++ path⟩
    else if path ∈ archive.files then .error ⟨.duplicateEntry, ascii "duplicate zip entry: " ++ path⟩
    else
      let (body, reader) ← lib.readEntryBytes reader entry
      return (⟨archive.files.insert path body, archive.paths ++ [path]⟩, reader)

/-- The loop of `FromBytes`; `none` is a loop that has not ended after that many rounds. -/
def readEntries : (rounds : Nat) → lib.Reader → ZipArchive → Option (Except ZipArchiveError ZipArchive)
  | 0, _, _ => none
  | rounds + 1, reader, archive =>
    match lib.readNextHeader reader with
    | .eof => some (.ok archive)
    | .failed detail =>
      some (.error ⟨.readHeaderFailed, formatArchiveDetail detail (ascii "failed to read zip entry header")⟩)
    | .entry entry reader =>
      match archive.readEntry lib entry reader with
      | .error error => some (.error error)
      | .ok (archive, reader) => readEntries rounds reader archive

def fromBytes (rounds : Nat) (bytes : Bytes) : Option (Except ZipArchiveError ZipArchive) :=
  match lib.makeZipReader with
  | .error error => some (.error error)
  | .ok reader =>
    match LibArchive.orFail (lib.readOpenMemory reader bytes) .openFailed
        (ascii "failed to open zip archive from memory") with
    | .error error => some (.error error)
    | .ok reader => readEntries lib rounds reader {}

end ZipArchive
end Webshot.Arkhiv
