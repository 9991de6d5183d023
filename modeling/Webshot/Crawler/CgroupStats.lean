import Webshot.Crawler.ProxyRequests
import Webshot.Foundation.SignedWords
import Webshot.Foundation.TextLines
import Webshot.Storage.Values

/-! The statistics of the browser's cgroup: read file by file while it runs, and from the snapshot its
wrapper leaves behind when it ends. -/
namespace Webshot.Crawler
open Text Storage Foundation.KeyedMaps Foundation.SignedWords Foundation.TextLines

structure CgroupStats where
  cpuUsageUsec : Int := 0
  cpuUserUsec : Int := 0
  cpuSystemUsec : Int := 0
  memoryCurrent : Int := 0
  memoryOom : Int := 0
  memoryOomKill : Int := 0
  memoryOomGroupKill : Int := 0
  ioReadBytes : Int := 0
  ioWriteBytes : Int := 0
  ioReadOps : Int := 0
  ioWriteOps : Int := 0
  deriving DecidableEq

abbrev StatMap := KeyedMap Bytes Int

def valueOrZero (stats : StatMap) (key : Bytes) : Int := (stats.lookup key).getD 0

namespace CgroupStats
variable (out : CgroupStats) (stats : StatMap)

def hasBrowserOomKill : Bool := 0 < out.memoryOomKill || 0 < out.memoryOomGroupKill

def applyCpuStats : CgroupStats :=
  { out with
    cpuUsageUsec := valueOrZero stats (ascii "usage_usec")
    cpuUserUsec := valueOrZero stats (ascii "user_usec")
    cpuSystemUsec := valueOrZero stats (ascii "system_usec") }

def applyMemoryEvents : CgroupStats :=
  { out with
    memoryOom := valueOrZero stats (ascii "oom")
    memoryOomKill := valueOrZero stats (ascii "oom_kill")
    memoryOomGroupKill := valueOrZero stats (ascii "oom_group_kill") }

def applyIoStats : CgroupStats :=
  { out with
    ioReadBytes := valueOrZero stats (ascii "rbytes")
    ioWriteBytes := valueOrZero stats (ascii "wbytes")
    ioReadOps := valueOrZero stats (ascii "rios")
    ioWriteOps := valueOrZero stats (ascii "wios") }

end CgroupStats

/-- The lines `ForEachLine` hands out. -/
def statLines (text : Bytes) : List Bytes := trimmedLines lineFeed isAsciiSpace text

/-- The name in the header of a section, a line between brackets. -/
def sectionName (line : Bytes) : Option Bytes :=
  if startsWith line (ascii "[") && endsWith line (ascii "]") then some ((line.drop 1).dropLast) else none

namespace CaptureEnv
variable (env : CaptureEnv)

/-- The text of the error aborts if the value is not valid text. -/
def parseStatValue (value : Bytes) : Except (Storage.Failure Bytes) Int :=
  match parseInt64 (trimView value) with
  | some parsed => .ok parsed
  | none =>
    match env.format (ascii "invalid cgroup integer '" ++ value ++ ascii "'") with
    | some message => .error (.error message)
    | none => .error .aborted

def parseFlatStatLine (stats : StatMap) (line : Bytes) : Except (Storage.Failure Bytes) StatMap :=
  match line.idxOf? space with
  | none => .ok stats
  | some split => do return stats.insert (line.take split) (← env.parseStatValue (line.drop (split + 1)))

def parseFlatStat (text : Bytes) : Except (Storage.Failure Bytes) StatMap := (statLines text).foldlM env.parseFlatStatLine ∅

/-- The sum is an `int64_t` and wraps. -/
def parseIoToken (stats : StatMap) (token : Bytes) : Except (Storage.Failure Bytes) StatMap :=
  match token.idxOf? colon with
  | none => .ok stats
  | some split => do
    let value ← env.parseStatValue (token.drop (split + 1))
    return stats.insert (token.take split) (wrap64 (valueOrZero stats (token.take split) + value))

/-- The first token names the device. -/
def parseIoStatLine (stats : StatMap) (line : Bytes) : Except (Storage.Failure Bytes) StatMap :=
  (line.splitOn space).tail.foldlM env.parseIoToken stats

def parseIoStat (text : Bytes) : Except (Storage.Failure Bytes) StatMap := (statLines text).foldlM env.parseIoStatLine ∅

/-- A section of another name is passed over. -/
def applySnapshotSection (out : CgroupStats) (name body : Bytes) : Except (Storage.Failure Bytes) CgroupStats :=
  if name = ascii "cpu.stat" then do return out.applyCpuStats (← env.parseFlatStat body)
  else if name = ascii "memory.current" then do return { out with memoryCurrent := ← env.parseStatValue body }
  else if name = ascii "memory.events" then do return out.applyMemoryEvents (← env.parseFlatStat body)
  else if name = ascii "io.stat" then do return out.applyIoStats (← env.parseIoStat body)
  else .ok out

end CaptureEnv

/-- The files of a cgroup that `ReadCgroupStats` reads; one that is missing or cannot be read is passed over. -/
structure CgroupFiles where
  cpuStat : Option Bytes
  memoryCurrent : Option Bytes
  memoryEvents : Option Bytes
  ioStat : Option Bytes

/-- The files by name, in the order in which both sides go through them. -/
def CgroupFiles.named (files : CgroupFiles) : List (Bytes × Option Bytes) :=
  [(ascii "cpu.stat", files.cpuStat), (ascii "memory.current", files.memoryCurrent),
    (ascii "memory.events", files.memoryEvents), (ascii "io.stat", files.ioStat)]

/-- A file that is there, under its name in brackets. -/
def sectionText (file : Bytes × Option Bytes) : Bytes :=
  match file.2 with
  | some content => ascii "[" ++ file.1 ++ ascii "]\n" ++ content
  | none => []

/-- `snapshot_cgroup_stats` of the wrapper. -/
def CgroupFiles.snapshot (files : CgroupFiles) : Bytes := files.named.flatMap sectionText

/-- What the reader of a snapshot has come to; before the first header there is no section. -/
structure SnapshotState where
  out : CgroupStats := {}
  name : Bytes := []
  body : Bytes := []

namespace CaptureEnv
variable (env : CaptureEnv)

/-- The section read last is applied, if there is one. -/
def applyLast (s : SnapshotState) : Except (Storage.Failure Bytes) CgroupStats :=
  if s.name.isEmpty then .ok s.out else env.applySnapshotSection s.out s.name s.body

def readSnapshotLine (s : SnapshotState) (line : Bytes) : Except (Storage.Failure Bytes) SnapshotState :=
  match sectionName line with
  | some name => do return ⟨← env.applyLast s, name, if s.name.isEmpty then s.body else []⟩
  | none => .ok (if s.name.isEmpty then s else { s with body := s.body ++ line ++ [lineFeed] })

def parseCgroupStatsSnapshot (snapshot : Bytes) : Except (Storage.Failure Bytes) CgroupStats := do
  env.applyLast (← (statLines snapshot).foldlM env.readSnapshotLine {})

/-- One of the files of `ReadCgroupStats`. -/
def readStatFile (out : CgroupStats) (file : Option Bytes)
    (apply : CgroupStats → Bytes → Except (Storage.Failure Bytes) CgroupStats) : Except (Storage.Failure Bytes) CgroupStats :=
  match file with
  | some content => apply out content
  | none => .ok out

def readCgroupStats (files : CgroupFiles) : Except (Storage.Failure Bytes) CgroupStats := do
  let out ← readStatFile {} files.cpuStat fun out cpu => do return out.applyCpuStats (← env.parseFlatStat cpu)
  let out ← readStatFile out files.memoryCurrent fun out current => do
    return { out with memoryCurrent := ← env.parseStatValue current }
  let out ← readStatFile out files.memoryEvents fun out events => do
    return out.applyMemoryEvents (← env.parseFlatStat events)
  readStatFile out files.ioStat fun out io => do return out.applyIoStats (← env.parseIoStat io)

end CaptureEnv
end Webshot.Crawler
