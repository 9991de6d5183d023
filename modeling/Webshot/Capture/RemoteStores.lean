import Webshot.Capture.PersistAndPurge

/-! The capture table and the object store as their callers reach them: every operation may fail,
with or without having taken effect, or end with an exception. -/
namespace Webshot.Capture
open Text Storage

/-- The capture table, whose primary key is `id`, and the objects of the bucket by key. -/
@[ext]
structure Stores where
  captures : List CaptureRow
  ids_nodup : (captures.map CaptureRow.id).Nodup
  objects : Bytes → Option Bytes

/-- A request to the object store. An exception may come before or after it took effect, and finds
the task cancelled or not. -/
inductive S3Attempt where
  | completed
  | threw (applied cancelRequested : Bool)
  deriving DecidableEq

/-- A statement of the capture database: `pg::Error` is an error of its own, any other exception is not. -/
inductive PgAttempt where
  | completed
  | pgError (applied : Bool)
  | threw (applied : Bool)
  deriving DecidableEq

/-- What the caller sees; the texts of errors only reach the log. -/
inductive Reply where
  | ok
  | error
  | exception
  deriving DecidableEq

namespace S3Attempt

def applied : S3Attempt → Bool
  | completed => true
  | threw applied _ => applied

/-- `RunS3Operation`: an exception goes on to the caller only when the task was cancelled. -/
def runS3Operation : S3Attempt → Reply
  | completed => .ok
  | threw _ true => .exception
  | threw _ false => .error

end S3Attempt

namespace PgAttempt

def applied : PgAttempt → Bool
  | completed => true
  | pgError applied => applied
  | threw applied => applied

def catchPg : PgAttempt → Reply
  | completed => .ok
  | pgError _ => .error
  | threw _ => .exception

end PgAttempt

namespace Stores

def HasRow (s : Stores) (id : Uuid) : Prop := ∃ r ∈ s.captures, r.id = id

instance (s : Stores) (id : Uuid) : Decidable (s.HasRow id) :=
  inferInstanceAs (Decidable (∃ r ∈ s.captures, r.id = id))

def setObject (s : Stores) (key : Bytes) (object : Option Bytes) : Stores :=
  { s with objects := Function.update s.objects key object }

/-- The row joins the table unless its key is taken. -/
def addRow (s : Stores) (row : CaptureRow) : Stores :=
  if h : s.HasRow row.id then s
  else
    { s with
      captures := s.captures ++ [row]
      ids_nodup := by
        rw [List.map_append, List.map_singleton, List.nodup_append]
        refine ⟨s.ids_nodup, List.nodup_singleton _, ?_⟩
        rintro a ha b hb rfl
        obtain ⟨r, hr, hid⟩ := List.mem_map.mp ha
        exact h ⟨r, hr, hid.trans (List.mem_singleton.mp hb)⟩ }

/-- `delete from capture where id = any($1)`. -/
def removeRows (s : Stores) (ids : List Uuid) : Stores where
  captures := s.captures.filter (·.id ∉ ids)
  ids_nodup := s.ids_nodup.sublist (List.filter_sublist.map _)
  objects := s.objects

def putCaptureObject (s : Stores) (attempt : S3Attempt) (key bytes : Bytes) : Stores × Reply :=
  (if attempt.applied then s.setObject key (some bytes) else s, attempt.runS3Operation)

/-- Deleting a key that is not there succeeds. -/
def deleteCaptureObject (s : Stores) (attempt : S3Attempt) (key : Bytes) : Stores × Reply :=
  (if attempt.applied then s.setObject key none else s, attempt.runS3Operation)

/-- A taken key makes a statement that would have completed fail. -/
def insertCapture (s : Stores) (attempt : PgAttempt) (row : CaptureRow) : Stores × Reply :=
  (if attempt.applied then s.addRow row else s,
    if attempt = .completed ∧ s.HasRow row.id then .error else attempt.catchPg)

def deleteCapturesByIds (s : Stores) (attempt : PgAttempt) (ids : List Uuid) : Stores × Reply :=
  (if attempt.applied then s.removeRows ids else s, attempt.catchPg)

section Operations
variable (s : Stores) (key : Bytes) (object : Option Bytes) (row : CaptureRow)

theorem setObject_hasRow (id : Uuid) : (s.setObject key object).HasRow id ↔ s.HasRow id := Iff.rfl

theorem setObject_objects : (s.setObject key object).objects key = object := by
  simp [setObject]

theorem setObject_objects_of_ne {key' : Bytes} (h : key' ≠ key) :
    (s.setObject key object).objects key' = s.objects key' := by
  simp [setObject, h]

theorem addRow_objects : (s.addRow row).objects = s.objects := by
  unfold addRow
  split
  · rfl
  · rfl

theorem addRow_hasRow : (s.addRow row).HasRow row.id := by
  unfold addRow
  split
  · assumption
  · exact ⟨row, List.mem_append_right _ (List.mem_singleton_self row), rfl⟩

end Operations

theorem eq_of_id (s : Stores) {r r' : CaptureRow} (hr : r ∈ s.captures) (hr' : r' ∈ s.captures) (h : r.id = r'.id) :
    r = r' :=
  List.inj_on_of_nodup_map s.ids_nodup hr hr' h

end Stores
end Webshot.Capture
