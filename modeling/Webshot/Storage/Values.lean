import Mathlib.Data.List.Lex
import Mathlib.Order.Fin.Basic
import Webshot.Foundation.SignedWords
import Webshot.Text.Bytes

/-! Values the two databases and the service exchange. -/
namespace Webshot.Storage
open Text Foundation.SignedWords

structure PgError where
  what : Bytes
  deriving DecidableEq

/-- Compared bytewise, by Postgres as by the service. -/
abbrev Uuid := {b : Bytes // b.length = 16}

/-- The UUID whose bytes are all zero but the last. -/
def smallUuid (n : Byte) : Uuid :=
  ⟨List.replicate 15 0 ++ [n], by rw [List.length_append, List.length_replicate, List.length_singleton]⟩

/-- The 32 bytes the schema asks of `content_sha256`. -/
abbrev Sha256 := {b : Bytes // b.length = 32}

/-- Nanoseconds since the Unix epoch. -/
abbrev TimePoint := Int

/-- The times of stored rows: whole microseconds since the epoch that the clock's `int64_t` can count. -/
def StoredTime (tp : TimePoint) : Prop := 0 ≤ tp ∧ InInt64 tp ∧ (1000 : Int) ∣ tp

instance (tp : TimePoint) : Decidable (StoredTime tp) := inferInstanceAs (Decidable (_ ∧ _ ∧ _))

theorem StoredTime.fits {tp : TimePoint} (h : StoredTime tp) : InInt64 tp := h.2.1

theorem StoredTime.micros {tp : TimePoint} (h : StoredTime tp) : (1000 : Int) ∣ tp := h.2.2

/-- A stored capture as the API shows it. -/
structure UuidWithTimeLink where
  uuid : Uuid
  createdAt : TimePoint
  link : Bytes
  deriving DecidableEq

/-- Link ascending, then `created_at` descending, then uuid ascending. -/
def UuidWithTimeLink.Precedes (a b : UuidWithTimeLink) : Prop :=
  a.link < b.link ∨ (a.link = b.link ∧ (b.createdAt < a.createdAt ∨ (a.createdAt = b.createdAt ∧ a.uuid < b.uuid)))

instance : DecidableRel UuidWithTimeLink.Precedes := fun a b => inferInstanceAs (Decidable (a.link < b.link ∨
  (a.link = b.link ∧ (b.createdAt < a.createdAt ∨ (a.createdAt = b.createdAt ∧ a.uuid < b.uuid)))))

/-- A call ends without a value either with an error it returns, or because a failed invariant or
the dereference of an empty value stops the process. -/
inductive Failure (ε : Type) where
  | error (e : ε)
  | aborted
  deriving DecidableEq

end Webshot.Storage
