import Webshot.Access.PrefixKeys
import Webshot.Storage.Values

/-! The access policy store and its two enforcement points: admission with a mode, and the plain
denylist check made again before a capture is stored. -/
namespace Webshot.Access
open Text Storage

inductive AccessPolicyError where
  | dbError
  deriving DecidableEq

inductive AccessPolicyMode where
  | regular
  | allowlistOnly
  deriving DecidableEq

inductive AccessDecisionReason where
  | allowed
  | denylisted
  | notAllowlisted
  | nonHttps
  deriving DecidableEq

structure AccessDecision where
  allowed : Bool
  reason : AccessDecisionReason
  deriving DecidableEq

/-- The two reads of the shared state database the policy makes; each may fail. -/
structure PolicyRepo where
  checkDenylistTree : Bytes → Except PgError Bool
  checkAllowlistTree : Bytes → Except PgError Bool

structure PolicyRow where
  prefixKey : Bytes
  prefixTree : Bytes
  reason : Bytes

structure PolicyTables where
  denylist : List PolicyRow
  allowlist : List PolicyRow

/-- `exists(select 1 from … where prefix_tree @> text2ltree($1))`. -/
def checkTree (rows : List PolicyRow) (tree : Bytes) : Bool :=
  rows.any fun row => ltreeAncestor row.prefixTree tree

/-- A database that answers both queries from its tables. -/
def PolicyTables.repo (tables : PolicyTables) : PolicyRepo where
  checkDenylistTree tree := .ok (checkTree tables.denylist tree)
  checkAllowlistTree tree := .ok (checkTree tables.allowlist tree)

namespace PolicyRepo

def isDeniedPrefix (repo : PolicyRepo) (prefixKey : Bytes) : Except AccessPolicyError Bool :=
  (repo.checkDenylistTree (makePrefixTree prefixKey)).mapError fun _ => .dbError

def isAllowedPrefix (repo : PolicyRepo) (prefixKey : Bytes) : Except AccessPolicyError Bool := do
  return !(← repo.isDeniedPrefix prefixKey)

def isAllowlistedPrefix (repo : PolicyRepo) (prefixKey : Bytes) : Except AccessPolicyError Bool :=
  (repo.checkAllowlistTree (makePrefixTree prefixKey)).mapError fun _ => .dbError

/-- In regular mode the allowlist is asked first; in allowlist-only mode the denylist is. -/
def evaluatePrefix (repo : PolicyRepo) (prefixKey : Bytes) (mode : AccessPolicyMode) :
    Except AccessPolicyError AccessDecision :=
  match mode with
  | .regular => do
    if ← repo.isAllowlistedPrefix prefixKey then
      return ⟨true, .allowed⟩
    if ← repo.isDeniedPrefix prefixKey then
      return ⟨false, .denylisted⟩
    return ⟨true, .allowed⟩
  | .allowlistOnly => do
    if ← repo.isDeniedPrefix prefixKey then
      return ⟨false, .denylisted⟩
    if !(← repo.isAllowlistedPrefix prefixKey) then
      return ⟨false, .notAllowlisted⟩
    return ⟨true, .allowed⟩

/-- The check at the head of `PersistMetadataForContext`: a failed query and a denied prefix both
end the call without a capture. -/
inductive PersistPolicy where
  | passed
  | denylistedDuringCrawl
  | checkFailed
  deriving DecidableEq

def persistPolicy (repo : PolicyRepo) (prefixKey : Bytes) : PersistPolicy :=
  match repo.isAllowedPrefix prefixKey with
  | .error _ => .checkFailed
  | .ok false => .denylistedDuringCrawl
  | .ok true => .passed

end PolicyRepo

namespace PolicyTables
open PolicyRepo

/-- Some denylist row covers the key. -/
def Denied (tables : PolicyTables) (prefixKey : Bytes) : Prop :=
  ∃ row ∈ tables.denylist, ltreeAncestor row.prefixTree (makePrefixTree prefixKey) = true

/-- Some allowlist row covers the key. -/
def Allowlisted (tables : PolicyTables) (prefixKey : Bytes) : Prop :=
  ∃ row ∈ tables.allowlist, ltreeAncestor row.prefixTree (makePrefixTree prefixKey) = true

theorem checkTree_iff (rows : List PolicyRow) (tree : Bytes) :
    checkTree rows tree = true ↔ ∃ row ∈ rows, ltreeAncestor row.prefixTree tree = true :=
  List.any_eq_true

/-- What admission decides, by mode. -/
theorem evaluatePrefix_allowed_iff (tables : PolicyTables) (key : Bytes) (mode : AccessPolicyMode) :
    (∃ d, evaluatePrefix tables.repo key mode = .ok d ∧ d.allowed = true) ↔
      match mode with
      | .regular => tables.Allowlisted key ∨ ¬ tables.Denied key
      | .allowlistOnly => ¬ tables.Denied key ∧ tables.Allowlisted key := by
  rw [Denied, Allowlisted, ← checkTree_iff, ← checkTree_iff]
  cases mode <;> cases hd : checkTree tables.denylist (makePrefixTree key) <;>
    cases ha : checkTree tables.allowlist (makePrefixTree key) <;>
    simp [evaluatePrefix, isDeniedPrefix, isAllowlistedPrefix, repo, hd, ha, Except.mapError, bind,
      Except.bind, pure, Except.pure]

/-- What the check before storing decides: the mode and the allowlist play no part. -/
theorem persistPolicy_passed_iff (tables : PolicyTables) (key : Bytes) :
    persistPolicy tables.repo key = .passed ↔ ¬ tables.Denied key := by
  rw [Denied, ← checkTree_iff]
  cases hd : checkTree tables.denylist (makePrefixTree key) <;>
    simp [persistPolicy, isAllowedPrefix, isDeniedPrefix, repo, hd, Except.mapError, bind, Except.bind, pure,
      Except.pure]

/-- An admitted link passes the later check exactly when it is not the case that the mode is
regular and the link is covered by both lists. -/
theorem admitted_is_storable_iff (una : UniAlgo) (tables : PolicyTables) (link : Link) (mode : AccessPolicyMode) :
    ∃ key, makePrefixKey una link = some key ∧
      (((∃ d, evaluatePrefix tables.repo key mode = .ok d ∧ d.allowed = true) →
          persistPolicy tables.repo key = .passed) ↔
        ¬ (mode = .regular ∧ tables.Allowlisted key ∧ tables.Denied key)) := by
  refine ⟨_, makePrefixKey_eq una link, ?_⟩
  rw [evaluatePrefix_allowed_iff, persistPolicy_passed_iff]
  cases mode with
  | regular =>
    simp only [true_and]
    tauto
  | allowlistOnly =>
    simp only [reduceCtorEq, false_and, not_false_eq_true, iff_true]
    exact fun h => h.1

/-- The link `http://a.b/x`, entered into both lists. -/
def overriddenLink : Link where
  hostname := ascii "a.b"
  pathname := ascii "/x"
  query := none
  hostname_ascii := smallHost_ascii
  hostname_slash := smallHost_slash
  hostname_labels := smallHost_labels
  pathname_ascii := by decide +kernel
  pathname_absolute := by decide +kernel
  query_ascii := noQuery_ascii

def overriddenRow : PolicyRow := ⟨ascii "b.a/x", makePrefixTree (ascii "b.a/x"), ascii "test"⟩

/-- An allowlist entry over a denylist entry admits the link in regular mode; the finished crawl
is then thrown away. -/
theorem admitted_but_not_storable :
    makePrefixKey asciiUna overriddenLink = some (ascii "b.a/x") ∧
    (evaluatePrefix (repo ⟨[overriddenRow], [overriddenRow]⟩) (ascii "b.a/x") .regular).toOption =
      some ⟨true, .allowed⟩ ∧
    persistPolicy (repo ⟨[overriddenRow], [overriddenRow]⟩) (ascii "b.a/x") = .denylistedDuringCrawl := by
  decide +kernel

end PolicyTables
end Webshot.Access
