import Webshot.Access.PolicyDecisions
import Webshot.Access.PrefixTreeLaw
import Webshot.Foundation.UniqueRows

/-! Writing the deny- and the allowlist: which sequences of calls the tables' constraints let through. -/
namespace Webshot.Access
open Text Storage Foundation.UniqueRows

inductive PolicyCall where
  | insertPrefix (prefixKey reason : Bytes)
  | insertAllowlistPrefix (prefixKey reason : Bytes)
  | removeAllowlistPrefix (prefixKey : Bytes)

/-- How a call ends; an abort takes the service down. -/
inductive CallOutcome where
  | done
  | failed (error : AccessPolicyError)
  | aborted (message : Bytes)
  deriving DecidableEq

/-- `insert … on conflict (prefix_key) do nothing`, against a database that fails only by the constraints. -/
def insertPolicyRow (rows : List PolicyRow) (prefixKey tree reason : Bytes) : Except PgError (List PolicyRow) :=
  match insertRow PolicyRow.prefixKey PolicyRow.prefixTree rows ⟨prefixKey, tree, reason⟩ with
  | none => .error ⟨ascii "duplicate key value violates unique constraint on prefix_tree"⟩
  | some rows => .ok rows

namespace PolicyTables
variable (tables : PolicyTables)

def insertPrefix (prefixKey reason : Bytes) : PolicyTables × CallOutcome :=
  match insertPolicyRow tables.denylist prefixKey (makePrefixTree prefixKey) reason with
  | .error _ => (tables, .aborted (ascii "denylist insert failed"))
  | .ok rows => ({ tables with denylist := rows }, .done)

def insertAllowlistPrefix (prefixKey reason : Bytes) : PolicyTables × CallOutcome :=
  match insertPolicyRow tables.allowlist prefixKey (makePrefixTree prefixKey) reason with
  | .error _ => (tables, .failed .dbError)
  | .ok rows => ({ tables with allowlist := rows }, .done)

def removeAllowlistPrefix (prefixKey : Bytes) : PolicyTables × CallOutcome :=
  ({ tables with allowlist := deleteKey PolicyRow.prefixKey tables.allowlist prefixKey }, .done)

def call : PolicyCall → PolicyTables × CallOutcome
  | .insertPrefix prefixKey reason => tables.insertPrefix prefixKey reason
  | .insertAllowlistPrefix prefixKey reason => tables.insertAllowlistPrefix prefixKey reason
  | .removeAllowlistPrefix prefixKey => tables.removeAllowlistPrefix prefixKey

end PolicyTables

/-- The tables after a sequence of calls. -/
def tablesAfter (calls : List PolicyCall) : PolicyTables :=
  calls.foldl (fun tables call => (tables.call call).1) ⟨[], []⟩

/-- The key was inserted into the denylist. -/
def Denylisted (calls : List PolicyCall) (key : Bytes) : Prop := ∃ reason, .insertPrefix key reason ∈ calls

/-- Whether a call inserts the key into the allowlist or removes it. -/
def allowlistOperation (key : Bytes) : PolicyCall → Option Bool
  | .insertPrefix _ _ => none
  | .insertAllowlistPrefix prefixKey _ => if prefixKey = key then some true else none
  | .removeAllowlistPrefix prefixKey => if prefixKey = key then some false else none

/-- The last allowlist operation on the key was an insertion. -/
def LastAllowlisted (calls : List PolicyCall) (key : Bytes) : Prop :=
  (calls.filterMap (allowlistOperation key)).getLast? = some true

/-- Every call of the sequence succeeds, and after each the tables say what was asked for. -/
structure StaysInsertable (calls : List PolicyCall) : Prop where
  succeeds : ∀ past call rest, calls = past ++ call :: rest → ((tablesAfter past).call call).2 = .done
  denylist : ∀ past, past <+: calls → ∀ key,
    HasKey PolicyRow.prefixKey (tablesAfter past).denylist key ↔ Denylisted past key
  allowlist : ∀ past, past <+: calls → ∀ key,
    HasKey PolicyRow.prefixKey (tablesAfter past).allowlist key ↔ LastAllowlisted past key
  trees : ∀ past, past <+: calls → ∀ row ∈ (tablesAfter past).denylist ++ (tablesAfter past).allowlist,
    row.prefixTree = makePrefixTree row.prefixKey

/-- The key that a call inserts shares its tree with no other key that is listed then. -/
def TreeIsFree (past : List PolicyCall) : PolicyCall → Prop
  | .insertPrefix key _ => ∀ other, Denylisted past other → makePrefixTree other = makePrefixTree key → other = key
  | .insertAllowlistPrefix key _ =>
    ∀ other, LastAllowlisted past other → makePrefixTree other = makePrefixTree key → other = key
  | .removeAllowlistPrefix _ => True

/-- The row of a key is put into a table. -/
abbrev insertKey (rows : List PolicyRow) (key reason : Bytes) : Option (List PolicyRow) :=
  insertRow PolicyRow.prefixKey PolicyRow.prefixTree rows ⟨key, makePrefixTree key, reason⟩

/-- What a call does to the tables. -/
inductive CallEffect (tables : PolicyTables) : PolicyCall → PolicyTables × CallOutcome → Prop where
  | denyRefused {key reason : Bytes} : insertKey tables.denylist key reason = none →
      CallEffect tables (.insertPrefix key reason) (tables, .aborted (ascii "denylist insert failed"))
  | denied {key reason : Bytes} {rows : List PolicyRow} : insertKey tables.denylist key reason = some rows →
      CallEffect tables (.insertPrefix key reason) ({ tables with denylist := rows }, .done)
  | allowRefused {key reason : Bytes} : insertKey tables.allowlist key reason = none →
      CallEffect tables (.insertAllowlistPrefix key reason) (tables, .failed .dbError)
  | allowed {key reason : Bytes} {rows : List PolicyRow} : insertKey tables.allowlist key reason = some rows →
      CallEffect tables (.insertAllowlistPrefix key reason) ({ tables with allowlist := rows }, .done)
  | removed {key : Bytes} : CallEffect tables (.removeAllowlistPrefix key)
      ({ tables with allowlist := deleteKey PolicyRow.prefixKey tables.allowlist key }, .done)

theorem call_effect (tables : PolicyTables) (call : PolicyCall) : CallEffect tables call (tables.call call) := by
  cases call with
  | insertPrefix key reason =>
    simp only [PolicyTables.call, PolicyTables.insertPrefix, insertPolicyRow]
    cases hrows :
        insertRow PolicyRow.prefixKey PolicyRow.prefixTree tables.denylist ⟨key, makePrefixTree key, reason⟩ with
    | none => exact .denyRefused hrows
    | some rows => exact .denied hrows
  | insertAllowlistPrefix key reason =>
    simp only [PolicyTables.call, PolicyTables.insertAllowlistPrefix, insertPolicyRow]
    cases hrows :
        insertRow PolicyRow.prefixKey PolicyRow.prefixTree tables.allowlist ⟨key, makePrefixTree key, reason⟩ with
    | none => exact .allowRefused hrows
    | some rows => exact .allowed hrows
  | removeAllowlistPrefix key => exact .removed

/-- What the constraints keep of a table, whatever is called. -/
structure RowsKept (rows : List PolicyRow) : Prop where
  trees : ∀ row ∈ rows, row.prefixTree = makePrefixTree row.prefixKey
  unique : TagsUnique PolicyRow.prefixKey PolicyRow.prefixTree rows

theorem RowsKept.insert {rows rows' : List PolicyRow} {key reason : Bytes} (h : RowsKept rows)
    (hrows : insertKey rows key reason = some rows') : RowsKept rows' := by
  refine ⟨?_, h.unique.insertRow hrows⟩
  intro row hrow
  rcases mem_of_insertRow hrows hrow with hrow | rfl
  · exact h.trees row hrow
  · rfl

theorem RowsKept.delete {rows : List PolicyRow} (h : RowsKept rows) (key : Bytes) :
    RowsKept (deleteKey PolicyRow.prefixKey rows key) :=
  ⟨fun row hrow => h.trees row (List.mem_of_mem_filter hrow), h.unique.deleteKey key⟩

/-- A key can be inserted exactly if no other listed key has its tree. -/
theorem RowsKept.insertKey_isSome_iff {rows : List PolicyRow} (h : RowsKept rows) {Listed : Bytes → Prop}
    (hlisted : ∀ other, HasKey PolicyRow.prefixKey rows other ↔ Listed other) (key reason : Bytes) :
    (insertKey rows key reason).isSome ↔
      ∀ other, Listed other → makePrefixTree other = makePrefixTree key → other = key := by
  have hinsert : (insertKey rows key reason).isSome ↔
      ∀ other, HasKey PolicyRow.prefixKey rows other → makePrefixTree other = makePrefixTree key → other = key :=
    insertRow_isSome_iff h.unique h.trees rfl
  rw [hinsert]
  exact forall_congr' fun other => imp_congr_left (hlisted other)

section Calls
variable {past calls : List PolicyCall} {call : PolicyCall} {key : Bytes}

theorem tablesAfter_append (past : List PolicyCall) (call : PolicyCall) :
    tablesAfter (past ++ [call]) = ((tablesAfter past).call call).1 := by
  rw [tablesAfter, List.foldl_append]
  rfl

theorem tablesAfter_kept (past : List PolicyCall) :
    RowsKept (tablesAfter past).denylist ∧ RowsKept (tablesAfter past).allowlist := by
  induction past using List.reverseRecOn with
  | nil => exact ⟨⟨nofun, nofun⟩, ⟨nofun, nofun⟩⟩
  | append_singleton past call ih =>
    obtain ⟨hdeny, hallow⟩ := ih
    have heffect := call_effect (tablesAfter past) call
    rw [tablesAfter_append]
    generalize (tablesAfter past).call call = result at heffect ⊢
    cases heffect with
    | denyRefused _ => exact ⟨hdeny, hallow⟩
    | denied hrows => exact ⟨hdeny.insert hrows, hallow⟩
    | allowRefused _ => exact ⟨hdeny, hallow⟩
    | allowed hrows => exact ⟨hdeny, hallow.insert hrows⟩
    | removed => exact ⟨hdeny, hallow.delete _⟩

theorem lastAllowlisted_append : LastAllowlisted (past ++ [call]) key ↔
    match allowlistOperation key call with
    | none => LastAllowlisted past key
    | some inserted => inserted = true := by
  rw [LastAllowlisted, List.filterMap_append]
  cases hcall : allowlistOperation key call with
  | none => rw [List.filterMap_cons_none hcall, List.filterMap_nil, List.append_nil, LastAllowlisted]
  | some inserted =>
    rw [List.filterMap_cons_some hcall, List.filterMap_nil, List.getLast?_concat, Option.some.injEq]

theorem denylisted_append : Denylisted (past ++ [call]) key ↔
    Denylisted past key ∨ ∃ reason, call = .insertPrefix key reason := by
  simp only [Denylisted, List.mem_append, List.mem_singleton, exists_or, eq_comm]

/-- The tables list exactly the keys that were asked for. -/
structure TablesFollow (past : List PolicyCall) : Prop where
  denylist : ∀ key, HasKey PolicyRow.prefixKey (tablesAfter past).denylist key ↔ Denylisted past key
  allowlist : ∀ key, HasKey PolicyRow.prefixKey (tablesAfter past).allowlist key ↔ LastAllowlisted past key

theorem TablesFollow.nil : TablesFollow [] where
  denylist _ := ⟨nofun, nofun⟩
  allowlist _ := ⟨nofun, nofun⟩

/-- A call succeeds exactly if the tree it inserts is free. -/
theorem TablesFollow.done_iff (h : TablesFollow past) :
    ((tablesAfter past).call call).2 = .done ↔ TreeIsFree past call := by
  obtain ⟨hdeny, hallow⟩ := tablesAfter_kept past
  have hdenyFree : ∀ key reason, (insertKey (tablesAfter past).denylist key reason).isSome ↔
      TreeIsFree past (.insertPrefix key reason) := hdeny.insertKey_isSome_iff h.denylist
  have hallowFree : ∀ key reason, (insertKey (tablesAfter past).allowlist key reason).isSome ↔
      TreeIsFree past (.insertAllowlistPrefix key reason) := hallow.insertKey_isSome_iff h.allowlist
  have heffect := call_effect (tablesAfter past) call
  generalize (tablesAfter past).call call = result at heffect ⊢
  cases heffect with
  | @denyRefused key reason hrows =>
    rw [← hdenyFree, hrows]
    exact iff_of_false nofun nofun
  | @denied key reason rows hrows =>
    rw [← hdenyFree, hrows]
    exact iff_of_true rfl rfl
  | @allowRefused key reason hrows =>
    rw [← hallowFree, hrows]
    exact iff_of_false nofun nofun
  | @allowed key reason rows hrows =>
    rw [← hallowFree, hrows]
    exact iff_of_true rfl rfl
  | removed => exact iff_of_true rfl trivial

/-- After a call that succeeds, the tables still follow. -/
theorem TablesFollow.append (h : TablesFollow past) (hdone : ((tablesAfter past).call call).2 = .done) :
    TablesFollow (past ++ [call]) := by
  obtain ⟨hdeny, hallow⟩ := h
  have heffect := call_effect (tablesAfter past) call
  constructor
  · intro key
    rw [tablesAfter_append, denylisted_append, ← hdeny key]
    generalize (tablesAfter past).call call = result at heffect hdone ⊢
    cases heffect with
    | denyRefused _ => cases hdone
    | @denied inserted reason rows hrows =>
      rw [hasKey_insertRow hrows]
      simp only [PolicyCall.insertPrefix.injEq, exists_and_left, exists_eq', and_true]
    | allowRefused _ => cases hdone
    | allowed _ => simp only [reduceCtorEq, exists_false, or_false]
    | removed => simp only [reduceCtorEq, exists_false, or_false]
  · intro key
    rw [tablesAfter_append, lastAllowlisted_append, ← hallow key]
    generalize (tablesAfter past).call call = result at heffect hdone ⊢
    cases heffect with
    | denyRefused _ => cases hdone
    | denied _ => exact Iff.rfl
    | allowRefused _ => cases hdone
    | @allowed inserted reason rows hrows =>
      rw [hasKey_insertRow hrows, allowlistOperation]
      by_cases hkey : inserted = key
      · rw [if_pos hkey]
        exact iff_of_true (.inr hkey) rfl
      · rw [if_neg hkey]
        exact or_iff_left hkey
    | @removed gone =>
      rw [hasKey_deleteKey, allowlistOperation]
      by_cases hkey : gone = key
      · rw [if_pos hkey]
        exact iff_of_false (fun hhas => hhas.2 hkey.symm) Bool.false_ne_true
      · rw [if_neg hkey]
        exact and_iff_left fun heq => hkey heq.symm

theorem tables_follow (hfree : ∀ past call rest, calls = past ++ call :: rest → TreeIsFree past call)
    (hpast : past <+: calls) : TablesFollow past := by
  induction past using List.reverseRecOn with
  | nil => exact .nil
  | append_singleton past call ih =>
    have hfollow := ih ((List.prefix_append past [call]).trans hpast)
    obtain ⟨rest, rfl⟩ := hpast
    have hcall := hfree past call rest (List.append_assoc past [call] rest)
    exact hfollow.append (hfollow.done_iff.mpr hcall)

/-- For every sequence of calls, all of them succeed and the tables follow them exactly if no key is inserted while
another key with the same tree is listed. -/
theorem policy_tables_iff (calls : List PolicyCall) :
    StaysInsertable calls ↔ ∀ past call rest, calls = past ++ call :: rest → TreeIsFree past call := by
  constructor
  · intro h past call rest hcalls
    have hpast : past <+: calls := hcalls ▸ List.prefix_append past (call :: rest)
    have hfollow : TablesFollow past := ⟨h.denylist past hpast, h.allowlist past hpast⟩
    exact hfollow.done_iff.mp (h.succeeds past call rest hcalls)
  · intro hfree
    refine ⟨?_, ?_, ?_, ?_⟩
    · intro past call rest hcalls
      have hpast : past <+: calls := hcalls ▸ List.prefix_append past (call :: rest)
      exact (tables_follow hfree hpast).done_iff.mpr (hfree past call rest hcalls)
    · intro past hpast
      exact (tables_follow hfree hpast).denylist
    · intro past hpast
      exact (tables_follow hfree hpast).allowlist
    · intro past _ row hrow
      obtain ⟨hdeny, hallow⟩ := tablesAfter_kept past
      exact (List.mem_append.mp hrow).elim (hdeny.trees row) (hallow.trees row)

end Calls

theorem slashTail_ascii : IsAscii (ascii "/t") := .ofList rfl

theorem joinedTail_ascii : IsAscii (ascii "t") := .ofList rfl

/-- The keys of `/sss…s/t` and `/sss…st` have one tree: denying both takes the service down, and allowing both fails. -/
theorem second_key_refused :
    makePrefixKey asciiUna (fullLabelLink (ascii "/t") slashTail_ascii) = some (fullLabelKey (ascii "/t")) ∧
    makePrefixKey asciiUna (fullLabelLink (ascii "t") joinedTail_ascii) = some (fullLabelKey (ascii "t")) ∧
    ((tablesAfter [.insertPrefix (fullLabelKey (ascii "/t")) []]).call
      (.insertPrefix (fullLabelKey (ascii "t")) [])).2 = .aborted (ascii "denylist insert failed") ∧
    ((tablesAfter [.insertAllowlistPrefix (fullLabelKey (ascii "/t")) []]).call
      (.insertAllowlistPrefix (fullLabelKey (ascii "t")) [])).2 = .failed .dbError ∧
    ¬ StaysInsertable [.insertPrefix (fullLabelKey (ascii "/t")) [], .insertPrefix (fullLabelKey (ascii "t")) []] := by
  have hrefused : ((tablesAfter [.insertPrefix (fullLabelKey (ascii "/t")) []]).call
      (.insertPrefix (fullLabelKey (ascii "t")) [])).2 = .aborted (ascii "denylist insert failed") := by
    decide +kernel
  refine ⟨?_, ?_, hrefused, by decide +kernel, ?_⟩
  · rw [makePrefixKey_eq]
    rfl
  · rw [makePrefixKey_eq]
    rfl
  · intro h
    have hdone := h.succeeds [.insertPrefix (fullLabelKey (ascii "/t")) []] _ [] rfl
    rw [hrefused] at hdone
    cases hdone

end Webshot.Access
