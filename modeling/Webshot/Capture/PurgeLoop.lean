import Webshot.Capture.RemoteStores

/-! `PurgePrefix`: batches of ids are selected from the table while their objects and rows are deleted
one by one, and every operation may fail. -/
namespace Webshot.Capture
open Text Storage Access

/-- The bucket and `purge_delete_batch_size`. -/
structure PurgeConfig where
  bucket : Bytes
  purgeDeleteBatchSize : Nat
  purgeDeleteBatchSize_pos : 0 < purgeDeleteBatchSize

/-- How the operations of one call go: the selections in their order, and the deletes of each batch. -/
structure PurgeAttempts where
  select : Nat → PgAttempt
  deleteObject : Nat → Uuid → S3Attempt
  deleteRow : Nat → Uuid → PgAttempt

namespace PurgeConfig
variable (cfg : PurgeConfig) (attempts : PurgeAttempts) (tree : Bytes)

def objectKey (id : Uuid) : Bytes := makeCaptureObjectKey cfg.bucket id

/-- The loop over a batch: the object first, then the row. -/
def purgeBatch (batch : Nat) : List Uuid → Stores → Stores × Reply
  | [], s => (s, .ok)
  | id :: ids, s =>
    let objectDeleted := s.deleteCaptureObject (attempts.deleteObject batch id) (cfg.objectKey id)
    match objectDeleted.2 with
    | .ok =>
      let rowDeleted := objectDeleted.1.deleteCapturesByIds (attempts.deleteRow batch id) [id]
      match rowDeleted.2 with
      | .ok => purgeBatch batch ids rowDeleted.1
      | reply => (rowDeleted.1, reply)
    | reply => (objectDeleted.1, reply)

/-- The loop over the batches, cut off after as many of them as there is fuel for. -/
def purgeLoop : Nat → Nat → Stores → Option (Stores × Reply)
  | 0, _, _ => none
  | fuel + 1, batch, s =>
    match (attempts.select batch).catchPg with
    | .ok =>
      match getCaptureIdsByPrefixTree s.captures tree cfg.purgeDeleteBatchSize with
      | [] => some (s, .ok)
      | id :: ids =>
        let purged := cfg.purgeBatch attempts batch (id :: ids) s
        match purged.2 with
        | .ok => purgeLoop fuel (batch + 1) purged.1
        | reply => some (purged.1, reply)
    | reply => some (s, reply)

def purgePrefix (prefixKey : Bytes) (fuel : Nat) (s : Stores) : Option (Stores × Reply) :=
  cfg.purgeLoop attempts (makePrefixTree prefixKey) fuel 0 s

/-- The stores without the captures of a tree and without their objects. -/
def purged (s : Stores) : Stores where
  captures := s.captures.filter fun r => !ltreeAncestor tree r.prefixTree
  ids_nodup := s.ids_nodup.sublist (List.filter_sublist.map _)
  objects key := if ∃ r ∈ s.captures, ltreeAncestor tree r.prefixTree = true ∧ cfg.objectKey r.id = key then none
    else s.objects key

/-- How far a purge may have come: some captures of the tree are gone, and nothing else; the object
of every row that is gone is gone as well. -/
structure Partly (s t : Stores) : Prop where
  rows : t.captures.Sublist s.captures
  outside_rows : ∀ r ∈ s.captures, ¬ ltreeAncestor tree r.prefixTree = true → r ∈ t.captures
  outside_objects : ∀ key, (∀ r ∈ s.captures, ltreeAncestor tree r.prefixTree = true → cfg.objectKey r.id ≠ key) →
    t.objects key = s.objects key
  objects : ∀ key, t.objects key = none ∨ t.objects key = s.objects key
  gone : ∀ r ∈ s.captures, r ∉ t.captures → t.objects (cfg.objectKey r.id) = none

variable {cfg attempts tree} {s t u : Stores}

namespace Partly

theorem refl (s : Stores) : cfg.Partly tree s s where
  rows := List.Sublist.refl _
  outside_rows _ hr _ := hr
  outside_objects _ _ := rfl
  objects _ := Or.inr rfl
  gone _ hr hgone := absurd hr hgone

theorem trans (h : cfg.Partly tree s t) (h' : cfg.Partly tree t u) : cfg.Partly tree s u where
  rows := h'.rows.trans h.rows
  outside_rows r hr htree := h'.outside_rows r (h.outside_rows r hr htree) htree
  outside_objects key hkey := by
    rw [h'.outside_objects key fun r hr => hkey r (h.rows.subset hr), h.outside_objects key hkey]
  objects key := by
    rcases h'.objects key with hu | hu
    · exact Or.inl hu
    · rw [hu]
      exact h.objects key
  gone r hr hgone := by
    by_cases hrt : r ∈ t.captures
    · exact h'.gone r hrt hgone
    · rcases h'.objects (cfg.objectKey r.id) with hu | hu
      · exact hu
      · rw [hu]
        exact h.gone r hr hrt

/-- Deleting the object of a capture of the tree. -/
theorem deleteObject (h : cfg.Partly tree s t) {r : CaptureRow} (hr : r ∈ s.captures)
    (htree : ltreeAncestor tree r.prefixTree = true) : cfg.Partly tree s (t.setObject (cfg.objectKey r.id) none) where
  rows := h.rows
  outside_rows := h.outside_rows
  outside_objects key hkey := by
    have hne : key ≠ cfg.objectKey r.id := fun he => hkey r hr htree he.symm
    rw [Stores.setObject_objects_of_ne _ _ _ hne, h.outside_objects key hkey]
  objects key := by
    by_cases he : key = cfg.objectKey r.id
    · subst he
      exact Or.inl (Stores.setObject_objects _ _ _)
    · rw [Stores.setObject_objects_of_ne _ _ _ he]
      exact h.objects key
  gone r' hr' hgone := by
    by_cases he : cfg.objectKey r'.id = cfg.objectKey r.id
    · rw [he]
      exact Stores.setObject_objects _ _ _
    · rw [Stores.setObject_objects_of_ne _ _ _ he]
      exact h.gone r' hr' hgone

/-- Deleting the row of a capture of the tree whose object is gone. -/
theorem deleteRow (h : cfg.Partly tree s t) {r : CaptureRow} (hr : r ∈ s.captures)
    (htree : ltreeAncestor tree r.prefixTree = true) (hobject : t.objects (cfg.objectKey r.id) = none) :
    cfg.Partly tree s (t.removeRows [r.id]) where
  rows := List.filter_sublist.trans h.rows
  outside_rows r' hr' htree' := by
    refine List.mem_filter.mpr ⟨h.outside_rows r' hr' htree', ?_⟩
    rw [decide_eq_true_iff, List.mem_singleton]
    intro he
    rw [Stores.eq_of_id s hr' hr he] at htree'
    exact htree' htree
  outside_objects := h.outside_objects
  objects := h.objects
  gone r' hr' hgone := by
    by_cases hrt : r' ∈ t.captures
    · have he : r'.id = r.id := by
        by_contra hne
        exact hgone (List.mem_filter.mpr ⟨hrt, by rw [decide_eq_true_iff, List.mem_singleton]; exact hne⟩)
      rw [he]
      exact hobject
    · exact h.gone r' hr' hrt

/-- A purge that has left no capture of the tree has reached its end. -/
theorem eq_purged (h : cfg.Partly tree s t) (hnone : ∀ r ∈ t.captures, ¬ ltreeAncestor tree r.prefixTree = true) :
    t = cfg.purged tree s := by
  have hcaptures : t.captures = s.captures.filter fun r => !ltreeAncestor tree r.prefixTree := by
    have hsub : t.captures.Sublist (s.captures.filter fun r => !ltreeAncestor tree r.prefixTree) := by
      have hall : t.captures.filter (fun r => !ltreeAncestor tree r.prefixTree) = t.captures := by
        rw [List.filter_eq_self]
        intro r hr
        rw [Bool.not_eq_true']
        exact Bool.eq_false_iff.mpr (hnone r hr)
      rw [← hall]
      exact h.rows.filter _
    apply hsub.eq_of_length_le
    apply List.Subperm.length_le
    apply List.subperm_of_subset ((List.Nodup.of_map _ s.ids_nodup).filter _)
    intro r hr
    obtain ⟨hr, hout⟩ := List.mem_filter.mp hr
    exact h.outside_rows r hr (by simpa using hout)
  apply Stores.ext hcaptures
  funext key
  simp only [purged]
  split
  · rename_i hkey
    obtain ⟨r, hr, htree, rfl⟩ := hkey
    exact h.gone r hr fun hrt => hnone r hrt htree
  · rename_i hkey
    exact h.outside_objects key fun r hr htree he => hkey ⟨r, hr, htree, he⟩

end Partly

/-- A batch of ids of the tree is worked off in order; once it is, none of its rows is left. -/
theorem purgeBatch_spec (attempts : PurgeAttempts) (batch : Nat) {ids : List Uuid}
    (hids : ∀ id ∈ ids, ∃ r ∈ s.captures, r.id = id ∧ ltreeAncestor tree r.prefixTree = true)
    (h : cfg.Partly tree s t) :
    cfg.Partly tree s (cfg.purgeBatch attempts batch ids t).1 ∧
      ((cfg.purgeBatch attempts batch ids t).2 = .ok →
        (cfg.purgeBatch attempts batch ids t).1.captures = t.captures.filter (·.id ∉ ids)) := by
  induction ids generalizing t with
  | nil => exact ⟨h, fun _ => by simp [purgeBatch]⟩
  | cons id ids ih =>
    obtain ⟨r, hr, rfl, htree⟩ := hids id List.mem_cons_self
    have hrest := fun id hid => hids id (List.mem_cons_of_mem _ hid)
    have hobject := h.deleteObject hr htree
    have hrow := hobject.deleteRow hr htree (Stores.setObject_objects _ _ _)
    rw [purgeBatch, Stores.deleteCaptureObject]
    cases hdelete : attempts.deleteObject batch r.id with
    | threw applied cancelRequested =>
      cases applied <;> cases cancelRequested <;>
        simp [S3Attempt.applied, S3Attempt.runS3Operation, h, hobject]
    | completed =>
      simp only [S3Attempt.applied, S3Attempt.runS3Operation, if_true, Stores.deleteCapturesByIds]
      cases attempts.deleteRow batch r.id with
      | pgError applied => cases applied <;> simp [PgAttempt.applied, PgAttempt.catchPg, hobject, hrow]
      | threw applied => cases applied <;> simp [PgAttempt.applied, PgAttempt.catchPg, hobject, hrow]
      | completed =>
        simp only [PgAttempt.applied, PgAttempt.catchPg, if_true]
        obtain ⟨hpartly, hdone⟩ := ih hrest hrow
        refine ⟨hpartly, fun hok => ?_⟩
        rw [hdone hok]
        simp only [Stores.removeRows, Stores.setObject, List.filter_filter]
        apply List.filter_congr
        intro x _
        simp [Bool.and_comm]

/-- The loop ends within as many batches as there are rows; when it succeeds no row of the tree is left. -/
theorem purgeLoop_spec (attempts : PurgeAttempts) {fuel : Nat} (batch : Nat) (h : cfg.Partly tree s t)
    (hfuel : t.captures.length < fuel) :
    ∃ u reply, cfg.purgeLoop attempts tree fuel batch t = some (u, reply) ∧ cfg.Partly tree s u ∧
      (reply = .ok → ∀ r ∈ u.captures, ¬ ltreeAncestor tree r.prefixTree = true) := by
  induction fuel generalizing t batch with
  | zero => exact absurd hfuel (Nat.not_lt_zero _)
  | succ fuel ih =>
    rw [purgeLoop]
    cases hselect : attempts.select batch with
    | pgError _ => exact ⟨t, .error, rfl, h, nofun⟩
    | threw _ => exact ⟨t, .exception, rfl, h, nofun⟩
    | completed =>
      simp only [PgAttempt.catchPg]
      cases hids : getCaptureIdsByPrefixTree t.captures tree cfg.purgeDeleteBatchSize with
      | nil =>
        refine ⟨t, .ok, rfl, h, fun _ => ?_⟩
        exact (getCaptureIdsByPrefixTree_eq_nil_iff _ _ cfg.purgeDeleteBatchSize_pos).mp hids
      | cons id ids =>
        have hrows : ∀ i ∈ id :: ids, ∃ r ∈ t.captures, r.id = i ∧ ltreeAncestor tree r.prefixTree = true := by
          intro i hi
          rw [← hids] at hi
          exact mem_getCaptureIdsByPrefixTree hi
        have hrows' : ∀ i ∈ id :: ids, ∃ r ∈ s.captures, r.id = i ∧ ltreeAncestor tree r.prefixTree = true := by
          intro i hi
          obtain ⟨r, hr, hid⟩ := hrows i hi
          exact ⟨r, h.rows.subset hr, hid⟩
        obtain ⟨hpartly, hdone⟩ := purgeBatch_spec attempts batch hrows' h
        dsimp only
        generalize cfg.purgeBatch attempts batch (id :: ids) t = purged at hpartly hdone ⊢
        obtain ⟨u, reply⟩ := purged
        cases reply with
        | error => exact ⟨u, .error, rfl, hpartly, nofun⟩
        | exception => exact ⟨u, .exception, rfl, hpartly, nofun⟩
        | ok =>
          have hlen : u.captures.length < t.captures.length := by
            obtain ⟨r, hr, hid, _⟩ := hrows id List.mem_cons_self
            rw [hdone rfl]
            apply List.length_filter_lt_length_iff_exists.mpr
            exact ⟨r, hr, by simp [hid]⟩
          exact ih (batch + 1) hpartly (Nat.lt_of_lt_of_le hlen (Nat.lt_succ_iff.mp hfuel))

/-- Every operation of the call completes. -/
structure AllComplete (attempts : PurgeAttempts) : Prop where
  select : ∀ batch, attempts.select batch = .completed
  deleteObject : ∀ batch id, attempts.deleteObject batch id = .completed
  deleteRow : ∀ batch id, attempts.deleteRow batch id = .completed

theorem purgeBatch_ok (hall : AllComplete attempts) (batch : Nat) (ids : List Uuid) (s : Stores) :
    (cfg.purgeBatch attempts batch ids s).2 = .ok := by
  induction ids generalizing s with
  | nil => rfl
  | cons id ids ih =>
    simp only [purgeBatch, Stores.deleteCaptureObject, Stores.deleteCapturesByIds, hall.deleteObject, hall.deleteRow,
      S3Attempt.runS3Operation, PgAttempt.catchPg, ih]

theorem purgeLoop_ok (hall : AllComplete attempts) {fuel batch : Nat} {reply : Reply}
    (h : cfg.purgeLoop attempts tree fuel batch s = some (t, reply)) : reply = .ok := by
  induction fuel generalizing s batch with
  | zero => cases h
  | succ fuel ih =>
    rw [purgeLoop, hall.select] at h
    simp only [PgAttempt.catchPg] at h
    split at h
    · cases h
      rfl
    · rw [purgeBatch_ok hall] at h
      exact ih h

variable (cfg)

/-- Calls made one after another, however each of them ends. -/
def rerun (prefixKey : Bytes) (fuel : Nat) : List PurgeAttempts → Stores → Option Stores
  | [], s => some s
  | attempts :: rest, s => do rerun prefixKey fuel rest (← cfg.purgePrefix attempts prefixKey fuel s).1

variable {cfg}

theorem rerun_spec {prefixKey : Bytes} {fuel : Nat} (earlier : List PurgeAttempts)
    (h : cfg.Partly (makePrefixTree prefixKey) s t) (hfuel : t.captures.length < fuel) :
    ∃ u, cfg.rerun prefixKey fuel earlier t = some u ∧ cfg.Partly (makePrefixTree prefixKey) s u ∧
      u.captures.length < fuel := by
  induction earlier generalizing t with
  | nil => exact ⟨t, rfl, h, hfuel⟩
  | cons attempts rest ih =>
    obtain ⟨u, reply, hrun, hpartly, _⟩ := purgeLoop_spec attempts 0 (Partly.refl t) hfuel
    obtain ⟨v, hrest, hv⟩ := ih (h.trans hpartly) (Nat.lt_of_le_of_lt hpartly.rows.length_le hfuel)
    refine ⟨v, ?_, hv⟩
    rw [rerun, purgePrefix, hrun]
    exact hrest

/-- A purge ends within one batch more than there are rows, also after earlier calls that ended
anyhow. It succeeds if all its operations do. When it succeeds, exactly the captures of the prefix
and their objects are gone; however it ends, nothing outside the prefix is touched and no row is
gone whose object is left. -/
theorem purge_prefix_exact (cfg : PurgeConfig) (prefixKey : Bytes) (s : Stores) (earlier : List PurgeAttempts)
    (attempts : PurgeAttempts) (fuel : Nat) (hfuel : s.captures.length < fuel) :
    ∃ t u reply, cfg.rerun prefixKey fuel earlier s = some t ∧
      cfg.purgePrefix attempts prefixKey fuel t = some (u, reply) ∧
      (AllComplete attempts → reply = .ok) ∧ (reply = .ok → u = cfg.purged (makePrefixTree prefixKey) s) ∧
      cfg.Partly (makePrefixTree prefixKey) s u := by
  obtain ⟨t, hrerun, ht, hlen⟩ := rerun_spec earlier (Partly.refl s) hfuel
  obtain ⟨u, reply, hrun, hu, hok⟩ := purgeLoop_spec attempts 0 ht hlen
  exact ⟨t, u, reply, hrerun, hrun, fun hall => purgeLoop_ok hall hrun, fun h => hu.eq_purged (hok h), hu⟩

/-- One capture of the site, and its object. -/
def sampleStores : Stores where
  captures := [sampleSetup.captureRow (smallUuid 1) 3]
  ids_nodup := List.nodup_singleton _
  objects := Function.update (fun _ => none) (sampleSetup.objectKey (smallUuid 1)) (some (ascii "wacz"))

/-- Every operation completes but the deletes of objects, which go as given. -/
def sampleAttempts (deleteObject : S3Attempt) : PurgeAttempts :=
  ⟨fun _ => .completed, fun _ _ => deleteObject, fun _ _ => .completed⟩

/-- The first call loses the object and fails; the second removes the row too. -/
theorem purge_prefix_small :
    sampleStores.captures.length < 2 ∧ ∃ t u,
      (PurgeConfig.mk (ascii "captures") 1 Nat.one_pos).rerun (ascii "b.a") 2 [sampleAttempts (.threw true false)]
        sampleStores = some t ∧
      (PurgeConfig.mk (ascii "captures") 1 Nat.one_pos).purgePrefix (sampleAttempts .completed) (ascii "b.a") 2 t =
        some (u, .ok) ∧
      u = (PurgeConfig.mk (ascii "captures") 1 Nat.one_pos).purged (makePrefixTree (ascii "b.a")) sampleStores := by
  have hfuel : sampleStores.captures.length < 2 := Nat.one_lt_two
  obtain ⟨t, u, reply, hrerun, hrun, hall, hpurged, _⟩ := purge_prefix_exact
    (PurgeConfig.mk (ascii "captures") 1 Nat.one_pos) (ascii "b.a") sampleStores [sampleAttempts (.threw true false)]
    (sampleAttempts .completed) 2 hfuel
  cases hall ⟨fun _ => rfl, fun _ _ => rfl, fun _ _ => rfl⟩
  exact ⟨hfuel, t, u, hrerun, hrun, hpurged rfl⟩

end PurgeConfig
end Webshot.Capture
