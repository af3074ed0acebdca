import Statefeed.Store.Head

set_option autoImplicit false

namespace Statefeed.Store

variable {store : Store}

theorem isTracked_iff {hash : B256} :
    store.isTracked hash = true ↔
      ∃ entry, store.candidates.get hash = some entry ∧ entry.tracked = true := by
  unfold isTracked
  cases store.candidates.get hash <;> simp

theorem isTracked_removeOne (hash other : B256) (terminal : Bool) (store : Store) :
    (store.removeOne hash terminal).2.isTracked other =
      if other = hash then false else store.isTracked other := by
  unfold isTracked
  rw [candidates_removeOne, Table.get_erase]
  by_cases same : other = hash
  · simp [same]
  · simp [same]

theorem isTracked_evictProjection (hash other : B256) (store : Store) :
    (store.evictProjection hash).isTracked other =
      if other = hash then false else store.isTracked other := by
  unfold isTracked evictProjection
  dsimp only
  rw [Table.get_modify]
  by_cases same : other = hash
  · rw [if_pos same, if_pos same]
    cases store.candidates.get hash <;> rfl
  · rw [if_neg same, if_neg same]

theorem isTracked_modify (store : Store) {after : Store} {hash : B256}
    {update : CandidateEntry → CandidateEntry}
    (modified : after.candidates = store.candidates.modify hash update)
    (kept : ∀ entry, (update entry).tracked = entry.tracked) (other : B256) :
    after.isTracked other = store.isTracked other := by
  unfold isTracked
  rw [modified, Table.get_modify]
  by_cases same : other = hash
  · rw [if_pos same, same]
    cases store.candidates.get hash with
    | none => rfl
    | some entry => exact kept entry
  · rw [if_neg same]

theorem isTracked_scheduleExpiry (now : Instant) (hash : B256) (store : Store) (other : B256) :
    (store.scheduleExpiry now hash).isTracked other = store.isTracked other := by
  unfold scheduleExpiry
  split
  · rfl
  · split
    · exact isTracked_modify store rfl (fun _ => by rfl) other
    · rfl

theorem isTracked_placeCandidate (now : Instant) (projection : Projection) (stage : CandidateStage)
    (firstSequence : Nat) (store : Store) (other : B256) :
    (store.placeCandidate now projection stage true firstSequence).isTracked other =
      if other = projection.block.hash then true else store.isTracked other := by
  unfold isTracked
  rw [candidates_placeCandidate, Table.get_insert]
  by_cases same : other = projection.block.hash
  · rw [if_pos same, if_pos same]
    exact placedEntry_tracked _ _ _ _ _
  · rw [if_neg same, if_neg same]

theorem isTracked_resetCandidates (now : Instant) (projection : Projection)
    (view : ForkchoiceMeta) (store : Store) {hash : B256} :
    (store.resetCandidates now projection view).isTracked hash = true ↔
      hash = projection.block.hash := by
  unfold isTracked resetCandidates
  by_cases same : hash = projection.block.hash
  · simp [same]
  · simp [same]

theorem isTracked_newConfigured (now : Instant) (initial : Projection) (view : ForkchoiceMeta)
    (policy : CandidatePolicy) {hash : B256} :
    (newConfigured now initial view policy).isTracked hash = true ↔ hash = initial.block.hash := by
  unfold isTracked newConfigured
  by_cases same : hash = initial.block.hash
  · simp [same]
  · simp [same]

structure Sheds (before : Store) (retired : List B256) (after : Store) : Prop where
  split : ∀ hash, before.isTracked hash = true ↔ after.isTracked hash = true ∨ hash ∈ retired
  gone : ∀ hash ∈ retired, after.isTracked hash = false
  nodup : retired.Nodup

section

variable {before after : Store} {retired : List B256}

theorem Sheds.refl (store : Store) : Sheds store [] store where
  split hash := by simp
  gone hash member := absurd member List.not_mem_nil
  nodup := List.nodup_nil

theorem Sheds.keep (sheds : Sheds before retired store)
    (same : ∀ hash, after.isTracked hash = store.isTracked hash) : Sheds before retired after where
  split hash := by rw [same]; exact sheds.split hash
  gone hash member := (same hash).trans (sheds.gone hash member)
  nodup := sheds.nodup

theorem Sheds.drop {hash : B256} (sheds : Sheds before retired store)
    (dropped : ∀ other, after.isTracked other =
      if other = hash then false else store.isTracked other) :
    Sheds before (retired ++ if store.isTracked hash then [hash] else []) after := by
  by_cases tracked : store.isTracked hash = true
  · rw [if_pos tracked]
    have fresh : hash ∉ retired := by
      intro member
      rw [sheds.gone hash member] at tracked
      cases tracked
    constructor
    · intro other
      rw [sheds.split, dropped, List.mem_append, List.mem_singleton]
      by_cases same : other = hash
      · simp [same, tracked]
      · simp [same]
    · intro other member
      rw [dropped]
      rcases List.mem_append.mp member with old | new
      · split
        · rfl
        · exact sheds.gone other old
      · rw [if_pos (List.mem_singleton.mp new)]
    · apply sheds.nodup.append (List.nodup_singleton hash)
      rw [List.disjoint_singleton]
      exact fresh
  · rw [if_neg tracked, List.append_nil]
    apply sheds.keep
    intro other
    rw [dropped]
    by_cases same : other = hash
    · rw [if_pos same, same]
      exact (Bool.eq_false_iff.mpr tracked).symm
    · rw [if_neg same]

theorem Sheds.removeOne (sheds : Sheds before retired store) (hash : B256) (terminal : Bool) :
    Sheds before (retired ++ if store.isTracked hash then [hash] else [])
      (store.removeOne hash terminal).2 :=
  sheds.drop fun other => isTracked_removeOne hash other terminal store

theorem sheds_trimProjectionCache {inserted : B256} {evicted : List B256}
    (trimmed : trimProjectionCache inserted store = (.ok evicted, after)) :
    Sheds store evicted after := by
  have rule := trimProjectionLoop_rule (motive := fun retired s => Sheds store retired s) inserted
    (fun _ _ _ _ _ _ _ sheds => sheds.keep fun _ => rfl)
    (fun retired s incarnation hash rest _ _ _ sheds => ?_) (store.projectionOrder.length * 2 + 3) 0
    [] store (.refl store)
  · have returned := rule.of_ok (congrArg Prod.fst trimmed)
    rw [show (trimProjectionLoop inserted _ 0 [] store).2 = after from
      congrArg Prod.snd trimmed] at returned
    exact returned.1
  · have popped : Sheds store retired (s.setProjectionOrder rest) := sheds.keep fun _ => rfl
    unfold rotateOrEvict
    split
    · rw [List.append_nil]
      exact popped.keep fun _ => rfl
    · exact popped.drop fun other => isTracked_evictProjection hash other _

theorem sheds_trimMetadata {removed : List B256}
    (trimmed : trimMetadata store = (.ok removed, after)) : Sheds store removed after := by
  have rule := trimMetadataLoop_rule (motive := fun retired s => Sheds store retired s)
    (fun _ _ _ _ _ _ _ sheds => sheds.keep fun _ => rfl)
    (fun retired s incarnation hash rest _ _ _ sheds => ?_) (store.metadataOrder.length * 2 + 2) []
    store (.refl store)
  · have returned := rule.of_ok (congrArg Prod.fst trimmed)
    rw [show (trimMetadataLoop _ [] store).2 = after from congrArg Prod.snd trimmed] at returned
    exact returned.1
  · have popped : Sheds store retired (s.setMetadataOrder rest) := sheds.keep fun _ => rfl
    unfold rotateOrRemove
    split
    · rw [List.append_nil]
      exact popped.keep fun _ => rfl
    · exact popped.removeOne hash false

theorem sheds_processFinalityBudget (budget : Nat) (store : Store) :
    Sheds store (store.processFinalityBudget budget).1.2 (store.processFinalityBudget budget).2 := by
  unfold processFinalityBudget
  cases store.finalitySweep with
  | none => exact .refl store
  | some sweep =>
    have started : Sheds store [] (store.setSweep none) := (Sheds.refl store).keep fun _ => rfl
    have swept := sweepLoop_rule (motive := fun retired _ s => Sheds store retired s)
      (fun retired _ s _ conflicting s' step sheds => ?_) budget 0 [] sweep (store.setSweep none)
      started
    · dsimp only
      split
      · exact swept
      · exact swept.keep fun _ => rfl
    · cases sweepStep_cases step with
      | dropped => rwa [List.append_nil]
      | moved => rwa [List.append_nil]
      | kept => rwa [List.append_nil]
      | removed walk => exact sheds.removeOne walk.root true

theorem sheds_removeEach (hashes : List B256) (store : Store) :
    Sheds store (store.removeEach hashes []).1 (store.removeEach hashes []).2 :=
  removeEach_rule (motive := fun retired s => Sheds store retired s)
    (fun hash _ _ _ sheds => sheds.removeOne hash false) [] store (.refl store)

end

theorem WellFormed.parentHash_of_mem {chain : B256 → BlockMeta} {loose : B256 → Prop}
    {parent child : B256} (formed : WellFormed chain loose store)
    (member : child ∈ store.treeChildren parent) : (chain child).parentHash = parent := by
  obtain ⟨live, stored, above⟩ := formed.tree.live_of_mem member
  rw [← above, (formed.known child live stored).1]

theorem isTracked_removeCandidateTree {root : B256} (terminal : Bool)
    (foreign : root ≠ store.canonicalHash) (hash : B256) :
    (store.removeCandidateTree root terminal).isTracked hash = true ↔
      store.isTracked hash = true ∧ ¬ store.Descends root hash := by
  rw [removeCandidateTree_eq_prune terminal foreign]
  unfold isTracked
  by_cases below : store.Descends root hash
  · rw [Forest.get_prune_of_below (removes_removeNode terminal) (treeWeight_removeNode_le terminal)
      (Nat.add_comm _ _).le below]
    simp [below]
  · rw [Forest.get_prune_of_not_below (removes_removeNode terminal)
      (treeWeight_removeNode_le terminal) (Nat.add_comm _ _).le below]
    simp [below]

def trackedKeys (store : Store) : List B256 := store.candidates.keysWhere (·.tracked)

theorem mem_trackedKeys {hash : B256} : hash ∈ store.trackedKeys ↔ store.isTracked hash = true :=
  Table.mem_keysWhere _ _ _

theorem WellFormed.length_trackedKeys {chain : B256 → BlockMeta} {loose : B256 → Prop}
    (formed : WellFormed chain loose store) : store.trackedKeys.length = store.projectionCount := by
  unfold trackedKeys
  rw [formed.counted, Table.length_keysWhere]
  exact Table.count_congr _ fun hash entry stored => formed.tracked hash entry stored

end Statefeed.Store
