import Statefeed.Store.WellFormed

set_option autoImplicit false

namespace Statefeed.Store

variable {chain : B256 → BlockMeta} {loose : B256 → Prop} {store : Store}

theorem nextIncarnation_allocate (unwrapped : store.nextIncarnation + 1 < 2 ^ 64) :
    store.allocateIncarnation.2.nextIncarnation = store.nextIncarnation + 1 := by
  change max ((store.nextIncarnation + 1) % 2 ^ 64) 1 = _
  rw [Nat.mod_eq_of_lt unwrapped]
  omega

section

variable (now : Instant) (projection : Projection) (stage : CandidateStage) (firstSequence : Nat)

theorem record_placeCandidate (store : Store) (other : B256) :
    (store.placeCandidate now projection stage true firstSequence).record other =
      if other = projection.block.hash then
        some ⟨store.placedIncarnation projection.block.hash, projection.block, true⟩
      else store.record other := by
  unfold record
  rw [candidates_placeCandidate, deferredExecuted_placeCandidate, Table.get_insert,
    Table.get_erase]
  by_cases same : other = projection.block.hash
  · subst same
    simp [CandidateEntry.record, placedEntry_incarnation]
  · rw [if_neg same, if_neg same, if_neg same]

structure PlacedOver (before after : Store) (old : Record) (hash : B256) : Prop where
  metadata : after.metadataOrder = before.metadataOrder
  next : after.nextIncarnation = before.nextIncarnation
  children : after.childrenByParent = before.childrenByParent
  projections : after.projectionOrder =
    if old.projected then before.projectionOrder
    else before.projectionOrder ++ [(old.incarnation, hash)]
  count : after.projectionCount =
    if old.projected then before.projectionCount else before.projectionCount + 1

theorem placeCandidate_over {old : Record}
    (stored : store.record projection.block.hash = some old) :
    PlacedOver store (store.placeCandidate now projection stage true firstSequence) old
      projection.block.hash := by
  unfold record at stored
  unfold placeCandidate
  dsimp only
  cases cached : store.candidates.get projection.block.hash with
  | some entry =>
    rw [cached] at stored
    cases stored
    dsimp only [CandidateEntry.record]
    by_cases projected : entry.projection.isSome = true
    · rw [if_pos projected]
      constructor <;> simp [projected, setCandidate]
    · rw [if_neg projected]
      constructor <;> simp [projected, gainProjection, setCandidate]
  | none =>
    rw [cached] at stored
    cases deferred : store.deferredExecuted.get projection.block.hash with
    | none => rw [deferred] at stored; cases stored
    | some delta =>
      rw [deferred] at stored
      cases stored
      constructor <;> simp [DeferredExecuted.record, gainProjection, setCandidate]

structure PlacedAnew (before after : Store) (block : BlockMeta) : Prop where
  metadata : after.metadataOrder =
    before.metadataOrder ++ [(before.nextIncarnation, block.hash)]
  next : after.nextIncarnation = before.allocateIncarnation.2.nextIncarnation
  children : after.childrenByParent =
    (before.addChild block.parentHash block.hash).childrenByParent

theorem placeCandidate_anew (unknown : store.record projection.block.hash = none) :
    PlacedAnew store (store.placeCandidate now projection stage true firstSequence)
        projection.block ∧
      (store.placeCandidate now projection stage true firstSequence).projectionOrder =
        store.projectionOrder ++ [(store.nextIncarnation, projection.block.hash)] ∧
      (store.placeCandidate now projection stage true firstSequence).projectionCount =
        store.projectionCount + 1 := by
  unfold record at unknown
  cases cached : store.candidates.get projection.block.hash with
  | some entry => rw [cached] at unknown; cases unknown
  | none =>
    rw [cached] at unknown
    cases deferred : store.deferredExecuted.get projection.block.hash with
    | some delta => rw [deferred] at unknown; cases unknown
    | none =>
      unfold placeCandidate
      dsimp only
      rw [cached, deferred]
      exact ⟨⟨rfl, rfl, rfl⟩, rfl, rfl⟩

theorem tombs_placeCandidate (store : Store) :
    (store.placeCandidate now projection stage true firstSequence).tombstones =
        store.tombstones ∧
      (store.placeCandidate now projection stage true firstSequence).tombstoneOrder =
        store.tombstoneOrder := by
  unfold placeCandidate
  dsimp only
  split
  · split <;> exact ⟨rfl, rfl⟩
  · exact ⟨rfl, rfl⟩
  · exact ⟨rfl, rfl⟩

theorem placedIncarnation_of_some {hash : B256} {old : Record}
    (stored : store.record hash = some old) : store.placedIncarnation hash = old.incarnation := by
  rw [placedIncarnation, currentIncarnation_eq, stored]
  rfl

theorem placedIncarnation_of_none {hash : B256} (unknown : store.record hash = none) :
    store.placedIncarnation hash = store.nextIncarnation := by
  rw [placedIncarnation, currentIncarnation_eq, unknown]
  rfl

theorem queues_placeCandidate (unwrapped : store.nextIncarnation + 1 < 2 ^ 64)
    (queues : Queues store.record store.metadataOrder store.projectionOrder
      store.nextIncarnation) :
    Queues (store.placeCandidate now projection stage true firstSequence).record
      (store.placeCandidate now projection stage true firstSequence).metadataOrder
      (store.placeCandidate now projection stage true firstSequence).projectionOrder
      (store.placeCandidate now projection stage true firstSequence).nextIncarnation := by
  have records := record_placeCandidate now projection stage firstSequence store
  cases stored : store.record projection.block.hash with
  | some old =>
    have placed := placeCandidate_over now projection stage firstSequence stored
    rw [placedIncarnation_of_some stored] at records
    rw [placed.metadata, placed.next, placed.projections]
    by_cases projected : old.projected = true
    · rw [if_pos projected]
      apply queues.update
      intro other live found
      rw [records] at found
      split at found
      · next same =>
        cases found
        exact ⟨old, same ▸ stored, rfl, projected⟩
      · exact ⟨live, found, rfl, rfl⟩
    · rw [if_neg projected]
      exact queues.gain stored (Bool.eq_false_iff.mpr projected) records
  | none =>
    obtain ⟨placed, projections, _⟩ := placeCandidate_anew now projection stage firstSequence stored
    rw [placedIncarnation_of_none stored] at records
    rw [placed.metadata, placed.next, projections, nextIncarnation_allocate unwrapped]
    -- The record enters the queue of all records first and gains its projection then.
    have enlisted : Queues (fun other => if other = projection.block.hash then
        some ⟨store.nextIncarnation, projection.block, false⟩ else store.record other) _ _ _ :=
      queues.enlist fun _ => rfl
    have gained (other : B256) :
        (store.placeCandidate now projection stage true firstSequence).record other =
          if other = projection.block.hash then
            some ⟨store.nextIncarnation, projection.block, true⟩
          else if other = projection.block.hash then
            some ⟨store.nextIncarnation, projection.block, false⟩
          else store.record other := by
      rw [records]
      split <;> rfl
    exact enlisted.gain (if_pos rfl) rfl gained

theorem projectionCount_placeCandidate (store : Store) :
    (store.placeCandidate now projection stage true firstSequence).projectionCount +
        ((store.candidates.get projection.block.hash).any (·.projection.isSome)).toNat =
      store.projectionCount + 1 := by
  rw [any_projected]
  cases stored : store.record projection.block.hash with
  | some old =>
    rw [(placeCandidate_over now projection stage firstSequence stored).count]
    cases projected : old.projected <;> simp [projected]
  | none =>
    rw [(placeCandidate_anew now projection stage firstSequence stored).2.2]
    rfl

theorem nextIncarnation_placeCandidate_le (unwrapped : store.nextIncarnation + 1 < 2 ^ 64) :
    store.nextIncarnation ≤
      (store.placeCandidate now projection stage true firstSequence).nextIncarnation := by
  cases stored : store.record projection.block.hash with
  | some old => rw [(placeCandidate_over now projection stage firstSequence stored).next]
  | none =>
    rw [(placeCandidate_anew now projection stage firstSequence stored).1.next,
      nextIncarnation_allocate unwrapped]
    exact Nat.le_succ _

theorem tree_placeCandidate {anchor : Nat}
    (known : ∀ live, store.record projection.block.hash = some live →
      live.block = projection.block)
    (tree : Tree store.record store.childrenByParent anchor loose) :
    Tree (store.placeCandidate now projection stage true firstSequence).record
      (store.placeCandidate now projection stage true firstSequence).childrenByParent anchor
      loose := by
  have records := record_placeCandidate now projection stage firstSequence store
  cases stored : store.record projection.block.hash with
  | some old =>
    rw [(placeCandidate_over now projection stage firstSequence stored).children]
    rw [placedIncarnation_of_some stored] at records
    exact tree.refresh stored records (known old stored).symm rfl
  | none =>
    rw [(placeCandidate_anew now projection stage firstSequence stored).1.children]
    exact tree_addChild tree stored records

end

theorem WellFormed.placeCandidate {projection : Projection} (formed : WellFormed chain loose store)
    (known : projection.block = chain projection.block.hash)
    (unwrapped : store.nextIncarnation + 1 < 2 ^ 64) (now : Instant) (stage : CandidateStage)
    (firstSequence : Nat) :
    WellFormed chain loose (store.placeCandidate now projection stage true firstSequence) := by
  have records := record_placeCandidate now projection stage firstSequence store
  have settings := settings_placeCandidate now projection stage true firstSequence store
  have anchor : (store.placeCandidate now projection stage true firstSequence).anchorIncarnation =
    store.anchorIncarnation := congrArg Settings.anchorIncarnation settings
  have limit : (store.placeCandidate now projection stage true firstSequence).metadataLimit =
    store.metadataLimit := congrArg Settings.metadataLimit settings
  constructor
  · intro other entry stored
    rw [candidates_placeCandidate, Table.get_insert] at stored
    rw [deferredExecuted_placeCandidate, Table.get_erase]
    split at stored
    · next same => rw [if_pos same]
    · next different =>
      rw [if_neg different]
      exact formed.disjoint other entry stored
  · have count := projectionCount_placeCandidate now projection stage firstSequence store
    have inserted := Table.count_insert store.candidates projection.block.hash
      (store.placedEntry now projection stage true firstSequence) (·.projection.isSome)
    rw [placedEntry_projection, ← formed.counted] at inserted
    rw [candidates_placeCandidate]
    exact Nat.add_right_cancel (count.trans inserted.symm)
  · intro other entry stored
    rw [candidates_placeCandidate, Table.get_insert] at stored
    split at stored
    · cases stored
      rw [placedEntry_tracked, placedEntry_projection]
      rfl
    · exact formed.tracked other entry stored
  · intro other live stored
    rw [records] at stored
    split at stored
    · next same =>
      cases stored
      rw [same]
      exact ⟨known, rfl⟩
    · exact formed.known other live stored
  · exact queues_placeCandidate now projection stage firstSequence unwrapped formed.queues
  · rw [anchor]
    apply tree_placeCandidate _ _ _ _ _ formed.tree
    intro live stored
    rw [known]
    exact (formed.known _ live stored).1
  · rw [anchor]
    exact formed.anchor.trans_le
      (nextIncarnation_placeCandidate_le now projection stage firstSequence unwrapped)
  · rw [limit, (tombs_placeCandidate now projection stage firstSequence store).1,
      (tombs_placeCandidate now projection stage firstSequence store).2]
    exact formed.entombed

section

variable (now : Instant) (block : BlockMeta) (changes : BlockChanges)

theorem record_placeDeferred (unknown : store.candidates.get block.hash = none) (other : B256) :
    (store.placeDeferred now block changes).record other =
      if other = block.hash then
        some ⟨store.placedIncarnation block.hash, block, false⟩
      else store.record other := by
  unfold record
  rw [candidates_placeDeferred, deferredExecuted_placeDeferred, Table.get_insert]
  by_cases same : other = block.hash
  · subst same
    rw [placedIncarnation, currentIncarnation, unknown]
    simp [DeferredExecuted.record, deferredRecord]
  · rw [if_neg same, if_neg same]

theorem placeDeferred_indexes (unknown : store.candidates.get block.hash = none) :
    (∃ old, store.record block.hash = some old ∧ old.projected = false ∧
      PlacedOver store (store.placeDeferred now block changes) { old with projected := true }
        block.hash) ∨
      store.record block.hash = none ∧
        PlacedAnew store (store.placeDeferred now block changes) block := by
  unfold record placeDeferred
  rw [unknown]
  dsimp only
  cases store.deferredExecuted.get block.hash with
  | some deferred =>
    exact .inl ⟨DeferredExecuted.record deferred, rfl, rfl, ⟨rfl, rfl, rfl, rfl, rfl⟩⟩
  | none => exact .inr ⟨rfl, rfl, rfl, rfl⟩

theorem unchanged_placeDeferred (store : Store) :
    (store.placeDeferred now block changes).projectionOrder = store.projectionOrder ∧
      (store.placeDeferred now block changes).projectionCount = store.projectionCount ∧
      (store.placeDeferred now block changes).tombstones = store.tombstones ∧
      (store.placeDeferred now block changes).tombstoneOrder = store.tombstoneOrder := by
  unfold placeDeferred
  dsimp only
  split <;> exact ⟨rfl, rfl, rfl, rfl⟩

end

theorem WellFormed.placeDeferred {block : BlockMeta} (formed : WellFormed chain loose store)
    (known : block = chain block.hash) (unknown : store.candidates.get block.hash = none)
    (unwrapped : store.nextIncarnation + 1 < 2 ^ 64) (now : Instant) (changes : BlockChanges) :
    WellFormed chain loose (store.placeDeferred now block changes) := by
  have records := record_placeDeferred now block changes unknown
  obtain ⟨order, count, tombstones, tombstoneOrder⟩ :=
    unchanged_placeDeferred now block changes store
  have settings := settings_placeDeferred now block changes store
  have anchor : (store.placeDeferred now block changes).anchorIncarnation =
    store.anchorIncarnation := congrArg Settings.anchorIncarnation settings
  have limit : (store.placeDeferred now block changes).metadataLimit = store.metadataLimit :=
    congrArg Settings.metadataLimit settings
  have indexes := placeDeferred_indexes now block changes unknown
  constructor
  · intro other entry stored
    rw [candidates_placeDeferred] at stored
    rw [deferredExecuted_placeDeferred, Table.get_insert, if_neg]
    · exact formed.disjoint other entry stored
    · rintro rfl
      rw [unknown] at stored
      cases stored
  · rw [count, candidates_placeDeferred]
    exact formed.counted
  · rw [candidates_placeDeferred]
    exact formed.tracked
  · intro other live stored
    rw [records] at stored
    split at stored
    · next same =>
      cases stored
      rw [same]
      exact ⟨known, rfl⟩
    · exact formed.known other live stored
  · rw [order]
    rcases indexes with ⟨old, stored, bare, placed⟩ | ⟨absent, placed⟩
    · rw [placed.metadata, placed.next]
      rw [placedIncarnation_of_some stored] at records
      apply formed.queues.update
      intro other live found
      rw [records] at found
      split at found
      · next same =>
        cases found
        exact ⟨old, same ▸ stored, rfl, bare⟩
      · exact ⟨live, found, rfl, rfl⟩
    · rw [placed.metadata, placed.next, nextIncarnation_allocate unwrapped]
      rw [placedIncarnation_of_none absent] at records
      exact formed.queues.enlist records
  · rw [anchor]
    rcases indexes with ⟨old, stored, bare, placed⟩ | ⟨absent, placed⟩
    · rw [placed.children]
      rw [placedIncarnation_of_some stored] at records
      apply formed.tree.refresh stored records _ rfl
      exact known.trans (formed.known _ old stored).1.symm
    · rw [placed.children]
      exact tree_addChild formed.tree absent records
  · rw [anchor]
    rcases indexes with ⟨old, stored, bare, placed⟩ | ⟨absent, placed⟩
    · rw [placed.next]
      exact formed.anchor
    · rw [placed.next, nextIncarnation_allocate unwrapped]
      exact formed.anchor.trans_le (Nat.le_succ _)
  · rw [limit, tombstones, tombstoneOrder]
    exact formed.entombed

theorem wellFormed_anchored (entry : CandidateEntry) {projection : Projection}
    (candidates : store.candidates = (∅ : Table B256 CandidateEntry).insert entry.block.hash entry)
    (deferred : store.deferredExecuted = ∅) (children : store.childrenByParent = ∅)
    (projections : store.projectionOrder = [(entry.incarnation, entry.block.hash)])
    (metadata : store.metadataOrder = [(entry.incarnation, entry.block.hash)])
    (tombstones : store.tombstones = ∅) (tombstoneOrder : store.tombstoneOrder = [])
    (count : store.projectionCount = 1) (anchor : store.anchorIncarnation = entry.incarnation)
    (next : entry.incarnation < store.nextIncarnation)
    (cached : entry.projection = some projection) (tracked : entry.tracked = true)
    (known : entry.block = chain entry.block.hash) : WellFormed chain loose store := by
  have only : ∀ hash live, store.record hash = some live →
      hash = entry.block.hash ∧ live = ⟨entry.incarnation, entry.block, true⟩ := by
    intro hash live stored
    unfold record at stored
    rw [candidates, deferred, Table.get_insert] at stored
    by_cases same : hash = entry.block.hash
    · rw [if_pos same] at stored
      cases stored
      exact ⟨same, by simp [CandidateEntry.record, cached]⟩
    · simp [same] at stored
  constructor
  · intro hash stored _
    rw [deferred]
    rfl
  · have inserted := Table.count_insert (∅ : Table B256 CandidateEntry) entry.block.hash entry
      (·.projection.isSome)
    rw [cached] at inserted
    rw [count, candidates]
    exact inserted.symm
  · intro hash stored found
    rw [candidates, Table.get_insert] at found
    split at found
    · cases found
      rw [tracked, cached]
      rfl
    · cases found
  · intro hash live stored
    obtain ⟨rfl, rfl⟩ := only hash live stored
    exact ⟨known, rfl⟩
  · rw [projections, metadata]
    constructor
    · intro hash live stored
      obtain ⟨rfl, rfl⟩ := only hash live stored
      exact next
    · intro listed member
      rw [List.mem_singleton.mp member]
      exact next
    · intro listed member
      rw [List.mem_singleton.mp member]
      exact next
    · intro hash live stored
      obtain ⟨rfl, rfl⟩ := only hash live stored
      simp
    · intro hash live stored
      obtain ⟨rfl, rfl⟩ := only hash live stored
      simp
  · rw [children, anchor]
    constructor
    · intro parent listed present
      cases present
    · intro parent listed child present
      cases present
    · intro hash live stored foreign
      obtain ⟨rfl, rfl⟩ := only hash live stored
      exact absurd rfl foreign
  · rw [anchor]
    exact next
  · rw [tombstones, tombstoneOrder]
    exact ⟨List.nodup_nil, rfl, Nat.zero_le _⟩

theorem wellFormed_resetCandidates {projection : Projection} (now : Instant)
    (view : ForkchoiceMeta) (unwrapped : store.nextIncarnation + 1 < 2 ^ 64)
    (known : projection.block = chain projection.block.hash) :
    WellFormed chain loose (store.resetCandidates now projection view) := by
  apply wellFormed_anchored
    { block := projection.block, projection := some projection, stage := .validated,
      tracked := true, firstSequence := 0, incarnation := store.nextIncarnation,
      expiresAt := now + store.candidateRetention } rfl rfl rfl rfl rfl rfl rfl rfl rfl _ rfl rfl
      known
  exact (Nat.lt_succ_self _).trans_eq (nextIncarnation_allocate unwrapped).symm

theorem wellFormed_newConfigured {initial : Projection} (now : Instant) (view : ForkchoiceMeta)
    (policy : CandidatePolicy) (known : initial.block = chain initial.block.hash) :
    WellFormed chain loose (newConfigured now initial view policy) :=
  wellFormed_anchored
    { block := initial.block, projection := some initial, stage := .validated, tracked := true,
      firstSequence := 0, incarnation := 1, expiresAt := now + policy.retention } rfl rfl rfl rfl
      rfl rfl rfl rfl rfl (Nat.lt_succ_self 1) rfl rfl known

structure Fits (projections metadata : Nat) (store : Store) : Prop where
  cached : store.projectionCount ≤ projections
  kept : store.metadataLen ≤ metadata

variable {projections metadata : Nat}

theorem metadataLen_removeOne_le (hash : B256) (terminal : Bool) (store : Store) :
    (store.removeOne hash terminal).2.metadataLen ≤ store.metadataLen := by
  have candidates := Table.size_erase store.candidates hash
  have deferred := Table.size_erase store.deferredExecuted hash
  unfold metadataLen
  rw [candidates_removeOne, deferredExecuted_removeOne]
  omega

theorem Fits.removeOne (fits : Fits projections metadata store) (hash : B256) (terminal : Bool) :
    Fits projections metadata (store.removeOne hash terminal).2 := by
  constructor
  · have cached := fits.cached
    rw [projectionCount_removeOne]
    split <;> omega
  · exact (metadataLen_removeOne_le hash terminal store).trans fits.kept

theorem Fits.removeCandidateTree (fits : Fits projections metadata store) (root : B256)
    (terminal : Bool) : Fits projections metadata (store.removeCandidateTree root terminal) := by
  by_cases canonical : root = store.canonicalHash
  · unfold Store.removeCandidateTree
    rw [if_pos canonical]
    exact fits
  · apply removeCandidateTree_rule (motive := fun _ s => Fits projections metadata s) terminal
      _ root store canonical fits
    intro hash pending s holds
    have detached : Fits projections metadata (s.setChildren (s.childrenByParent.erase hash)) :=
      ⟨holds.cached, holds.kept⟩
    exact detached.removeOne hash terminal

theorem Fits.removeEach (fits : Fits projections metadata store) (hashes expired : List B256) :
    Fits projections metadata (store.removeEach hashes expired).2 :=
  removeEach_rule (motive := fun _ s => Fits projections metadata s)
    (fun hash _ _ _ holds => holds.removeOne hash false) expired store fits

theorem Fits.processFinalityBudget (fits : Fits projections metadata store) (budget : Nat) :
    Fits projections metadata (store.processFinalityBudget budget).2 := by
  unfold Store.processFinalityBudget
  cases store.finalitySweep with
  | none => exact fits
  | some sweep =>
    have swept := sweepLoop_rule (motive := fun _ _ s => Fits projections metadata s)
      (fun _ _ s _ _ s' step holds => by
        cases sweepStep_cases step with
        | removed walk => exact holds.removeOne walk.root true
        | _ => exact holds) budget 0 [] sweep (store.setSweep none) ⟨fits.cached, fits.kept⟩
    dsimp only
    split
    · exact swept
    · exact ⟨swept.cached, swept.kept⟩

theorem Fits.trimMetadata (fits : Fits projections metadata store) :
    Fits projections metadata (Store.trimMetadata store).2 := by
  apply ((trimMetadataLoop_rule (motive := fun _ s => Fits projections metadata s)
    (fun _ s _ _ rest _ _ holds => ⟨holds.cached, holds.kept⟩)
    (fun _ s incarnation hash rest _ _ _ holds => ?_) _ _ store fits).mono
    (fun _ _ holds => holds.1) (fun _ _ ⟨_, holds⟩ => holds)).elim
  unfold rotateOrRemove
  split
  · exact ⟨holds.cached, holds.kept⟩
  · have popped : Fits projections metadata (s.setMetadataOrder rest) :=
      ⟨holds.cached, holds.kept⟩
    exact popped.removeOne hash false

theorem Fits.modifyCandidate (fits : Fits projections metadata store) (hash : B256)
    (update : CandidateEntry → CandidateEntry) :
    Fits projections metadata
      { store with candidates := store.candidates.modify hash update } := by
  refine ⟨fits.cached, ?_⟩
  have kept := fits.kept
  unfold metadataLen at kept ⊢
  rwa [Table.size_modify]

theorem Fits.scheduleExpiry (fits : Fits projections metadata store) (now : Instant)
    (hash : B256) : Fits projections metadata (store.scheduleExpiry now hash) := by
  unfold Store.scheduleExpiry
  split
  · exact fits
  · split
    · exact fits.modifyCandidate hash _
    · refine ⟨fits.cached, ?_⟩
      have kept := fits.kept
      unfold metadataLen at kept ⊢
      rwa [Table.size_modify]

theorem Fits.placeCandidate (fits : Fits projections metadata store) (now : Instant)
    (projection : Projection) (stage : CandidateStage) (firstSequence : Nat) :
    Fits (projections + 1) (metadata + 1)
      (store.placeCandidate now projection stage true firstSequence) := by
  constructor
  · have count := projectionCount_placeCandidate now projection stage firstSequence store
    have cached := fits.cached
    omega
  · have inserted := Table.size_insert store.candidates projection.block.hash
      (store.placedEntry now projection stage true firstSequence)
    have erased := Table.size_erase store.deferredExecuted projection.block.hash
    have kept := fits.kept
    unfold metadataLen at kept ⊢
    rw [candidates_placeCandidate, deferredExecuted_placeCandidate]
    omega

theorem Fits.placeDeferred (fits : Fits projections metadata store) (now : Instant)
    (block : BlockMeta) (changes : BlockChanges) :
    Fits projections (metadata + 1) (store.placeDeferred now block changes) := by
  constructor
  · rw [(unchanged_placeDeferred now block changes store).2.1]
    exact fits.cached
  · have inserted := Table.size_insert store.deferredExecuted block.hash
      (store.deferredRecord now block changes)
    have kept := fits.kept
    unfold metadataLen at kept ⊢
    rw [candidates_placeDeferred, deferredExecuted_placeDeferred]
    omega

end Statefeed.Store
