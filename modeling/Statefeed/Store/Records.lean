import Statefeed.Store.Rules

set_option autoImplicit false

namespace Statefeed.Store

open Effect Effect.Op

structure Core where
  candidates : Table B256 CandidateEntry
  deferredExecuted : Table B256 DeferredExecuted
  projectionOrder : List (Nat × B256)
  metadataOrder : List (Nat × B256)
  nextIncarnation : Nat
  projectionCount : Nat
  finalitySweep : Option FinalitySweep

def core (store : Store) : Core where
  candidates := store.candidates
  deferredExecuted := store.deferredExecuted
  projectionOrder := store.projectionOrder
  metadataOrder := store.metadataOrder
  nextIncarnation := store.nextIncarnation
  projectionCount := store.projectionCount
  finalitySweep := store.finalitySweep

theorem core_removeChild (parent child : B256) (store : Store) :
    (store.removeChild parent child).core = store.core := by
  unfold removeChild
  split <;> rfl

theorem core_trimTombstones (fuel : Nat) (store : Store) :
    (trimTombstones fuel store).core = store.core := by
  induction fuel generalizing store with
  | zero => rfl
  | succ fuel ih =>
    unfold trimTombstones
    split
    · split
      · rw [ih]; rfl
      · rfl
    · rfl

theorem core_insertTombstone (hash : B256) (store : Store) :
    (store.insertTombstone hash).core = store.core := by
  unfold insertTombstone
  rw [core_trimTombstones]
  split <;> rfl

theorem core_removeRecord (hash : B256) (store : Store) :
    (store.removeRecord hash).core = (store.dropRecord hash).core := by
  unfold removeRecord
  split
  · exact core_removeChild _ _ _
  · rfl

def marked (hash : B256) (terminal : Bool) (store : Store) : Store :=
  if terminal then (store.removeRecord hash).insertTombstone hash else store.removeRecord hash

theorem removeOne_eq (hash : B256) (terminal : Bool) (store : Store) :
    (store.removeOne hash terminal).2 = (store.marked hash terminal).compactOrderQueuesIfNeeded :=
  rfl

theorem core_marked (hash : B256) (terminal : Bool) (store : Store) :
    (store.marked hash terminal).core = (store.dropRecord hash).core := by
  unfold marked
  split
  · rw [core_insertTombstone, core_removeRecord]
  · exact core_removeRecord hash store

@[simp] theorem candidates_removeOne (hash : B256) (terminal : Bool) (store : Store) :
    (store.removeOne hash terminal).2.candidates = store.candidates.erase hash :=
  congrArg Core.candidates (core_marked hash terminal store)

@[simp] theorem deferredExecuted_removeOne (hash : B256) (terminal : Bool) (store : Store) :
    (store.removeOne hash terminal).2.deferredExecuted = store.deferredExecuted.erase hash :=
  congrArg Core.deferredExecuted (core_marked hash terminal store)

@[simp] theorem finalitySweep_removeOne (hash : B256) (terminal : Bool) (store : Store) :
    (store.removeOne hash terminal).2.finalitySweep = store.finalitySweep :=
  congrArg Core.finalitySweep (core_marked hash terminal store)

@[simp] theorem nextIncarnation_removeOne (hash : B256) (terminal : Bool) (store : Store) :
    (store.removeOne hash terminal).2.nextIncarnation = store.nextIncarnation :=
  congrArg Core.nextIncarnation (core_marked hash terminal store)

@[simp] theorem candidates_removeNode (terminal : Bool) (hash : B256) (store : Store) :
    (store.removeNode terminal hash).candidates = store.candidates.erase hash :=
  candidates_removeOne _ _ _

def placedIncarnation (store : Store) (hash : B256) : Nat :=
  (store.currentIncarnation hash).getD store.nextIncarnation

def placedEntry (now : Instant) (projection : Projection) (stage : CandidateStage)
    (tracked : Bool) (firstSequence : Nat) (store : Store) : CandidateEntry :=
  match store.candidates.get projection.block.hash with
  | some entry =>
    refreshEntry projection stage tracked firstSequence (now + store.candidateRetention) entry
  | none =>
    newEntry projection stage tracked firstSequence (store.placedIncarnation projection.block.hash)
      (now + store.candidateRetention)

@[simp] theorem placedEntry_projection (now : Instant) (projection : Projection)
    (stage : CandidateStage) (tracked : Bool) (firstSequence : Nat) (store : Store) :
    (store.placedEntry now projection stage tracked firstSequence).projection =
      some projection := by
  unfold placedEntry
  split <;> rfl

@[simp] theorem placedEntry_block (now : Instant) (projection : Projection)
    (stage : CandidateStage) (tracked : Bool) (firstSequence : Nat) (store : Store) :
    (store.placedEntry now projection stage tracked firstSequence).block = projection.block := by
  unfold placedEntry
  split <;> rfl

@[simp] theorem placedEntry_stage (now : Instant) (projection : Projection)
    (stage : CandidateStage) (tracked : Bool) (firstSequence : Nat) (store : Store) :
    (store.placedEntry now projection stage tracked firstSequence).stage = stage := by
  unfold placedEntry
  split <;> rfl

theorem placedEntry_tracked (now : Instant) (projection : Projection) (stage : CandidateStage)
    (firstSequence : Nat) (store : Store) :
    (store.placedEntry now projection stage true firstSequence).tracked = true := by
  unfold placedEntry
  split
  · simp [refreshEntry]
  · rfl

theorem placedEntry_incarnation (now : Instant) (projection : Projection) (stage : CandidateStage)
    (tracked : Bool) (firstSequence : Nat) (store : Store) :
    (store.placedEntry now projection stage tracked firstSequence).incarnation =
      store.placedIncarnation projection.block.hash := by
  unfold placedEntry placedIncarnation currentIncarnation
  cases store.candidates.get projection.block.hash <;> rfl

@[simp] theorem candidates_placeCandidate (now : Instant) (projection : Projection)
    (stage : CandidateStage) (tracked : Bool) (firstSequence : Nat) (store : Store) :
    (store.placeCandidate now projection stage tracked firstSequence).candidates =
      store.candidates.insert projection.block.hash
        (store.placedEntry now projection stage tracked firstSequence) := by
  unfold placeCandidate placedEntry placedIncarnation currentIncarnation
  dsimp only
  split
  · next entry stored => split <;> simp only [stored] <;> rfl
  · next deferred absent stored => simp only [absent, stored]; rfl
  · next absent unknown => simp only [absent, unknown]; rfl

@[simp] theorem deferredExecuted_placeCandidate (now : Instant) (projection : Projection)
    (stage : CandidateStage) (tracked : Bool) (firstSequence : Nat) (store : Store) :
    (store.placeCandidate now projection stage tracked firstSequence).deferredExecuted =
      store.deferredExecuted.erase projection.block.hash := by
  unfold placeCandidate
  dsimp only
  split
  · split <;> rfl
  · rfl
  · rfl

@[simp] theorem candidates_placeDeferred (now : Instant) (block : BlockMeta)
    (changes : BlockChanges) (store : Store) :
    (store.placeDeferred now block changes).candidates = store.candidates := by
  unfold placeDeferred
  dsimp only
  split <;> rfl

def deferredRecord (now : Instant) (block : BlockMeta) (changes : BlockChanges) (store : Store) :
    DeferredExecuted where
  block := block
  changes := changes
  incarnation := ((store.deferredExecuted.get block.hash).map
    DeferredExecuted.incarnation).getD store.nextIncarnation
  expiresAt := now + store.candidateRetention

@[simp] theorem deferredExecuted_placeDeferred (now : Instant) (block : BlockMeta)
    (changes : BlockChanges) (store : Store) :
    (store.placeDeferred now block changes).deferredExecuted =
      store.deferredExecuted.insert block.hash (store.deferredRecord now block changes) := by
  unfold placeDeferred deferredRecord
  dsimp only
  split
  · next stored => rw [stored]; rfl
  · next unknown => rw [unknown]; rfl

def projectionAt (store : Store) (hash : B256) : Option Projection :=
  (store.candidates.get hash).bind CandidateEntry.projection

def deltaAt (store : Store) (hash : B256) : Option (BlockMeta × BlockChanges) :=
  (store.deferredExecuted.get hash).map fun record => (record.block, record.changes)

structure Shrinks (before after : Store) : Prop where
  projections : ∀ hash projection, after.projectionAt hash = some projection →
    before.projectionAt hash = some projection
  deltas : ∀ hash delta, after.deltaAt hash = some delta → before.deltaAt hash = some delta

structure Fades (old new : CandidateEntry) : Prop where
  block : new.block = old.block
  stage : new.stage = old.stage
  incarnation : new.incarnation = old.incarnation
  projection : new.projection = old.projection ∨ new.projection = none

theorem Fades.refl (entry : CandidateEntry) : Fades entry entry := ⟨rfl, rfl, rfl, .inl rfl⟩

theorem Fades.trans {first second third : CandidateEntry} (left : Fades first second)
    (right : Fades second third) : Fades first third where
  block := right.block.trans left.block
  stage := right.stage.trans left.stage
  incarnation := right.incarnation.trans left.incarnation
  projection := by
    rcases right.projection with same | gone
    · rw [same]
      exact left.projection
    · exact .inr gone

structure Thins (before after : Store) : Prop where
  candidates : ∀ hash entry, after.candidates.get hash = some entry →
    ∃ old, before.candidates.get hash = some old ∧ Fades old entry
  deferred : ∀ hash record, after.deferredExecuted.get hash = some record →
    ∃ old, before.deferredExecuted.get hash = some old ∧ record.block = old.block ∧
      record.changes = old.changes ∧ record.incarnation = old.incarnation

theorem thins_of_eq {before after : Store} (candidates : after.candidates = before.candidates)
    (deferred : after.deferredExecuted = before.deferredExecuted) : Thins before after := by
  constructor
  · intro hash entry found
    rw [candidates] at found
    exact ⟨entry, found, .refl entry⟩
  · intro hash record found
    rw [deferred] at found
    exact ⟨record, found, rfl, rfl, rfl⟩

theorem Thins.refl (store : Store) : Thins store store := thins_of_eq rfl rfl

theorem Thins.trans {first second third : Store} (left : Thins first second)
    (right : Thins second third) : Thins first third := by
  constructor
  · intro hash entry found
    obtain ⟨middle, between, faded⟩ := right.candidates hash entry found
    obtain ⟨old, stored, before⟩ := left.candidates hash middle between
    exact ⟨old, stored, before.trans faded⟩
  · intro hash record found
    obtain ⟨middle, between, block, changes, incarnation⟩ := right.deferred hash record found
    obtain ⟨old, stored, block', changes', incarnation'⟩ := left.deferred hash middle between
    exact ⟨old, stored, block.trans block', changes.trans changes', incarnation.trans incarnation'⟩

theorem Thins.shrinks {before after : Store} (thins : Thins before after) :
    Shrinks before after := by
  constructor
  · intro hash projection found
    obtain ⟨entry, stored, cached⟩ := Option.bind_eq_some_iff.mp found
    obtain ⟨old, earlier, faded⟩ := thins.candidates hash entry stored
    rcases faded.projection with same | gone
    · rw [projectionAt, earlier]
      exact same.symm.trans cached
    · rw [gone] at cached
      cases cached
  · intro hash delta found
    obtain ⟨record, stored, rfl⟩ := Option.map_eq_some_iff.mp found
    obtain ⟨old, earlier, block, changes, _⟩ := thins.deferred hash record stored
    rw [deltaAt, earlier, block, changes]
    rfl

theorem thins_removeOne (hash : B256) (terminal : Bool) (store : Store) :
    Thins store (store.removeOne hash terminal).2 := by
  constructor
  · intro other entry found
    rw [candidates_removeOne, Table.get_erase] at found
    split at found
    · cases found
    · exact ⟨entry, found, .refl entry⟩
  · intro other record found
    rw [deferredExecuted_removeOne, Table.get_erase] at found
    split at found
    · cases found
    · exact ⟨record, found, rfl, rfl, rfl⟩

theorem thins_modify {store : Store} (hash : B256) (update : CandidateEntry → CandidateEntry)
    (faded : ∀ entry, Fades entry (update entry)) :
    Thins store { store with candidates := store.candidates.modify hash update } := by
  refine ⟨fun other entry found => ?_, (Thins.refl store).deferred⟩
  change (store.candidates.modify hash update).get other = _ at found
  rw [Table.get_modify] at found
  split at found
  · next same =>
    subst same
    obtain ⟨old, stored, rfl⟩ := Option.map_eq_some_iff.mp found
    exact ⟨old, stored, faded old⟩
  · exact ⟨entry, found, .refl entry⟩

theorem thins_rotateOrEvict (incarnation : Nat) (hash : B256) (store : Store) :
    Thins store (store.rotateOrEvict incarnation hash).2 := by
  unfold rotateOrEvict
  split
  · exact thins_of_eq rfl rfl
  · have evicted := @thins_modify store hash
      (fun entry => { entry with projection := none, tracked := false })
      fun _ => ⟨rfl, rfl, rfl, .inr rfl⟩
    exact evicted.trans (thins_of_eq rfl rfl)

theorem thins_trimProjectionCache (inserted : B256) (store : Store) :
    Thins store (trimProjectionCache inserted store).2 := by
  refine ((trimProjectionLoop_rule (motive := fun _ s => Thins store s) inserted
    (fun _ s _ _ _ _ _ kept => kept.trans (thins_of_eq rfl rfl))
    (fun _ s _ _ rest _ _ _ kept => ?_) _ _ _ store (.refl store)).mono
    (fun _ _ holds => holds.1) (fun _ _ ⟨_, holds⟩ => holds)).elim
  have popped : Thins s (s.setProjectionOrder rest) := thins_of_eq rfl rfl
  exact (kept.trans popped).trans (thins_rotateOrEvict _ _ _)

theorem thins_rotateOrRemove (incarnation : Nat) (hash : B256) (store : Store) :
    Thins store (store.rotateOrRemove incarnation hash).2 := by
  unfold rotateOrRemove
  split
  · exact thins_of_eq rfl rfl
  · exact thins_removeOne _ _ _

theorem thins_trimMetadata (store : Store) : Thins store (trimMetadata store).2 := by
  refine ((trimMetadataLoop_rule (motive := fun _ s => Thins store s)
    (fun _ s _ _ _ _ _ kept => kept.trans (thins_of_eq rfl rfl))
    (fun _ s _ _ rest _ _ _ kept => ?_) _ _ store (.refl store)).mono
    (fun _ _ holds => holds.1) (fun _ _ ⟨_, holds⟩ => holds)).elim
  have popped : Thins s (s.setMetadataOrder rest) := thins_of_eq rfl rfl
  exact (kept.trans popped).trans (thins_rotateOrRemove _ _ _)

theorem thins_of_projections {inserted : B256} {store after : Store}
    {result : Except Error (List B256)}
    (trimmed : trimProjectionCache inserted store = (result, after)) : Thins store after := by
  have thins := thins_trimProjectionCache inserted store
  rwa [trimmed] at thins

theorem thins_of_metadata {store after : Store} {result : Except Error (List B256)}
    (trimmed : trimMetadata store = (result, after)) : Thins store after := by
  have thins := thins_trimMetadata store
  rwa [trimmed] at thins

theorem thins_removeCandidateTree (root : B256) (terminal : Bool) (store : Store) :
    Thins store (store.removeCandidateTree root terminal) := by
  by_cases canonical : root = store.canonicalHash
  · unfold removeCandidateTree
    rw [if_pos canonical]
    exact .refl store
  · refine removeCandidateTree_rule (motive := fun _ s => Thins store s) terminal
      (fun hash pending s kept => ?_) root store canonical (.refl store)
    have detached : Thins s (s.setChildren (s.childrenByParent.erase hash)) := thins_of_eq rfl rfl
    exact kept.trans (detached.trans (thins_removeOne _ _ _))

theorem thins_processFinalityBudget (budget : Nat) (store : Store) :
    Thins store (store.processFinalityBudget budget).2 := by
  unfold processFinalityBudget
  cases store.finalitySweep with
  | none => exact .refl store
  | some sweep =>
    have swept := sweepLoop_rule (motive := fun _ _ s => Thins store s)
      (fun _ _ s _ _ s' step kept => by
        cases sweepStep_cases step with
        | removed => exact kept.trans (thins_removeOne _ _ _)
        | _ => exact kept) budget 0 [] sweep (store.setSweep none)
      (thins_of_eq rfl rfl)
    dsimp only
    split
    · exact swept
    · exact swept.trans (thins_of_eq rfl rfl)

theorem thins_removeEach (hashes expired : List B256) (store : Store) :
    Thins store (removeEach hashes expired store).2 :=
  removeEach_rule (motive := fun _ s => Thins store s)
    (fun _ _ _ _ kept => kept.trans (thins_removeOne _ _ _)) expired store (.refl store)

theorem thins_scheduleExpiry (now : Instant) (hash : B256) (store : Store) :
    Thins store (store.scheduleExpiry now hash) := by
  unfold scheduleExpiry
  split
  · exact .refl store
  · split
    · exact thins_modify hash _ fun _ => ⟨rfl, rfl, rfl, .inl rfl⟩
    · refine ⟨(Thins.refl store).candidates, fun other record found => ?_⟩
      change (store.deferredExecuted.modify hash _).get other = _ at found
      rw [Table.get_modify] at found
      split at found
      · next same =>
        subst same
        obtain ⟨old, stored, rfl⟩ := Option.map_eq_some_iff.mp found
        exact ⟨old, stored, rfl, rfl, rfl⟩
      · exact ⟨record, found, rfl, rfl, rfl⟩

theorem shrinks_modify {store : Store} (hash : B256) (update : CandidateEntry → CandidateEntry)
    (kept : ∀ entry, (update entry).projection = entry.projection) :
    Shrinks store { store with candidates := store.candidates.modify hash update } := by
  refine ⟨fun other projection found => ?_, fun _ _ => id⟩
  change ((store.candidates.modify hash update).get other).bind _ = _ at found
  rw [Table.get_modify] at found
  split at found
  · next same =>
    subst same
    cases stored : store.candidates.get other with
    | none => rw [stored] at found; cases found
    | some entry =>
      rw [stored] at found
      rw [projectionAt, stored]
      exact (kept entry).symm.trans found
  · exact found

end Statefeed.Store
