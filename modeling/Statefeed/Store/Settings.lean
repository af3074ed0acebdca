import Statefeed.Store.Rules

set_option autoImplicit false

namespace Statefeed.Store

open Effect Effect.Op

structure Settings where
  cacheLimit : Nat
  metadataLimit : Nat
  candidateRetention : Duration
  retirementWorkBudget : Nat
  canonicalHash : B256
  lastFinalized : Option CheckpointMeta
  anchorIncarnation : Nat

def settings (store : Store) : Settings where
  cacheLimit := store.cacheLimit
  metadataLimit := store.metadataLimit
  candidateRetention := store.candidateRetention
  retirementWorkBudget := store.retirementWorkBudget
  canonicalHash := store.canonicalHash
  lastFinalized := store.lastFinalized
  anchorIncarnation := store.anchorIncarnation

theorem canonicalHash_of_settings {store other : Store} (same : store.settings = other.settings) :
    store.canonicalHash = other.canonicalHash :=
  congrArg Settings.canonicalHash same

@[simp] theorem settings_removeChild (parent child : B256) (store : Store) :
    (store.removeChild parent child).settings = store.settings := by
  unfold removeChild
  split <;> rfl

@[simp] theorem settings_trimTombstones (fuel : Nat) (store : Store) :
    (trimTombstones fuel store).settings = store.settings := by
  induction fuel generalizing store with
  | zero => rfl
  | succ fuel ih =>
    unfold trimTombstones
    split
    · split
      · rw [ih]; rfl
      · rfl
    · rfl

@[simp] theorem settings_insertTombstone (hash : B256) (store : Store) :
    (store.insertTombstone hash).settings = store.settings := by
  unfold insertTombstone
  rw [settings_trimTombstones]
  split <;> rfl

@[simp] theorem settings_removeRecord (hash : B256) (store : Store) :
    (store.removeRecord hash).settings = store.settings := by
  unfold removeRecord
  split
  · rw [settings_removeChild]; rfl
  · rfl

@[simp] theorem settings_removeOne (hash : B256) (terminal : Bool) (store : Store) :
    (store.removeOne hash terminal).2.settings = store.settings := by
  change (if terminal then (store.removeRecord hash).insertTombstone hash
    else store.removeRecord hash).settings = store.settings
  cases terminal with
  | false => simp
  | true => simp

@[simp] theorem settings_removeCandidateTree (root : B256) (terminal : Bool) (store : Store) :
    (store.removeCandidateTree root terminal).settings = store.settings := by
  by_cases canonical : root = store.canonicalHash
  · unfold removeCandidateTree
    rw [if_pos canonical]
  · refine removeCandidateTree_rule (motive := fun _ s => s.settings = store.settings) terminal
      (fun hash pending s same => ?_) root store canonical rfl
    unfold removeNode
    rw [settings_removeOne]
    exact same

@[simp] theorem settings_rotateOrEvict (incarnation : Nat) (hash : B256) (store : Store) :
    (store.rotateOrEvict incarnation hash).2.settings = store.settings := by
  unfold rotateOrEvict
  split <;> rfl

@[simp] theorem settings_rotateOrRemove (incarnation : Nat) (hash : B256) (store : Store) :
    (store.rotateOrRemove incarnation hash).2.settings = store.settings := by
  unfold rotateOrRemove
  split
  · rfl
  · exact settings_removeOne _ _ _

@[simp] theorem settings_trimProjectionCache (inserted : B256) (store : Store) :
    (trimProjectionCache inserted store).2.settings = store.settings := by
  refine ((trimProjectionLoop_rule (motive := fun _ s => s.settings = store.settings) inserted
    (fun _ s _ _ _ _ _ same => same) (fun _ s _ _ _ _ _ _ same => ?_) _ _ _ store rfl).mono
    (fun _ _ holds => holds.1) (fun _ _ ⟨_, holds⟩ => holds)).elim
  rw [settings_rotateOrEvict]
  exact same

@[simp] theorem settings_trimMetadata (store : Store) :
    (trimMetadata store).2.settings = store.settings := by
  refine ((trimMetadataLoop_rule (motive := fun _ s => s.settings = store.settings)
    (fun _ s _ _ _ _ _ same => same) (fun _ s _ _ _ _ _ _ same => ?_) _ _ store rfl).mono
    (fun _ _ holds => holds.1) (fun _ _ ⟨_, holds⟩ => holds)).elim
  rw [settings_rotateOrRemove]
  exact same

theorem settings_of_projections {inserted : B256} {store after : Store}
    {result : Except Error (List B256)}
    (trimmed : trimProjectionCache inserted store = (result, after)) :
    after.settings = store.settings := by
  have same := settings_trimProjectionCache inserted store
  rwa [trimmed] at same

theorem settings_of_metadata {store after : Store} {result : Except Error (List B256)}
    (trimmed : trimMetadata store = (result, after)) : after.settings = store.settings := by
  have same := settings_trimMetadata store
  rwa [trimmed] at same

@[simp] theorem settings_placeCandidate (now : Instant) (projection : Projection)
    (stage : CandidateStage) (tracked : Bool) (firstSequence : Nat) (store : Store) :
    (store.placeCandidate now projection stage tracked firstSequence).settings =
      store.settings := by
  unfold placeCandidate
  dsimp only
  split
  · split <;> rfl
  · rfl
  · rfl

@[simp] theorem settings_placeDeferred (now : Instant) (block : BlockMeta)
    (changes : BlockChanges) (store : Store) :
    (store.placeDeferred now block changes).settings = store.settings := by
  unfold placeDeferred
  dsimp only
  split <;> rfl

@[simp] theorem settings_removeEach (hashes expired : List B256) (store : Store) :
    (removeEach hashes expired store).2.settings = store.settings := by
  refine removeEach_rule (motive := fun _ s => s.settings = store.settings)
    (fun hash _ _ s same => ?_) expired store rfl
  rw [settings_removeOne, same]

theorem settings_sweepStep {sweep sweep' : FinalitySweep} {conflicting : List B256}
    {store store' : Store} (step : sweepStep sweep store = .progressed sweep' conflicting store') :
    store'.settings = store.settings := by
  cases sweepStep_cases step with
  | removed => exact settings_removeOne _ _ _
  | _ => rfl

@[simp] theorem settings_processFinalityBudget (budget : Nat) (store : Store) :
    (store.processFinalityBudget budget).2.settings = store.settings := by
  unfold processFinalityBudget
  cases store.finalitySweep with
  | none => rfl
  | some sweep =>
    have swept := sweepLoop_rule (motive := fun _ _ s => s.settings = store.settings)
      (fun _ _ _ _ _ _ step same => (settings_sweepStep step).trans same) budget 0 [] sweep
      (store.setSweep none) rfl
    dsimp only
    split
    · exact swept
    · exact swept

end Statefeed.Store
