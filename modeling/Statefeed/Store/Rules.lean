import Statefeed.Library.Children
import Statefeed.Library.Effect
import Statefeed.Library.Forest
import Statefeed.Model.Store

set_option autoImplicit false

namespace Statefeed.Store

open Effect Effect.Op

theorem trimProjectionLoop_rule {motive : List B256 → Store → Prop} (inserted : B256)
    (stale : ∀ retired store incarnation hash rest,
      store.projectionOrder = (incarnation, hash) :: rest →
      store.isCurrentProjection incarnation hash = false →
      motive retired store → motive retired (store.setProjectionOrder rest))
    (current : ∀ retired (store : Store) incarnation hash rest,
      store.cacheLimit < store.projectionCount →
      store.projectionOrder = (incarnation, hash) :: rest →
      store.isCurrentProjection incarnation hash = true → motive retired store →
      motive (retired ++ (rotateOrEvict incarnation hash (store.setProjectionOrder rest)).1)
        (rotateOrEvict incarnation hash (store.setProjectionOrder rest)).2)
    (fuel examined : Nat) (retired : List B256) (store : Store) (start : motive retired store) :
    Op.Ensures (trimProjectionLoop inserted fuel examined retired) store
      (fun retired after => motive retired after ∧
        (after.projectionCount ≤ after.cacheLimit ∨ after.projectionOrder = []))
      (fun _ after => ∃ retired, motive retired after) := by
  induction fuel generalizing examined retired store with
  | zero => exact ⟨retired, start⟩
  | succ fuel ih =>
    unfold Ensures trimProjectionLoop
    dsimp only
    by_cases exceeds : store.projectionCount > store.cacheLimit
    · simp only [if_pos exceeds]
      cases order : store.projectionOrder with
      | nil => exact ⟨start, .inr order⟩
      | cons entry rest =>
        obtain ⟨incarnation, hash⟩ := entry
        dsimp only
        by_cases live : store.isCurrentProjection incarnation hash = true
        · have kept := current retired store incarnation hash rest exceeds order live start
          rw [if_pos (by exact live)]
          split_ifs
          · exact ⟨_, kept⟩
          · exact ih _ _ _ kept
        · rw [if_neg (by exact live)]
          exact ih _ _ _ (stale retired store incarnation hash rest order (by simpa using live) start)
    · simp only [if_neg exceeds]
      exact ⟨start, .inl (by omega)⟩

theorem trimMetadataLoop_rule {motive : List B256 → Store → Prop}
    (stale : ∀ retired store incarnation hash rest,
      store.metadataOrder = (incarnation, hash) :: rest →
      store.currentIncarnation hash ≠ some incarnation →
      motive retired store → motive retired (store.setMetadataOrder rest))
    (current : ∀ retired (store : Store) incarnation hash rest,
      store.metadataLimit < store.metadataLen →
      store.metadataOrder = (incarnation, hash) :: rest →
      store.currentIncarnation hash = some incarnation → motive retired store →
      motive (retired ++ (rotateOrRemove incarnation hash (store.setMetadataOrder rest)).1)
        (rotateOrRemove incarnation hash (store.setMetadataOrder rest)).2)
    (fuel : Nat) (retired : List B256) (store : Store) (start : motive retired store) :
    Op.Ensures (trimMetadataLoop fuel retired) store
      (fun retired after => motive retired after ∧ after.metadataLen ≤ after.metadataLimit)
      (fun _ after => ∃ retired, motive retired after) := by
  induction fuel generalizing retired store with
  | zero => exact ⟨retired, start⟩
  | succ fuel ih =>
    unfold Ensures trimMetadataLoop
    dsimp only
    by_cases exceeds : store.metadataLen > store.metadataLimit
    · simp only [if_pos exceeds]
      cases order : store.metadataOrder with
      | nil => exact ⟨retired, start⟩
      | cons entry rest =>
        obtain ⟨incarnation, hash⟩ := entry
        dsimp only
        by_cases live : store.currentIncarnation hash = some incarnation
        · rw [if_pos (by exact live)]
          exact ih _ _ (current retired store incarnation hash rest exceeds order live start)
        · rw [if_neg (by exact live)]
          exact ih _ _ (stale retired store incarnation hash rest order live start)
    · simp only [if_neg exceeds]
      exact ⟨start, by omega⟩

theorem sweepLoop_rule {motive : List B256 → FinalitySweep → Store → Prop}
    (step : ∀ retired sweep store sweep' conflicting store',
      sweepStep sweep store = .progressed sweep' conflicting store' →
      motive retired sweep store → motive (retired ++ conflicting) sweep' store')
    (budget work : Nat) (retired : List B256) (sweep : FinalitySweep) (store : Store)
    (start : motive retired sweep store) :
    motive (sweepLoop budget work retired sweep store).1.2.1
      (sweepLoop budget work retired sweep store).1.2.2
      (sweepLoop budget work retired sweep store).2 := by
  induction budget generalizing work retired sweep store with
  | zero => exact start
  | succ budget ih =>
    unfold sweepLoop
    cases outcome : sweepStep sweep store with
    | finished => exact start
    | progressed sweep' conflicting store' =>
      exact ih _ _ _ _ (step _ _ _ _ _ _ outcome start)

inductive Taken (sweep : FinalitySweep) (store : Store) : FinalityWalk → FinalitySweep → Prop
  | resumed {walk : FinalityWalk} (active : sweep.active = some walk) :
      Taken sweep store walk { sweep with active := none }
  | popped {incarnation : Nat} {hash : B256} {rest : List (Nat × B256)}
      (fresh : sweep.active = none) (queued : sweep.pending = (incarnation, hash) :: rest)
      (live : store.currentIncarnation hash = some incarnation)
      (foreign : hash ≠ store.canonicalHash) :
      Taken sweep store { incarnation, root := hash, current := hash, path := [] }
        { sweep with pending := rest }

inductive SweepStep (sweep : FinalitySweep) (store : Store) :
    FinalitySweep → List B256 → Store → Prop
  | dropped (incarnation : Nat) (hash : B256) (rest : List (Nat × B256))
      (fresh : sweep.active = none) (queued : sweep.pending = (incarnation, hash) :: rest)
      (ignored : store.currentIncarnation hash ≠ some incarnation ∨ hash = store.canonicalHash) :
      SweepStep sweep store { sweep with pending := rest } [] store
  | moved (walk onward : FinalityWalk) (taken : FinalitySweep) (origin : Taken sweep store walk taken)
      (edge : classifyStep taken walk store = .inr onward) :
      SweepStep sweep store { taken with active := some onward } [] store
  | kept (walk : FinalityWalk) (taken : FinalitySweep) (classification : FinalityClassification)
      (origin : Taken sweep store walk taken)
      (settled : classifyStep taken walk store = .inl classification)
      (harmless : ¬ (classification = .conflict ∧
        store.currentIncarnation walk.root = some walk.incarnation)) :
      SweepStep sweep store (memoize walk classification taken) [] store
  | removed (walk : FinalityWalk) (taken : FinalitySweep) (origin : Taken sweep store walk taken)
      (settled : classifyStep taken walk store = .inl .conflict)
      (live : store.currentIncarnation walk.root = some walk.incarnation) :
      SweepStep sweep store (memoize walk .conflict taken)
        (if store.isTracked walk.root then [walk.root] else []) (store.removeOne walk.root true).2

theorem continueWalk_cases {sweep taken sweep' : FinalitySweep} {walk : FinalityWalk}
    {conflicting : List B256} {store store' : Store} (origin : Taken sweep store walk taken)
    (step : continueWalk taken walk store = .progressed sweep' conflicting store') :
    SweepStep sweep store sweep' conflicting store' := by
  unfold continueWalk at step
  split at step
  · next classification settled =>
    unfold settleWalk at step
    split at step
    · next conflict =>
      obtain ⟨rfl, live⟩ := conflict
      cases step
      exact .removed walk taken origin settled live
    · next harmless =>
      cases step
      exact .kept walk taken classification origin settled harmless
  · next onward edge =>
    cases step
    exact .moved walk onward taken origin edge

theorem sweepStep_cases {sweep sweep' : FinalitySweep} {conflicting : List B256}
    {store store' : Store} (step : sweepStep sweep store = .progressed sweep' conflicting store') :
    SweepStep sweep store sweep' conflicting store' := by
  unfold sweepStep at step
  split at step
  · next walk active => exact continueWalk_cases (.resumed active) step
  · next fresh =>
    split at step
    · cases step
    · next incarnation hash rest queued =>
      dsimp only at step
      split at step
      · next ignored =>
        cases step
        exact .dropped incarnation hash rest fresh queued ignored
      · next relevant =>
        rw [not_or, not_not] at relevant
        exact continueWalk_cases (.popped fresh queued relevant.1 relevant.2) step

theorem removeEach_rule {motive : List B256 → Store → Prop} {hashes : List B256}
    (step : ∀ hash ∈ hashes, ∀ expired store, motive expired store →
      motive (expired ++ if store.isTracked hash then [hash] else [])
        (store.removeOne hash false).2)
    (expired : List B256) (store : Store) (start : motive expired store) :
    motive (removeEach hashes expired store).1 (removeEach hashes expired store).2 := by
  induction hashes generalizing expired store with
  | nil => exact start
  | cons hash rest ih =>
    exact ih (fun other member => step other (List.mem_cons_of_mem _ member)) _ _
      (step hash List.mem_cons_self _ _ start)

def treeChildren (store : Store) (hash : B256) : List B256 :=
  (store.childrenByParent.get hash).getD []

def removeNode (terminal : Bool) (hash : B256) (store : Store) : Store :=
  ((store.setChildren (store.childrenByParent.erase hash)).removeOne hash terminal).2

theorem removeTreeLoop_eq_prune (terminal : Bool) (fuel : Nat) (pending : List B256)
    (store : Store) :
    removeTreeLoop terminal fuel pending store =
      Forest.prune treeChildren (removeNode terminal) fuel pending store := by
  induction fuel generalizing pending store with
  | zero => rfl
  | succ fuel ih =>
    cases pending with
    | nil => rfl
    | cons hash pending => exact ih _ _

theorem childrenByParent_trimTombstones (fuel : Nat) (store : Store) :
    (trimTombstones fuel store).childrenByParent = store.childrenByParent := by
  induction fuel generalizing store with
  | zero => rfl
  | succ fuel ih =>
    unfold trimTombstones
    split
    · split
      · rw [ih]
      · rfl
    · rfl

theorem childrenByParent_removeOne (hash : B256) (terminal : Bool) (store : Store) :
    (store.removeOne hash terminal).2.childrenByParent =
      (store.removeRecord hash).childrenByParent := by
  cases terminal with
  | false => rfl
  | true =>
    change ((store.removeRecord hash).insertTombstone hash).childrenByParent = _
    unfold insertTombstone
    rw [childrenByParent_trimTombstones]
    split <;> rfl

theorem childrenByParent_removeChild (parent child : B256) (store : Store) :
    (store.removeChild parent child).childrenByParent =
      store.childrenByParent.detach parent child := by
  unfold removeChild Table.detach
  cases store.childrenByParent.get parent <;> rfl

def treeWeight (store : Store) : Nat := store.childrenByParent.total List.length

theorem treeWeight_removeNode_le (terminal : Bool) (hash : B256) (store : Store) :
    (store.removeNode terminal hash).treeWeight + (store.treeChildren hash).length ≤
      store.treeWeight := by
  have erased := Table.total_erase_listed store.childrenByParent hash
  have removed : (store.removeNode terminal hash).treeWeight ≤
      (store.childrenByParent.erase hash).total List.length := by
    unfold removeNode treeWeight
    rw [childrenByParent_removeOne]
    unfold removeRecord
    split
    · rw [childrenByParent_removeChild]
      exact Table.total_detach_le _ _ _
    · exact Nat.le_refl _
  unfold treeWeight treeChildren Table.listed at *
  omega

theorem removeCandidateTree_eq_prune {root : B256} {store : Store} (terminal : Bool)
    (foreign : root ≠ store.canonicalHash) :
    store.removeCandidateTree root terminal = Forest.prune treeChildren (removeNode terminal)
      (store.treeWeight + 1) [root] store := by
  unfold removeCandidateTree
  rw [if_neg foreign, removeTreeLoop_eq_prune]
  rfl

theorem removeCandidateTree_rule {motive : List B256 → Store → Prop} (terminal : Bool)
    (step : ∀ hash pending store, motive (hash :: pending) store →
      motive ((store.treeChildren hash).reverse ++ pending) (store.removeNode terminal hash))
    (root : B256) (store : Store) (foreign : root ≠ store.canonicalHash)
    (start : motive [root] store) : motive [] (store.removeCandidateTree root terminal) := by
  rw [removeCandidateTree_eq_prune terminal foreign]
  exact Forest.prune_rule (treeWeight_removeNode_le terminal) step _ _ _
    (Nat.add_comm 1 _).le start

end Statefeed.Store
