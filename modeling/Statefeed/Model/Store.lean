import Mathlib.Data.Finset.Card
import Mathlib.Data.List.Sort
import Statefeed.Library.Effect
import Statefeed.Model.Wire

set_option autoImplicit false

namespace Statefeed

open Effect

inductive CandidateStage where
  | executed | validated
deriving DecidableEq

def CandidateStage.wire : CandidateStage → Wire.BlockStage
  | executed => .executed
  | validated => .validated

structure Projection where
  block : BlockMeta
  watchSet : WatchSet
  values : Bytes
  changedBitmap : Bytes
deriving DecidableEq

inductive Error where
  | source
  | encode (error : Wire.EncodeError)
  | generationAhead (generation active : Generation)
  | inconsistentMetadata (hash : B256)
  | parentNumberOverflow (hash : B256)
  | invalidAncestry (hash parent : B256)
  | generationMismatch (hash : B256)
  | parentProjectionMismatch (hash parent : B256)
  | invalidKeyId (keyId : Nat)
  | canonicalIdentityMismatch (hash : B256)
  | headMismatch (applied canonical : B256)
  | dictionaryMismatch
  | snapshotHeadMismatch
  | checkpointAheadOfHead
  | finalizedAheadOfSafe
  | projectionLength (hash : B256)
  | bitmapLength (hash : B256)
  | incomparableProjections
  | cannotEvict (inserted : B256)
  | metadataBound
  -- A trimming loop of the source that would not stop.
  | diverged
deriving DecidableEq

structure CandidateEntry where
  block : BlockMeta
  projection : Option Projection
  stage : CandidateStage
  tracked : Bool
  firstSequence : Nat
  incarnation : Nat
  expiresAt : Instant

structure DeferredExecuted where
  block : BlockMeta
  changes : BlockChanges
  incarnation : Nat
  expiresAt : Instant

inductive FinalityClassification where
  | compatible | conflict | unknown
deriving DecidableEq

structure FinalityWalk where
  incarnation : Nat
  root : B256
  current : B256
  path : List B256

structure FinalitySweep where
  checkpoint : CheckpointMeta
  pending : List (Nat × B256)
  classifications : Table B256 FinalityClassification
  active : Option FinalityWalk

structure CandidatePolicy where
  projectionLimit : Nat
  metadataLimit : Nat
  retention : Duration
  workBudget : Nat

structure Store where
  candidates : Table B256 CandidateEntry
  deferredExecuted : Table B256 DeferredExecuted
  childrenByParent : Table B256 (List B256)
  projectionOrder : List (Nat × B256)
  metadataOrder : List (Nat × B256)
  tombstones : Finset B256
  tombstoneOrder : List B256
  nextIncarnation : Nat
  projectionCount : Nat
  cacheLimit : Nat
  metadataLimit : Nat
  candidateRetention : Duration
  retirementWorkBudget : Nat
  canonicalHash : B256
  lastFinalized : Option CheckpointMeta
  finalitySweep : Option FinalitySweep
  -- Ghost: the incarnation of the record created by the latest anchor reset.
  anchorIncarnation : Nat

namespace Store

def setProjectionOrder (order : List (Nat × B256)) (store : Store) : Store :=
  { store with projectionOrder := order }

def setMetadataOrder (order : List (Nat × B256)) (store : Store) : Store :=
  { store with metadataOrder := order }

def setChildren (children : Table B256 (List B256)) (store : Store) : Store :=
  { store with childrenByParent := children }

def setSweep (sweep : Option FinalitySweep) (store : Store) : Store :=
  { store with finalitySweep := sweep }

def currentIncarnation (store : Store) (hash : B256) : Option Nat :=
  match store.candidates.get hash with
  | some entry => some entry.incarnation
  | none => (store.deferredExecuted.get hash).map DeferredExecuted.incarnation

def blockMeta (store : Store) (hash : B256) : Option BlockMeta :=
  match store.candidates.get hash with
  | some entry => some entry.block
  | none => (store.deferredExecuted.get hash).map DeferredExecuted.block

def metadataLen (store : Store) : Nat := store.candidates.size + store.deferredExecuted.size

def isCurrentProjection (store : Store) (incarnation : Nat) (hash : B256) : Bool :=
  match store.candidates.get hash with
  | some entry => entry.incarnation = incarnation ∧ entry.projection.isSome
  | none => false

def isTracked (store : Store) (hash : B256) : Bool :=
  (store.candidates.get hash).any (·.tracked)

def allocateIncarnation (store : Store) : Nat × Store :=
  (store.nextIncarnation,
    { store with nextIncarnation := max ((store.nextIncarnation + 1) % 2 ^ 64) 1 })

def addChild (parent child : B256) (store : Store) : Store :=
  let children := (store.childrenByParent.get parent).getD []
  let extended := if child ∈ children then children else children ++ [child]
  store.setChildren (store.childrenByParent.insert parent extended)

def removeChild (parent child : B256) (store : Store) : Store :=
  match store.childrenByParent.get parent with
  | none => store
  | some children =>
    let kept := children.filter (· ≠ child)
    store.setChildren
      (if kept = [] then store.childrenByParent.erase parent
        else store.childrenByParent.insert parent kept)

def trimTombstones : Nat → Store → Store
  | 0, store => store
  | fuel + 1, store =>
    if store.tombstones.card > store.metadataLimit then
      match store.tombstoneOrder with
      | oldest :: rest =>
        trimTombstones fuel
          { store with tombstones := store.tombstones.erase oldest, tombstoneOrder := rest }
      | [] => store
    else store

def insertTombstone (hash : B256) (store : Store) : Store :=
  let inserted :=
    if hash ∈ store.tombstones then store
    else
      { store with
        tombstones := insert hash store.tombstones
        tombstoneOrder := store.tombstoneOrder ++ [hash] }
  trimTombstones inserted.tombstoneOrder.length inserted

def compactOrderQueuesIfNeeded (store : Store) : Store :=
  { store with
    metadataOrder :=
      if store.metadataOrder.length > store.metadataLimit * 2 then
        store.metadataOrder.filter fun entry => store.currentIncarnation entry.2 = some entry.1
      else store.metadataOrder
    projectionOrder :=
      if store.projectionOrder.length > store.cacheLimit * 2 then
        store.projectionOrder.filter fun entry => store.isCurrentProjection entry.1 entry.2
      else store.projectionOrder }

def dropRecord (hash : B256) (store : Store) : Store :=
  { store with
    candidates := store.candidates.erase hash
    deferredExecuted := store.deferredExecuted.erase hash
    projectionCount :=
      if (store.candidates.get hash).any (·.projection.isSome) then store.projectionCount - 1
      else store.projectionCount }

def removedParent (store : Store) (hash : B256) : Option B256 :=
  match store.deferredExecuted.get hash with
  | some deferred => some deferred.block.parentHash
  | none => (store.candidates.get hash).map (·.block.parentHash)

def removeRecord (hash : B256) (store : Store) : Store :=
  match store.removedParent hash with
  | some parent => (store.dropRecord hash).removeChild parent hash
  | none => store.dropRecord hash

def removeOne (hash : B256) (consensusTerminal : Bool) (store : Store) : Bool × Store :=
  let removed := store.removeRecord hash
  let marked := if consensusTerminal then removed.insertTombstone hash else removed
  (store.isTracked hash, marked.compactOrderQueuesIfNeeded)

-- `pending` is the stack of the source with its top first.
def removeTreeLoop (consensusTerminal : Bool) : Nat → List B256 → Store → Store
  | 0, _, store => store
  | _ + 1, [], store => store
  | fuel + 1, hash :: pending, store =>
    let children := (store.childrenByParent.get hash).getD []
    let detached := store.setChildren (store.childrenByParent.erase hash)
    removeTreeLoop consensusTerminal fuel (children.reverse ++ pending)
      (detached.removeOne hash consensusTerminal).2

def removeCandidateTree (root : B256) (consensusTerminal : Bool) (store : Store) : Store :=
  if root = store.canonicalHash then store
  else
    removeTreeLoop consensusTerminal (store.childrenByParent.total List.length + 1) [root] store

def evictProjection (hash : B256) (store : Store) : Store :=
  { store with
    candidates := store.candidates.modify hash fun entry =>
      { entry with projection := none, tracked := false }
    projectionCount := store.projectionCount - 1 }

def rotateOrEvict (incarnation : Nat) (oldest : B256) (store : Store) : List B256 × Store :=
  if oldest = store.canonicalHash then
    ([], store.setProjectionOrder (store.projectionOrder ++ [(incarnation, oldest)]))
  else (if store.isTracked oldest then [oldest] else [], store.evictProjection oldest)

def trimProjectionLoop (inserted : B256) :
    Nat → Nat → List B256 → Op Store Error (List B256)
  | 0, _, _, store => (.error .diverged, store)
  | fuel + 1, examined, retired, store =>
    if store.projectionCount > store.cacheLimit then
      match store.projectionOrder with
      | [] => (.ok retired, store)
      | (incarnation, oldest) :: rest =>
        let popped := store.setProjectionOrder rest
        if popped.isCurrentProjection incarnation oldest then
          let outcome := popped.rotateOrEvict incarnation oldest
          if examined + 1 > outcome.2.projectionOrder.length + 1 then
            (.error (.cannotEvict inserted), outcome.2)
          else trimProjectionLoop inserted fuel (examined + 1) (retired ++ outcome.1) outcome.2
        else trimProjectionLoop inserted fuel (examined + 1) retired popped
    else (.ok retired, store)

def trimProjectionCache (inserted : B256) : Op Store Error (List B256) := fun store =>
  trimProjectionLoop inserted (store.projectionOrder.length * 2 + 3) 0 [] store

def rotateOrRemove (incarnation : Nat) (hash : B256) (store : Store) : List B256 × Store :=
  if hash = store.canonicalHash then
    ([], store.setMetadataOrder (store.metadataOrder ++ [(incarnation, hash)]))
  else (if store.isTracked hash then [hash] else [], (store.removeOne hash false).2)

def trimMetadataLoop : Nat → List B256 → Op Store Error (List B256)
  | 0, _, store => (.error .diverged, store)
  | fuel + 1, retired, store =>
    if store.metadataLen > store.metadataLimit then
      match store.metadataOrder with
      | [] => (.error .metadataBound, store)
      | (incarnation, hash) :: rest =>
        let popped := store.setMetadataOrder rest
        if popped.currentIncarnation hash = some incarnation then
          let outcome := popped.rotateOrRemove incarnation hash
          trimMetadataLoop fuel (retired ++ outcome.1) outcome.2
        else trimMetadataLoop fuel retired popped
    else (.ok retired, store)

def trimMetadata : Op Store Error (List B256) := fun store =>
  trimMetadataLoop (store.metadataOrder.length * 2 + 2) [] store

def beginFinalitySweep (checkpoint : CheckpointMeta) (store : Store) : Store :=
  store.setSweep
    (some { checkpoint, pending := store.metadataOrder, classifications := ∅, active := none })

def queueFinalityCheck (incarnation : Nat) (hash : B256) (store : Store) : Store :=
  let queued : Option FinalitySweep :=
    match store.finalitySweep with
    | some sweep => some { sweep with pending := sweep.pending ++ [(incarnation, hash)] }
    | none => store.lastFinalized.map fun checkpoint =>
        { checkpoint, pending := [(incarnation, hash)], classifications := ∅, active := none }
  store.setSweep (queued.map fun sweep =>
    if sweep.pending.length > store.metadataLimit * 2 then
      { sweep with
        pending := sweep.pending.filter fun entry =>
          store.currentIncarnation entry.2 = some entry.1 }
    else sweep)

def refreshEntry (projection : Projection) (stage : CandidateStage) (tracked : Bool)
    (firstSequence : Nat) (expiresAt : Instant) (entry : CandidateEntry) : CandidateEntry :=
  { entry with
    block := projection.block
    projection := some projection
    stage := stage
    firstSequence := if tracked && !entry.tracked then firstSequence else entry.firstSequence
    tracked := entry.tracked || tracked
    expiresAt := expiresAt }

def gainProjection (incarnation : Nat) (hash : B256) (store : Store) : Store :=
  { store with
    projectionCount := store.projectionCount + 1
    projectionOrder := store.projectionOrder ++ [(incarnation, hash)] }

def newEntry (projection : Projection) (stage : CandidateStage) (tracked : Bool)
    (firstSequence incarnation : Nat) (expiresAt : Instant) : CandidateEntry where
  block := projection.block
  projection := some projection
  stage := stage
  tracked := tracked
  firstSequence := firstSequence
  incarnation := incarnation
  expiresAt := expiresAt

def enlist (incarnation : Nat) (block : BlockMeta) (store : Store) : Store :=
  let listed := store.addChild block.parentHash block.hash
  (listed.setMetadataOrder (listed.metadataOrder ++ [(incarnation, block.hash)])).queueFinalityCheck
    incarnation block.hash

def setCandidate (hash : B256) (entry : CandidateEntry) (store : Store) : Store :=
  { store with
    candidates := store.candidates.insert hash entry
    deferredExecuted := store.deferredExecuted.erase hash }

def setDeferred (record : DeferredExecuted) (store : Store) : Store :=
  { store with deferredExecuted := store.deferredExecuted.insert record.block.hash record }

/-- `insert_candidate` up to the trimming of the two caches. -/
def placeCandidate (now : Instant) (projection : Projection) (stage : CandidateStage)
    (tracked : Bool) (firstSequence : Nat) (store : Store) : Store :=
  let hash := projection.block.hash
  let expiresAt := now + store.candidateRetention
  match store.candidates.get hash, store.deferredExecuted.get hash with
  | some entry, _ =>
    let updated := store.setCandidate hash
      (refreshEntry projection stage tracked firstSequence expiresAt entry)
    if entry.projection.isSome then updated else updated.gainProjection entry.incarnation hash
  | none, some deferred =>
    (store.setCandidate hash (newEntry projection stage tracked firstSequence deferred.incarnation
      expiresAt)).gainProjection deferred.incarnation hash
  | none, none =>
    let (incarnation, allocated) := store.allocateIncarnation
    ((allocated.setCandidate hash (newEntry projection stage tracked firstSequence incarnation
      expiresAt)).enlist incarnation projection.block).gainProjection incarnation hash

/-- `insert_deferred_executed` up to the trimming of the metadata. -/
def placeDeferred (now : Instant) (block : BlockMeta) (changes : BlockChanges) (store : Store) :
    Store :=
  let expiresAt := now + store.candidateRetention
  match store.deferredExecuted.get block.hash with
  | some deferred =>
    store.setDeferred { block, changes, incarnation := deferred.incarnation, expiresAt }
  | none =>
    let (incarnation, allocated) := store.allocateIncarnation
    (allocated.setDeferred { block, changes, incarnation, expiresAt }).enlist incarnation block

def advanceFinalityWalk (store : Store) (walk : FinalityWalk) (finalized : CheckpointMeta) :
    FinalityClassification ⊕ FinalityWalk :=
  match store.blockMeta walk.current with
  | none => .inl .unknown
  | some block =>
    if block.number = finalized.number then
      .inl (if block.hash = finalized.hash then .compatible else .conflict)
    else if block.number < finalized.number then .inl .compatible
    else
      match store.blockMeta block.parentHash with
      | none => .inl (if block.parentHash ∈ store.tombstones then .conflict else .unknown)
      | some parent =>
        if parent.number + 1 ≠ block.number then .inl .unknown
        else .inr { walk with path := walk.path ++ [walk.current], current := parent.hash }

inductive SweepOutcome where
  | finished
  | progressed (sweep : FinalitySweep) (retired : List B256) (store : Store)

def memoize (walk : FinalityWalk) (classification : FinalityClassification)
    (sweep : FinalitySweep) : FinalitySweep :=
  if classification = .unknown then sweep
  else
    { sweep with
      classifications := (walk.current :: walk.path).foldl
        (fun table hash => table.insert hash classification) sweep.classifications }

def settleWalk (sweep : FinalitySweep) (walk : FinalityWalk)
    (classification : FinalityClassification) (store : Store) : SweepOutcome :=
  if classification = .conflict ∧ store.currentIncarnation walk.root = some walk.incarnation then
    .progressed (memoize walk classification sweep)
      (if store.isTracked walk.root then [walk.root] else []) (store.removeOne walk.root true).2
  else .progressed (memoize walk classification sweep) [] store

def classifyStep (sweep : FinalitySweep) (walk : FinalityWalk) (store : Store) :
    FinalityClassification ⊕ FinalityWalk :=
  match sweep.classifications.get walk.current with
  | some classification => .inl classification
  | none => store.advanceFinalityWalk walk sweep.checkpoint

def continueWalk (sweep : FinalitySweep) (walk : FinalityWalk) (store : Store) : SweepOutcome :=
  match classifyStep sweep walk store with
  | .inl classification => settleWalk sweep walk classification store
  | .inr moved => .progressed { sweep with active := some moved } [] store

def sweepStep (sweep : FinalitySweep) (store : Store) : SweepOutcome :=
  match sweep.active with
  | some walk => continueWalk { sweep with active := none } walk store
  | none =>
    match sweep.pending with
    | [] => .finished
    | (incarnation, hash) :: rest =>
      let popped := { sweep with pending := rest }
      if store.currentIncarnation hash ≠ some incarnation ∨ hash = store.canonicalHash then
        .progressed popped [] store
      else
        continueWalk popped { incarnation, root := hash, current := hash, path := [] } store

def sweepLoop : Nat → Nat → List B256 → FinalitySweep → Store →
    (Nat × List B256 × FinalitySweep) × Store
  | 0, work, retired, sweep, store => ((work, retired, sweep), store)
  | budget + 1, work, retired, sweep, store =>
    match sweepStep sweep store with
    | .finished => ((work, retired, sweep), store)
    | .progressed sweep conflicting store =>
      sweepLoop budget (work + 1) (retired ++ conflicting) sweep store

/-- `process_finality_budget` before its publication: the work done and the retired hashes. -/
def processFinalityBudget (budget : Nat) (store : Store) : (Nat × List B256) × Store :=
  match store.finalitySweep with
  | none => ((0, []), store)
  | some sweep =>
    let ((work, retired, swept), after) :=
      sweepLoop budget 0 [] sweep (store.setSweep none)
    ((work, retired),
      if swept.pending = [] ∧ swept.active.isNone then after else after.setSweep (some swept))

/-- The records due at `now`, in the iteration order that `rank` gives the two hash maps. -/
def dueRecords (now : Instant) (rank : B256 → Nat) (budget : Nat) (store : Store) : List B256 :=
  let order (hashes : List B256) : List B256 :=
    hashes.insertionSort (fun left right => rank left ≤ rank right)
  let candidates := ((order store.candidates.keys).filter fun hash =>
    hash ≠ store.canonicalHash ∧ (store.candidates.get hash).any (·.expiresAt ≤ now)).take budget
  candidates ++ ((order store.deferredExecuted.keys).filter fun hash =>
    hash ≠ store.canonicalHash ∧ (store.deferredExecuted.get hash).any (·.expiresAt ≤ now)).take
      (budget - candidates.length)

def removeEach : List B256 → List B256 → Store → List B256 × Store
  | [], expired, store => (expired, store)
  | hash :: rest, expired, store =>
    removeEach rest (expired ++ if store.isTracked hash then [hash] else [])
      (store.removeOne hash false).2

def scheduleExpiry (now : Instant) (hash : B256) (store : Store) : Store :=
  if hash = store.canonicalHash then store
  else
    match store.candidates.get hash with
    | some _ =>
      { store with
        candidates := store.candidates.modify hash fun entry =>
          { entry with expiresAt := now + store.candidateRetention } }
    | none =>
      { store with
        deferredExecuted := store.deferredExecuted.modify hash fun entry =>
          { entry with expiresAt := now + store.candidateRetention } }

def resetCandidates (now : Instant) (projection : Projection) (view : ForkchoiceMeta)
    (store : Store) : Store :=
  let hash := projection.block.hash
  let (incarnation, allocated) := store.allocateIncarnation
  { allocated with
    canonicalHash := hash
    lastFinalized := view.finalized
    candidates := (∅ : Table B256 CandidateEntry).insert hash
      { block := projection.block, projection := some projection, stage := .validated,
        tracked := true, firstSequence := 0, incarnation,
        expiresAt := now + store.candidateRetention }
    deferredExecuted := ∅
    childrenByParent := ∅
    projectionOrder := [(incarnation, hash)]
    metadataOrder := [(incarnation, hash)]
    tombstones := ∅
    tombstoneOrder := []
    finalitySweep := none
    projectionCount := 1
    anchorIncarnation := incarnation }

def newConfigured (now : Instant) (initial : Projection) (initialForkchoice : ForkchoiceMeta)
    (policy : CandidatePolicy) : Store where
  candidates := (∅ : Table B256 CandidateEntry).insert initial.block.hash
    { block := initial.block, projection := some initial, stage := .validated, tracked := true,
      firstSequence := 0, incarnation := 1, expiresAt := now + policy.retention }
  deferredExecuted := ∅
  childrenByParent := ∅
  projectionOrder := [(1, initial.block.hash)]
  metadataOrder := [(1, initial.block.hash)]
  tombstones := ∅
  tombstoneOrder := []
  nextIncarnation := 2
  projectionCount := 1
  cacheLimit := policy.projectionLimit
  metadataLimit := policy.metadataLimit
  candidateRetention := policy.retention
  retirementWorkBudget := policy.workBudget
  canonicalHash := initial.block.hash
  lastFinalized := initialForkchoice.finalized
  finalitySweep := none
  anchorIncarnation := 1

end Store

end Statefeed
