import Mathlib.Data.Nat.Log
import Statefeed.Library.Chunks
import Statefeed.Library.Effect
import Statefeed.Model.Config
import Statefeed.Model.Store

set_option autoImplicit false

namespace Statefeed

open Effect

structure PublishedState where
  canonical : Projection
  forkchoice : Option ForkchoiceMeta
  effectiveSequence : Nat
  recovering : Bool

-- A frame given to the broadcast ring, with the handshake state stored just before it.
structure PublishedFrame where
  envelope : Wire.Envelope
  stored : Option PublishedState

structure Shared where
  bootId : Bytes
  chainId : Nat
  genesisHash : B256
  sequence : Nat
  publishedSequence : Nat
  maxFrameBytes : Nat
  capabilities : Nat
  published : PublishedState
  -- Every frame sent; the broadcast channel keeps the last `ring` of them.
  frames : List PublishedFrame
  ring : Nat

structure CanonicalSnapshot where
  projection : Projection
  anchoredAt : Instant
  forkchoice : ForkchoiceMeta

inductive ClockSite where
  | insertCandidate | insertDeferred | maintain | scheduleExpiry | resetCandidates

/-- What one publisher operation reads from outside: its clocks, the snapshot source and the
iteration order of the hash maps. -/
structure Env where
  now : ClockSite → Instant
  elapsedNs : Nat → Nat
  loadLatest : WatchSet → Option CanonicalSnapshot
  loadAt : WatchSet → B256 → Option Projection
  rank : B256 → Nat

structure Publisher where
  shared : Shared
  store : Store
  snapshotAnchoredAt : Instant
  -- The watch set of the producer, read by the engine callbacks.
  activeWatchSet : WatchSet

def advertisedCapabilities (publishExecuted : Bool) : Nat :=
  Wire.capFullProjections + Wire.capValidated + Wire.capCanonical + Wire.capRejected +
    Wire.capForkchoiceApplied + Wire.capCandidateRetirement +
    if publishExecuted then Wire.capExecuted else 0

def serviceVersion : String := "0.1.0"

def blockRef (block : BlockMeta) : Wire.BlockRef where
  number := block.number
  hash := B256.toVec block.hash
  parentHash := B256.toVec block.parentHash
  timestamp := block.timestamp

def checkpointRef (checkpoint : CheckpointMeta) : Wire.CheckpointRef where
  number := checkpoint.number
  hash := B256.toVec checkpoint.hash

def forkchoiceView (view : ForkchoiceMeta) : Wire.ForkchoiceView where
  head := some (checkpointRef view.head)
  safe := view.safe.map checkpointRef
  finalized := view.finalized.map checkpointRef

def blockState (projection : Projection) (stage : Wire.BlockStage) : Wire.BlockState where
  stage := stage.code
  block := some (blockRef projection.block)
  values := projection.values
  changedBitmap := projection.changedBitmap

def snapshot (projection : Projection) (forkchoice : ForkchoiceMeta) : Wire.Snapshot where
  block := some (blockRef projection.block)
  values := projection.values
  forkchoice := some (forkchoiceView forkchoice)

def configActivated (watchSet : WatchSet) : Wire.ConfigActivated where
  keys := watchSet.keys.map fun key =>
    { keyId := key.keyId, id := key.id, address := Address.toVec key.address,
      slot := B256.toVec key.slot }

namespace Shared

def hello (shared : Shared) : Wire.Hello where
  serviceVersion := serviceVersion
  chainId := shared.chainId
  genesisHash := B256.toVec shared.genesisHash
  capabilities := shared.capabilities

def envelope (env : Env) (shared : Shared) (sequence : Nat) (generation : Generation)
    (event : Wire.Event) : Wire.Envelope where
  protocolVersion := Wire.protocolVersion
  bootId := shared.bootId
  sequence := sequence
  configGeneration := generation
  emittedAtMonotonicNs := min (env.elapsedNs sequence) (2 ^ 64 - 1)
  event := some event

def publishInner (env : Env) (generation : Generation) (event : Wire.Event)
    (nextState : Option (Projection × Option ForkchoiceMeta × Bool)) : Op Shared Error Nat :=
  fun shared =>
    let sequence := shared.sequence + 1
    let allocated := { shared with sequence := sequence }
    match Wire.encodeFrame (shared.envelope env sequence generation event) shared.maxFrameBytes with
    | .error failure => (.error (.encode failure), allocated)
    | .ok frame =>
      let stored : Option PublishedState :=
        nextState.map fun (canonical, forkchoice, recovering) =>
          { canonical, forkchoice, effectiveSequence := sequence, recovering }
      (.ok sequence,
        { allocated with
          published := stored.getD shared.published
          publishedSequence := sequence
          frames := shared.frames ++ [{ envelope := frame.payload, stored }] })

def publish (env : Env) (generation : Generation) (event : Wire.Event) : Op Shared Error Nat :=
  publishInner env generation event none

def publishState (env : Env) (generation : Generation) (event : Wire.Event)
    (canonical : Projection) (forkchoice : Option ForkchoiceMeta) (recovering : Bool) :
    Op Shared Error Nat :=
  publishInner env generation event (some (canonical, forkchoice, recovering))

-- Keeps retirement batches below the frame bound.
def batchSize (shared : Shared) : Nat := max (max (shared.maxFrameBytes - 256) 32 / 34) 1

def publishRetired (env : Env) (generation : Generation) (hashes : List B256)
    (reason : Wire.RetirementReason) : Op Shared Error Unit := do
  let shared ← Op.get
  Op.forEach (Chunks.chunks shared.batchSize hashes) fun batch => do
    let _ ← publish env generation
      (.candidatesRetired { blockHashes := batch.map B256.toVec, reason := reason.code })

-- The envelope with the widest sequence and emission time.
def widestEnvelope (shared : Shared) (generation : Generation) (event : Wire.Event) :
    Wire.Envelope where
  protocolVersion := Wire.protocolVersion
  bootId := shared.bootId
  sequence := 2 ^ 64 - 1
  configGeneration := generation
  emittedAtMonotonicNs := 2 ^ 64 - 1
  event := some event

def validateEventFrame (shared : Shared) (generation : Generation) (event : Wire.Event) :
    Except Error Unit :=
  match Wire.encodeFrame (shared.widestEnvelope generation event) shared.maxFrameBytes with
  | .error failure => .error (.encode failure)
  | .ok _ => .ok ()

end Shared

def validateProjectionDictionary (projection : Projection) (expected : WatchSet) :
    Except Error Unit :=
  if projection.watchSet.generation = expected.generation ∧
      projection.watchSet.keys = expected.keys then .ok ()
  else .error .dictionaryMismatch

def validateForkchoiceCheckpoints (view : ForkchoiceMeta) : Except Error Unit :=
  if view.safe.any (view.head.number < ·.number) ∨
      view.finalized.any (view.head.number < ·.number) then
    .error .checkpointAheadOfHead
  else
    match view.safe, view.finalized with
    | some safe, some finalized =>
      if safe.number < finalized.number then .error .finalizedAheadOfSafe else .ok ()
    | _, _ => .ok ()

def validateSnapshotView (loaded : CanonicalSnapshot) : Except Error Unit :=
  if loaded.forkchoice.head.number ≠ loaded.projection.block.number ∨
      loaded.forkchoice.head.hash ≠ loaded.projection.block.hash then
    .error .snapshotHeadMismatch
  else validateForkchoiceCheckpoints loaded.forkchoice

def bitmapLen (keyCount : Nat) : Nat := (keyCount + 7) / 8

def validateProjectionShape (projection : Projection) : Except Error Unit :=
  if projection.values.length ≠ projection.watchSet.len * 32 then
    .error (.projectionLength projection.block.hash)
  else if projection.changedBitmap ≠ [] ∧
      projection.changedBitmap.length ≠ bitmapLen projection.watchSet.len then
    .error (.bitmapLength projection.block.hash)
  else .ok ()

def validateProjectionFrames (shared : Shared) (projection : Projection)
    (forkchoice : ForkchoiceMeta) : Except Error Unit := do
  validateProjectionShape projection
  let generation := projection.watchSet.generation
  let fullBitmap : Bytes := List.replicate (bitmapLen projection.watchSet.len) 0xff
  shared.validateEventFrame generation (.snapshot (snapshot projection forkchoice))
  shared.validateEventFrame generation
    (.blockState { blockState projection .validated with changedBitmap := fullBitmap })
  shared.validateEventFrame generation
    (.canonicalHead
      { previousBlockHash := B256.toVec 0, block := some (blockRef projection.block),
        values := projection.values, changedBitmap := fullBitmap })

def validateHandshakeFrames (shared : Shared) (projection : Projection)
    (forkchoice : ForkchoiceMeta) : Except Error Unit := do
  let generation := projection.watchSet.generation
  shared.validateEventFrame generation (.hello shared.hello)
  shared.validateEventFrame generation (.configActivated (configActivated projection.watchSet))
  validateProjectionFrames shared projection forkchoice

def chunk (values : Bytes) (index : Nat) : Bytes := Slots.slot 32 values index

def setBit (bitmap : Bytes) (index : Nat) : Bytes :=
  bitmap.modify (index / 8) fun byte => byte ||| (1 <<< UInt8.ofNat (index % 8))

def replaceChunk (values : Bytes) (index : Nat) (next : Bytes) : Bytes :=
  Slots.setSlot 32 values index next

def applyChanges : BlockChanges → Bytes → Bytes → Except Error (Bytes × Bytes)
  | [], values, bitmap => .ok (values, bitmap)
  | change :: rest, values, bitmap =>
    if 32 * change.keyId + 32 ≤ values.length then
      let next := U256.toBeBytes change.newValue
      if chunk values change.keyId = next then applyChanges rest values bitmap
      else applyChanges rest (replaceChunk values change.keyId next) (setBit bitmap change.keyId)
    else .error (.invalidKeyId change.keyId)

def canonicalChangedBitmap (previous next : Projection) : Except Error Bytes :=
  let length := bitmapLen next.watchSet.len
  if previous.watchSet.generation ≠ next.watchSet.generation ∨
      previous.values.length ≠ next.values.length then
    .error .incomparableProjections
  else if next.block.parentHash = previous.block.hash ∧ next.changedBitmap.length = length then
    .ok next.changedBitmap
  else
    .ok (((List.range (next.values.length / 32)).filter fun index =>
      chunk previous.values index ≠ chunk next.values index).foldl setBit (List.replicate length 0))

namespace Publisher

def active (publisher : Publisher) : WatchSet := publisher.shared.published.canonical.watchSet

def onShared {α : Type} (op : Op Shared Error α) : Op Publisher Error α :=
  Op.focus Publisher.shared (fun shared publisher => { publisher with shared }) op

def onStore {α : Type} (op : Op Store Error α) : Op Publisher Error α :=
  Op.focus Publisher.store (fun store publisher => { publisher with store }) op

/-- The end of `insert_candidate`: both caches are brought back under their limits. -/
def enforceLimits (env : Env) (projection : Projection) : Op Publisher Error Unit := do
  let evicted ← onStore (Store.trimProjectionCache projection.block.hash)
  onShared (Shared.publishRetired env projection.watchSet.generation evicted .cacheEvicted)
  let removed ← onStore Store.trimMetadata
  onShared (Shared.publishRetired env projection.watchSet.generation removed .cacheEvicted)

def insertCandidate (env : Env) (projection : Projection) (stage : CandidateStage)
    (tracked : Bool) (firstSequence : Nat) : Op Publisher Error Unit := do
  onStore (Op.modify (Store.placeCandidate (env.now .insertCandidate) projection stage tracked
    firstSequence))
  enforceLimits env projection

def insertDeferredExecuted (env : Env) (block : BlockMeta) (changes : BlockChanges) :
    Op Publisher Error Unit := do
  let publisher ← Op.get
  if block.hash ∈ publisher.store.tombstones then pure ()
  else if (publisher.store.candidates.get block.hash).isSome then pure ()
  else
    onStore (Op.modify (Store.placeDeferred (env.now .insertDeferred) block changes))
    let removed ← onStore Store.trimMetadata
    onShared (Shared.publishRetired env publisher.active.generation removed .cacheEvicted)

def processFinalityBudget (env : Env) (generation : Generation) (budget : Nat) :
    Op Publisher Error Nat := do
  let swept ← onStore (Op.step (Store.processFinalityBudget budget))
  onShared (Shared.publishRetired env generation swept.2 .finalizedConflict)
  pure swept.1

def maintain (env : Env) : Op Publisher Error Unit := do
  let publisher ← Op.get
  let finalityWork ← processFinalityBudget env publisher.active.generation
    publisher.store.retirementWorkBudget
  let swept ← Op.get
  let expired ← onStore (Op.step (Store.removeEach (swept.store.dueRecords (env.now .maintain)
    env.rank (publisher.store.retirementWorkBudget - finalityWork)) []))
  onShared (Shared.publishRetired env publisher.active.generation expired .retentionExpired)

def setStage (hash : B256) (stage : CandidateStage) (store : Store) : Store :=
  { store with candidates := store.candidates.modify hash fun entry => { entry with stage } }

/-- `promote_validated` for a hash that has a candidate record. -/
def promoteCandidate (env : Env) (generation : Generation) (blockHash : B256)
    (candidate : CandidateEntry) : Op Publisher Error Bool :=
  if candidate.stage = .validated then pure false
  else
    match candidate.projection with
    | none => do
      onStore (Op.modify (setStage blockHash .validated))
      pure false
    | some projection =>
      if projection.watchSet.generation ≠ generation then pure false
      else do
        let _ ← onShared (Shared.publish env generation
          (.blockValidated { blockHash := B256.toVec blockHash }))
        onStore (Op.modify (setStage blockHash .validated))
        pure true

def inheritedValues (watchSet : WatchSet) (generation : Generation) (block : BlockMeta)
    (parent : Projection) : Except Error Bytes :=
  if 2 ^ 64 ≤ parent.block.number + 1 then .error (.parentNumberOverflow block.hash)
  else if block.number ≠ parent.block.number + 1 then
    .error (.invalidAncestry block.hash block.parentHash)
  else if parent.watchSet.generation ≠ generation ∨
      parent.values.length ≠ watchSet.len * 32 then
    .error (.generationMismatch block.hash)
  else .ok parent.values

def loadedValues (watchSet : WatchSet) (block : BlockMeta) (parent : Projection) :
    Except Error Bytes := do
  validateProjectionDictionary parent watchSet
  if 2 ^ 64 ≤ parent.block.number + 1 then .error (.parentNumberOverflow block.hash)
  else if parent.block.hash ≠ block.parentHash ∨ parent.block.number + 1 ≠ block.number then
    .error (.parentProjectionMismatch block.hash block.parentHash)
  else
    validateProjectionShape parent
    .ok parent.values

def assembled (watchSet : WatchSet) (block : BlockMeta) (applied : Bytes × Bytes) :
    Projection where
  block := block
  watchSet := watchSet
  values := applied.1
  changedBitmap := applied.2

/-- The tail of `project_candidate`: the projection over its parent's values. -/
def publishProjection (env : Env) (generation : Generation) (block : BlockMeta)
    (changes : BlockChanges) (stage : CandidateStage) (inherited : Bytes) :
    Op Publisher Error Bool := do
  let publisher ← Op.get
  let applied ← Op.ofExcept
    (applyChanges changes inherited (List.replicate (bitmapLen publisher.active.len) 0))
  let firstSequence ← onShared (Shared.publish env generation
    (.blockState (blockState (assembled publisher.active block applied) stage.wire)))
  insertCandidate env (assembled publisher.active block applied) stage true firstSequence
  pure true

def parentProjection (store : Store) (block : BlockMeta) : Option Projection :=
  (store.candidates.get block.parentHash).bind CandidateEntry.projection

/-- `project_candidate` past the checks for an already known hash. -/
def projectNew (env : Env) (generation : Generation) (block : BlockMeta)
    (changes : BlockChanges) (stage : CandidateStage) : Op Publisher Error Bool := do
  let publisher ← Op.get
  if block.number ≤ publisher.shared.published.canonical.block.number ∧
      (publisher.store.candidates.get block.parentHash).isNone then pure false
  else
    match parentProjection publisher.store block with
    | some parent =>
      let values ← Op.ofExcept (inheritedValues publisher.active generation block parent)
      publishProjection env generation block changes stage values
    | none =>
      match stage with
      | .executed =>
        insertDeferredExecuted env block changes
        pure false
      | .validated =>
        match env.loadAt publisher.active block.parentHash with
        | none => pure false
        | some parent =>
          let values ← Op.ofExcept (loadedValues publisher.active block parent)
          publishProjection env generation block changes stage values

def projectCandidate (env : Env) (generation : Generation) (block : BlockMeta)
    (changes : BlockChanges) (stage : CandidateStage) : Op Publisher Error Bool := do
  let publisher ← Op.get
  if generation < publisher.active.generation then pure false
  else if generation > publisher.active.generation then
    Op.throw (.generationAhead generation publisher.active.generation)
  else if block.hash ∈ publisher.store.tombstones then pure false
  else
    match publisher.store.candidates.get block.hash with
    | none => projectNew env generation block changes stage
    | some candidate =>
      if candidate.block ≠ block then Op.throw (.inconsistentMetadata block.hash)
      else if candidate.projection.isSome then
        if stage = .validated ∧ candidate.stage = .executed then
          promoteCandidate env generation block.hash candidate
        else pure false
      else projectNew env generation block changes stage

def promoteValidated (env : Env) (generation : Generation) (blockHash : B256) :
    Op Publisher Error Bool := do
  let publisher ← Op.get
  if generation < publisher.active.generation then pure false
  else if generation > publisher.active.generation then
    Op.throw (.generationAhead generation publisher.active.generation)
  else
    match publisher.store.candidates.get blockHash with
    | some candidate => promoteCandidate env generation blockHash candidate
    | none =>
      match publisher.store.deferredExecuted.get blockHash with
      | none => pure false
      | some deferred => projectCandidate env generation deferred.block deferred.changes .validated

def rejected (env : Env) (generation : Generation) (blockHash : B256) (reason : String) :
    Op Publisher Error Bool := do
  let publisher ← Op.get
  if generation < publisher.active.generation then pure false
  else if generation > publisher.active.generation then
    Op.throw (.generationAhead generation publisher.active.generation)
  else if (publisher.store.candidates.get blockHash).any (·.stage = .executed) ∨
      (publisher.store.deferredExecuted.get blockHash).isSome then
    let _ ← onShared (Shared.publish env generation
      (.blockRejected { blockHash := B256.toVec blockHash, reason }))
    onStore (Op.modify (Store.removeCandidateTree blockHash true))
    pure true
  else pure false

def canonicalProjection (env : Env) (publisher : Publisher) (generation : Generation)
    (blockHash : B256) : Except Error Projection :=
  let cached :=
    if generation = publisher.active.generation then
      (publisher.store.candidates.get blockHash).bind CandidateEntry.projection
    else none
  match cached with
  | some projection => .ok projection
  | none =>
    match env.loadAt publisher.active blockHash with
    | some projection => .ok projection
    | none => .error .source

def commitCanonical (now : Instant) (blockHash : B256) (sequence : Nat) (store : Store) : Store :=
  let scheduled :=
    Store.scheduleExpiry now store.canonicalHash { store with canonicalHash := blockHash }
  { scheduled with
    candidates := scheduled.candidates.modify blockHash fun entry =>
      if entry.firstSequence = 0 then { entry with firstSequence := sequence } else entry }

def publishCanonical (env : Env) (projection : Projection) (changedBitmap : Bytes) :
    Op Publisher Error Bool := do
  let publisher ← Op.get
  insertCandidate env projection .validated true 0
  let sequence ← onShared (Shared.publishState env projection.watchSet.generation
    (.canonicalHead
      { previousBlockHash := B256.toVec publisher.store.canonicalHash
        block := some (blockRef projection.block)
        values := projection.values
        changedBitmap })
    projection none false)
  onStore (Op.modify (commitCanonical (env.now .scheduleExpiry) projection.block.hash sequence))
  pure true

def canonical (env : Env) (generation : Generation) (observedAt : Instant)
    (expectedBlockNumber : Option Nat) (blockHash : B256) : Op Publisher Error Bool := do
  let publisher ← Op.get
  if generation > publisher.active.generation then
    Op.throw (.generationAhead generation publisher.active.generation)
  else if observedAt ≤ publisher.snapshotAnchoredAt then pure false
  else if blockHash = publisher.shared.published.canonical.block.hash then pure false
  else
    let projection ← Op.ofExcept (canonicalProjection env publisher generation blockHash)
    Op.ofExcept (validateProjectionDictionary projection publisher.active)
    if projection.block.hash ≠ blockHash ∨
        expectedBlockNumber.any (projection.block.number ≠ ·) then
      Op.throw (.canonicalIdentityMismatch blockHash)
    else
      Op.ofExcept (validateProjectionShape projection)
      let changedBitmap ← Op.ofExcept (canonicalChangedBitmap
        publisher.shared.published.canonical projection)
      publishCanonical env projection changedBitmap

def publishView (env : Env) (view : ForkchoiceMeta) : Op Publisher Error Bool := do
  let publisher ← Op.get
  Op.ofExcept (validateForkchoiceCheckpoints view)
  let _ ← onShared (Shared.publishState env publisher.active.generation
    (.forkchoiceApplied { view := some (forkchoiceView view) })
    publisher.shared.published.canonical (some view) false)
  match view.finalized with
  | some finalized =>
    if some finalized ≠ publisher.store.lastFinalized then
      onStore (Op.modify fun store =>
        { store with lastFinalized := some finalized }.beginFinalitySweep finalized)
      let _ ← processFinalityBudget env publisher.active.generation
        publisher.store.retirementWorkBudget
      pure true
    else pure true
  | none => pure true

/-- The tail of `forkchoice_applied`, once the canonical projection is the applied head. -/
def publishForkchoice (env : Env) (applied : AppliedForkchoiceMeta) :
    Op Publisher Error Bool := do
  let publisher ← Op.get
  if publisher.shared.published.canonical.block.hash ≠ applied.headHash then
    Op.throw (.headMismatch applied.headHash publisher.shared.published.canonical.block.hash)
  else
    publishView env (applied.resolve publisher.shared.published.canonical.block.number)

def forkchoiceApplied (env : Env) (generation : Generation) (observedAt : Instant)
    (applied : AppliedForkchoiceMeta) : Op Publisher Error Bool := do
  let publisher ← Op.get
  if generation > publisher.active.generation then
    Op.throw (.generationAhead generation publisher.active.generation)
  else if observedAt ≤ publisher.snapshotAnchoredAt then pure false
  else if publisher.store.canonicalHash ≠ applied.headHash then
    let _ ← canonical env generation observedAt none applied.headHash
    publishForkchoice env applied
  else publishForkchoice env applied

def announceGap (env : Env) (reason : String) : Op Publisher Error Unit := do
  let publisher ← Op.get
  let _ ← onShared (Shared.publishState env publisher.active.generation
    (.gap { lastContiguousSequence := publisher.shared.publishedSequence, reason })
    publisher.shared.published.canonical none true)

/-- Loads and checks the snapshot that `activate` and `reanchor` install. -/
def loadSnapshot (env : Env) (watchSet : WatchSet) : Op Publisher Error CanonicalSnapshot :=
  match env.loadLatest watchSet with
  | none => Op.throw .source
  | some loaded => do
    Op.ofExcept (validateSnapshotView loaded)
    Op.ofExcept (validateProjectionDictionary loaded.projection watchSet)
    pure loaded

def installSnapshot (env : Env) (loaded : CanonicalSnapshot) (publisher : Publisher) : Publisher :=
  { publisher with
    snapshotAnchoredAt := loaded.anchoredAt
    store := publisher.store.resetCandidates (env.now .resetCandidates) loaded.projection
      loaded.forkchoice }

def reanchor (env : Env) : Op Publisher Error Unit := do
  let publisher ← Op.get
  let loaded ← loadSnapshot env publisher.active
  Op.ofExcept (validateProjectionFrames publisher.shared loaded.projection loaded.forkchoice)
  Op.modify (installSnapshot env loaded)
  let _ ← onShared (Shared.publishState env loaded.projection.watchSet.generation
    (.snapshot (snapshot loaded.projection loaded.forkchoice)) loaded.projection
    (some loaded.forkchoice) false)

def activate (env : Env) (watchSet : WatchSet) : Op Publisher Error Unit := do
  let publisher ← Op.get
  if watchSet.generation ≤ publisher.active.generation then pure ()
  else
    let loaded ← loadSnapshot env watchSet
    Op.ofExcept (publisher.shared.validateEventFrame watchSet.generation
      (.configActivated (configActivated watchSet)))
    Op.ofExcept (validateProjectionFrames publisher.shared loaded.projection loaded.forkchoice)
    Op.modify (installSnapshot env loaded)
    let _ ← onShared (Shared.publishState env watchSet.generation
      (.configActivated (configActivated watchSet)) loaded.projection (some loaded.forkchoice) false)
    let _ ← onShared (Shared.publish env watchSet.generation
      (.snapshot (snapshot loaded.projection loaded.forkchoice)))
    Op.modify fun publisher => { publisher with activeWatchSet := watchSet }

def canonicalStateReset (env : Env) (generation : Generation) (observedAt : Instant) :
    Op Publisher Error Unit := do
  let publisher ← Op.get
  if generation > publisher.active.generation then
    Op.throw (.generationAhead generation publisher.active.generation)
  else if observedAt ≤ publisher.snapshotAnchoredAt then pure ()
  else
    announceGap env "canonical_state_reset"
    reanchor env

def handle (env : Env) (event : FeedEvent) : Op Publisher Error Unit := do
  let publisher ← Op.get
  match event with
  | .executed observedAt generation block changes =>
    if observedAt ≤ publisher.snapshotAnchoredAt then pure ()
    else
      let _ ← projectCandidate env generation block changes .executed
  | .validated _ generation blockHash =>
    let _ ← promoteValidated env generation blockHash
  | .validatedFallback observedAt generation block changes =>
    if observedAt ≤ publisher.snapshotAnchoredAt then pure ()
    else
      let _ ← projectCandidate env generation block changes .validated
  | .canonicalStateReset observedAt generation _ => canonicalStateReset env generation observedAt
  | .forkchoiceApplied observedAt generation view =>
    let _ ← forkchoiceApplied env generation observedAt view
  | .rejected _ generation blockHash reason =>
    let _ ← rejected env generation blockHash reason

def handleControl (env : Env) (watchSet : WatchSet) : Op Publisher Error Bool := fun publisher =>
  match activate env watchSet publisher with
  | (.ok _, after) => (.ok true, after)
  | (.error _, after) => (.ok false, after)

structure ServiceOptions where
  stream : StreamConfig
  chainId : Nat
  genesisHash : B256
  bootId : Bytes

def candidatePolicy (stream : StreamConfig) : CandidatePolicy where
  projectionLimit := stream.candidateCacheBlocks
  metadataLimit := stream.candidateMetadataEntries
  retention := stream.candidateRetention
  workBudget := stream.retirementWorkBudget

-- `broadcast::channel` rounds its capacity up to a power of two.
def broadcastCapacity (buffer : Nat) : Nat := 2 ^ Nat.clog 2 buffer

def initial (env : Env) (options : ServiceOptions) (watchSet : WatchSet)
    (loaded : CanonicalSnapshot) : Publisher where
  shared :=
    { bootId := options.bootId
      chainId := options.chainId
      genesisHash := options.genesisHash
      sequence := 0
      publishedSequence := 0
      maxFrameBytes := options.stream.maxFrameBytes
      capabilities := advertisedCapabilities options.stream.publishExecuted
      published :=
        { canonical := loaded.projection
          forkchoice := some loaded.forkchoice
          effectiveSequence := 0
          recovering := false }
      frames := []
      ring := broadcastCapacity options.stream.consumerBuffer }
  store := Store.newConfigured (env.now .resetCandidates) loaded.projection loaded.forkchoice
    (candidatePolicy options.stream)
  snapshotAnchoredAt := loaded.anchoredAt
  activeWatchSet := watchSet

/-- `start_service` up to the publisher thread; `none` stands for its error return. -/
def startService (env : Env) (options : ServiceOptions) (watchSet : WatchSet) :
    Option Publisher := do
  let _ ← options.stream.validate.toOption
  if watchSet.len = 0 then none
  else
    let loaded ← env.loadLatest watchSet
    let _ ← (validateProjectionDictionary loaded.projection watchSet).toOption
    let _ ← (validateSnapshotView loaded).toOption
    let publisher := initial env options watchSet loaded
    let _ ← (validateHandshakeFrames publisher.shared loaded.projection loaded.forkchoice).toOption
    some publisher

structure Starts (env : Env) (options : ServiceOptions) (watchSet : WatchSet)
    (loaded : CanonicalSnapshot) : Prop where
  config : options.stream.validate = .ok ()
  nonempty : watchSet.len ≠ 0
  read : env.loadLatest watchSet = some loaded
  dictionary : validateProjectionDictionary loaded.projection watchSet = .ok ()
  view : validateSnapshotView loaded = .ok ()
  frames : validateHandshakeFrames (initial env options watchSet loaded).shared loaded.projection
    loaded.forkchoice = .ok ()

theorem startService_eq_some {env : Env} {options : ServiceOptions} {watchSet : WatchSet}
    {publisher : Publisher} :
    startService env options watchSet = some publisher ↔
      ∃ loaded, Starts env options watchSet loaded ∧
        publisher = initial env options watchSet loaded := by
  have passed {ε : Type} {result : Except ε Unit} {next : Option Publisher} :
      (result.toOption.bind fun _ => next) = some publisher ↔
        result = .ok () ∧ next = some publisher := by
    cases result <;> simp [Except.toOption]
  unfold startService
  simp only [Option.bind_eq_bind, passed]
  constructor
  · rintro ⟨config, rest⟩
    split_ifs at rest with empty
    obtain ⟨loaded, read, rest⟩ := Option.bind_eq_some_iff.mp rest
    simp only [passed] at rest
    obtain ⟨dictionary, view, frames, started⟩ := rest
    cases started
    exact ⟨loaded, ⟨config, empty, read, dictionary, view, frames⟩, rfl⟩
  · rintro ⟨loaded, starts, rfl⟩
    refine ⟨starts.config, ?_⟩
    rw [if_neg starts.nonempty, starts.read]
    simp only [Option.bind_some, passed]
    exact ⟨starts.dictionary, starts.view, starts.frames, trivial⟩

end Publisher

end Statefeed
