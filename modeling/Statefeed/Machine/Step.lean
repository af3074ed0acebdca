import Statefeed.Model.Loop

set_option autoImplicit false

/-!
# The publisher as a state machine

An operation of the publisher is a sequence of steps, each of which publishes at most one
frame. `Phase` says what the operation still has to do, so an invariant can be stated at
every point where a frame has been sent and the next one has not.
-/

namespace Statefeed

namespace Shared

def sent (env : Env) (generation : Generation) (event : Wire.Event)
    (nextState : Option (Projection × Option ForkchoiceMeta × Bool)) (shared : Shared) : Shared :=
  let sequence := shared.sequence + 1
  let stored : Option PublishedState :=
    nextState.map fun (canonical, forkchoice, recovering) =>
      { canonical, forkchoice, effectiveSequence := sequence, recovering }
  { shared with
    sequence := sequence
    published := stored.getD shared.published
    publishedSequence := sequence
    frames := shared.frames ++
      [{ envelope := shared.envelope env sequence generation event, stored }] }

def burned (shared : Shared) : Shared := { shared with sequence := shared.sequence + 1 }

end Shared

namespace Publisher

def send (env : Env) (generation : Generation) (event : Wire.Event)
    (nextState : Option (Projection × Option ForkchoiceMeta × Bool)) (publisher : Publisher) :
    Publisher :=
  { publisher with shared := publisher.shared.sent env generation event nextState }

def burn (publisher : Publisher) : Publisher :=
  { publisher with shared := publisher.shared.burned }

def withStore (store : Store) (publisher : Publisher) : Publisher := { publisher with store }

end Publisher

namespace Machine

inductive Phase where
  | idle
  -- A projection was placed; the projection cache is trimmed next.
  | placed (projection : Projection) (next : Phase)
  | trimming (generation : Generation) (next : Phase)
  | retiring (generation : Generation) (hashes : List B256) (reason : Wire.RetirementReason)
      (next : Phase)
  | heading (projection : Projection) (changedBitmap : Bytes) (applied : AppliedForkchoiceMeta)
  | fencing (applied : AppliedForkchoiceMeta)
  | sweeping
  | expiring (budget : Nat)
  -- A gap was announced; `retry` tells whether a failure is retried by the recovery loop.
  | anchoring (retry : Bool)
  | failed
  | recovering (announced : Bool)

def Phase.Working : Phase → Prop
  | .anchoring _ | .failed | .recovering _ => False
  | _ => True

structure State where
  phase : Phase
  publisher : Publisher

section

variable (world : Env → Prop) (offers : Publisher → Input → Prop)

inductive Delta (publisher : Publisher) : CandidateStage → BlockMeta → BlockChanges → Prop
  | executed {observedAt : Instant} {generation : Generation} {block : BlockMeta}
      {changes : BlockChanges}
      (admitted : offers publisher (.event (.executed observedAt generation block changes)))
      (later : publisher.snapshotAnchoredAt < observedAt)
      (current : generation = publisher.active.generation) :
      Delta publisher .executed block changes
  | fallback {observedAt : Instant} {generation : Generation} {block : BlockMeta}
      {changes : BlockChanges}
      (admitted : offers publisher (.event (.validatedFallback observedAt generation block changes)))
      (later : publisher.snapshotAnchoredAt < observedAt)
      (current : generation = publisher.active.generation) :
      Delta publisher .validated block changes
  | deferred {observedAt : Instant} {generation : Generation} {hash : B256}
      {record : DeferredExecuted}
      (admitted : offers publisher (.event (.validated observedAt generation hash)))
      (current : generation = publisher.active.generation)
      (stored : publisher.store.deferredExecuted.get hash = some record) :
      Delta publisher .validated record.block record.changes

inductive Inherits (env : Env) (publisher : Publisher) (block : BlockMeta) :
    CandidateStage → Bytes → Prop
  | cached {stage : CandidateStage} {parent : Projection} {values : Bytes}
      (stored : Publisher.parentProjection publisher.store block = some parent)
      (inherited : Publisher.inheritedValues publisher.active publisher.active.generation block
        parent = .ok values) : Inherits env publisher block stage values
  | loaded {parent : Projection} {values : Bytes}
      (missing : Publisher.parentProjection publisher.store block = none)
      (read : env.loadAt publisher.active block.parentHash = some parent)
      (inherited : Publisher.loadedValues publisher.active block parent = .ok values) :
      Inherits env publisher block .validated values

def Applies (publisher : Publisher) (stage : CandidateStage) (block : BlockMeta)
    (changes : BlockChanges) : Prop :=
  ∃ env inherited applied, Inherits env publisher block stage inherited ∧
    applyChanges changes inherited (List.replicate (bitmapLen publisher.active.len) 0) = .ok applied

structure Fresh (publisher : Publisher) (block : BlockMeta) : Prop where
  live : block.hash ∉ publisher.store.tombstones
  same : ∀ entry, publisher.store.candidates.get block.hash = some entry →
    entry.block = block ∧ entry.projection = none
  recent : ¬ (block.number ≤ publisher.shared.published.canonical.block.number ∧
    (publisher.store.candidates.get block.parentHash).isNone)

structure Loads (env : Env) (publisher : Publisher) (watchSet : WatchSet)
    (loaded : CanonicalSnapshot) : Prop where
  read : env.loadLatest watchSet = some loaded
  view : validateSnapshotView loaded = .ok ()
  dictionary : validateProjectionDictionary loaded.projection watchSet = .ok ()
  frames : validateProjectionFrames publisher.shared loaded.projection loaded.forkchoice = .ok ()

def afterFence (view : ForkchoiceMeta) (store : Store) : Phase × Store :=
  match view.finalized with
  | some finalized =>
    if some finalized ≠ store.lastFinalized then
      (.sweeping, { store with lastFinalized := some finalized }.beginFinalitySweep finalized)
    else (.idle, store)
  | none => (.idle, store)

theorem afterFence_phase (view : ForkchoiceMeta) (store : Store) :
    (afterFence view store).1 = .idle ∨ (afterFence view store).1 = .sweeping := by
  unfold afterFence
  split
  · split
    · exact .inr rfl
    · exact .inl rfl
  · exact .inl rfl

theorem afterFence_store (view : ForkchoiceMeta) (store : Store) :
    ∃ finalized sweep, (afterFence view store).2 =
      { store with lastFinalized := finalized, finalitySweep := sweep } := by
  unfold afterFence
  split
  · split
    · exact ⟨_, _, rfl⟩
    · exact ⟨store.lastFinalized, store.finalitySweep, rfl⟩
  · exact ⟨store.lastFinalized, store.finalitySweep, rfl⟩

inductive Step : State → State → Prop
  | promote {p : Publisher} {hash : B256} {entry : CandidateEntry}
      (stored : p.store.candidates.get hash = some entry)
      (early : entry.stage = .executed) (bare : entry.projection = none) :
      Step ⟨.idle, p⟩ ⟨.idle, p.withStore (Publisher.setStage hash .validated p.store)⟩
  | validate {p : Publisher} {env : Env} {hash : B256} {entry : CandidateEntry}
      {projection : Projection} (lawful : world env)
      (stored : p.store.candidates.get hash = some entry)
      (early : entry.stage = .executed) (cached : entry.projection = some projection)
      (current : projection.watchSet.generation = p.active.generation) :
      Step ⟨.idle, p⟩ ⟨.idle, (p.send env p.active.generation
        (.blockValidated { blockHash := B256.toVec hash }) none).withStore
          (Publisher.setStage hash .validated p.store)⟩
  | announce {p : Publisher} {env : Env} {stage : CandidateStage} {block : BlockMeta}
      {changes : BlockChanges} {inherited : Bytes} {applied : Bytes × Bytes}
      {projection : Projection}
      (lawful : world env) (delta : Delta offers p stage block changes) (fresh : Fresh p block)
      (inherits : Inherits env p block stage inherited)
      (changed : applyChanges changes inherited (List.replicate (bitmapLen p.active.len) 0) =
        .ok applied)
      (assembled : projection = Publisher.assembled p.active block applied) :
      Step ⟨.idle, p⟩ ⟨.placed projection .idle,
        (p.send env p.active.generation (.blockState (blockState projection stage.wire))
          none).withStore (p.store.placeCandidate (env.now .insertCandidate) projection stage true
            (p.shared.sequence + 1))⟩
  | defer {p : Publisher} {env : Env} {block : BlockMeta} {changes : BlockChanges}
      (lawful : world env) (delta : Delta offers p .executed block changes) (fresh : Fresh p block)
      (unknown : p.store.candidates.get block.hash = none)
      (missing : Publisher.parentProjection p.store block = none) :
      Step ⟨.idle, p⟩ ⟨.trimming p.active.generation .idle,
        p.withStore (p.store.placeDeferred (env.now .insertDeferred) block changes)⟩
  | trimProjections {p : Publisher} {projection : Projection} {next : Phase}
      {evicted : List B256} {store : Store}
      (trimmed : Store.trimProjectionCache projection.block.hash p.store = (.ok evicted, store)) :
      Step ⟨.placed projection next, p⟩
        ⟨.retiring projection.watchSet.generation evicted .cacheEvicted
          (.trimming projection.watchSet.generation next), p.withStore store⟩
  | trimProjectionsFails {p : Publisher} {projection : Projection} {next : Phase}
      {failure : Error} {store : Store}
      (trimmed : Store.trimProjectionCache projection.block.hash p.store = (.error failure, store)) :
      Step ⟨.placed projection next, p⟩ ⟨.failed, p.withStore store⟩
  | trimMetadata {p : Publisher} {generation : Generation} {next : Phase}
      {removed : List B256} {store : Store}
      (trimmed : Store.trimMetadata p.store = (.ok removed, store)) :
      Step ⟨.trimming generation next, p⟩
        ⟨.retiring generation removed .cacheEvicted next, p.withStore store⟩
  | trimMetadataFails {p : Publisher} {generation : Generation} {next : Phase}
      {failure : Error} {store : Store}
      (trimmed : Store.trimMetadata p.store = (.error failure, store)) :
      Step ⟨.trimming generation next, p⟩ ⟨.failed, p.withStore store⟩
  | retire {p : Publisher} {env : Env} {generation : Generation} {batch rest : List B256}
      {reason : Wire.RetirementReason} {next : Phase} (lawful : world env)
      (nonempty : batch ≠ []) (fits : batch.length ≤ p.shared.batchSize) :
      Step ⟨.retiring generation (batch ++ rest) reason next, p⟩
        ⟨.retiring generation rest reason next, p.send env generation
          (.candidatesRetired { blockHashes := batch.map B256.toVec, reason := reason.code }) none⟩
  | retired {p : Publisher} {generation : Generation} {reason : Wire.RetirementReason}
      {next : Phase} : Step ⟨.retiring generation [] reason next, p⟩ ⟨next, p⟩
  | reject {p : Publisher} {env : Env} {observedAt : Instant} {hash : B256} {reason : String}
      (lawful : world env)
      (admitted : offers p (.event (.rejected observedAt p.active.generation hash reason)))
      (rejectable : (p.store.candidates.get hash).any (·.stage = .executed) ∨
        (p.store.deferredExecuted.get hash).isSome) :
      Step ⟨.idle, p⟩ ⟨.idle, (p.send env p.active.generation
        (.blockRejected { blockHash := B256.toVec hash, reason }) none).withStore
          (p.store.removeCandidateTree hash true)⟩
  | adopt {p : Publisher} {env : Env} {observedAt : Instant} {generation : Generation}
      {applied : AppliedForkchoiceMeta} {projection : Projection} {changedBitmap : Bytes}
      (lawful : world env)
      (admitted : offers p (.event (.forkchoiceApplied observedAt generation applied)))
      (later : p.snapshotAnchoredAt < observedAt) (known : generation ≤ p.active.generation)
      (moved : applied.headHash ≠ p.shared.published.canonical.block.hash)
      (found : Publisher.canonicalProjection env p generation applied.headHash = .ok projection)
      (dictionary : validateProjectionDictionary projection p.active = .ok ())
      (identity : projection.block.hash = applied.headHash)
      (shape : validateProjectionShape projection = .ok ())
      (compared : canonicalChangedBitmap p.shared.published.canonical projection =
        .ok changedBitmap) :
      Step ⟨.idle, p⟩ ⟨.placed projection (.heading projection changedBitmap applied),
        p.withStore (p.store.placeCandidate (env.now .insertCandidate) projection .validated
          true 0)⟩
  | head {p : Publisher} {env : Env} {projection : Projection} {changedBitmap : Bytes}
      {applied : AppliedForkchoiceMeta} (lawful : world env) :
      Step ⟨.heading projection changedBitmap applied, p⟩ ⟨.fencing applied,
        (p.send env projection.watchSet.generation
          (.canonicalHead
            { previousBlockHash := B256.toVec p.store.canonicalHash
              block := some (blockRef projection.block)
              values := projection.values
              changedBitmap })
          (some (projection, none, false))).withStore
            (Publisher.commitCanonical (env.now .scheduleExpiry) projection.block.hash
              (p.shared.sequence + 1) p.store)⟩
  | reaffirm {p : Publisher} {observedAt : Instant} {generation : Generation}
      {applied : AppliedForkchoiceMeta}
      (admitted : offers p (.event (.forkchoiceApplied observedAt generation applied)))
      (later : p.snapshotAnchoredAt < observedAt) :
      Step ⟨.idle, p⟩ ⟨.fencing applied, p⟩
  | fence {p : Publisher} {env : Env} {applied : AppliedForkchoiceMeta} {view : ForkchoiceMeta}
      (lawful : world env)
      (same : p.shared.published.canonical.block.hash = applied.headHash)
      (resolved : view = applied.resolve p.shared.published.canonical.block.number)
      (ordered : validateForkchoiceCheckpoints view = .ok ()) :
      Step ⟨.fencing applied, p⟩ ⟨(afterFence view p.store).1,
        (p.send env p.active.generation
          (.forkchoiceApplied { view := some (forkchoiceView view) })
          (some (p.shared.published.canonical, some view, false))).withStore
            (afterFence view p.store).2⟩
  | sweep {p : Publisher} :
      Step ⟨.sweeping, p⟩
        ⟨.retiring p.active.generation
          (p.store.processFinalityBudget p.store.retirementWorkBudget).1.2 .finalizedConflict .idle,
          p.withStore (p.store.processFinalityBudget p.store.retirementWorkBudget).2⟩
  | maintain {p : Publisher} (admitted : offers p .maintenance) :
      Step ⟨.idle, p⟩
        ⟨.retiring p.active.generation
          (p.store.processFinalityBudget p.store.retirementWorkBudget).1.2 .finalizedConflict
          (.expiring (p.store.retirementWorkBudget -
            (p.store.processFinalityBudget p.store.retirementWorkBudget).1.1)),
          p.withStore (p.store.processFinalityBudget p.store.retirementWorkBudget).2⟩
  | expire {p : Publisher} {env : Env} {budget : Nat} (lawful : world env) :
      Step ⟨.expiring budget, p⟩
        ⟨.retiring p.active.generation
          (p.store.removeEach (p.store.dueRecords (env.now .maintain) env.rank budget) []).1
          .retentionExpired .idle,
          p.withStore
            (p.store.removeEach (p.store.dueRecords (env.now .maintain) env.rank budget) []).2⟩
  | gap {p : Publisher} {env : Env} {observedAt : Instant} {generation : Generation}
      {head : CheckpointMeta} (lawful : world env)
      (admitted : offers p (.event (.canonicalStateReset observedAt generation head)))
      (later : p.snapshotAnchoredAt < observedAt) :
      Step ⟨.idle, p⟩ ⟨.anchoring false, p.send env p.active.generation
        (.gap { lastContiguousSequence := p.shared.publishedSequence
                reason := "canonical_state_reset" })
        (some (p.shared.published.canonical, none, true))⟩
  | retryGap {p : Publisher} {env : Env} {reason : String} (lawful : world env)
      (admitted : offers p .retry) :
      Step ⟨.recovering false, p⟩ ⟨.anchoring true, p.send env p.active.generation
        (.gap { lastContiguousSequence := p.shared.publishedSequence, reason })
        (some (p.shared.published.canonical, none, true))⟩
  | retryBurns {p : Publisher} : Step ⟨.recovering false, p⟩ ⟨.recovering false, p.burn⟩
  | retryAnchor {p : Publisher} (admitted : offers p .retry) :
      Step ⟨.recovering true, p⟩ ⟨.anchoring true, p⟩
  | anchor {p : Publisher} {env : Env} {retry : Bool} {loaded : CanonicalSnapshot}
      (lawful : world env) (loads : Loads env p p.active loaded) :
      Step ⟨.anchoring retry, p⟩ ⟨.idle,
        (p.installSnapshot env loaded).send env loaded.projection.watchSet.generation
          (.snapshot (snapshot loaded.projection loaded.forkchoice))
          (some (loaded.projection, some loaded.forkchoice, false))⟩
  | anchorRefused {p : Publisher} : Step ⟨.anchoring false, p⟩ ⟨.failed, p⟩
  | anchorFails {p : Publisher} : Step ⟨.anchoring true, p⟩ ⟨.recovering true, p⟩
  | activate {p : Publisher} {env : Env} {watchSet : WatchSet} {loaded : CanonicalSnapshot}
      (lawful : world env) (admitted : offers p (.activation watchSet))
      (newer : p.active.generation < watchSet.generation)
      (loads : Loads env p watchSet loaded)
      (config : p.shared.validateEventFrame watchSet.generation
        (.configActivated (configActivated watchSet)) = .ok ()) :
      Step ⟨.idle, p⟩ ⟨.idle,
        { ((p.installSnapshot env loaded).send env watchSet.generation
            (.configActivated (configActivated watchSet))
            (some (loaded.projection, some loaded.forkchoice, false))).send env watchSet.generation
            (.snapshot (snapshot loaded.projection loaded.forkchoice)) none with
          activeWatchSet := watchSet }⟩
  | refuse {p : Publisher} {phase : Phase} (working : phase.Working) :
      Step ⟨phase, p⟩ ⟨.failed, p⟩
  | burn {p : Publisher} {phase : Phase} (working : phase.Working) :
      Step ⟨phase, p⟩ ⟨.failed, p.burn⟩
  | recover {p : Publisher} :
      Step ⟨.failed, p⟩ ⟨.recovering p.shared.published.recovering, p⟩
  | loss {p : Publisher} (admitted : offers p .loss) :
      Step ⟨.idle, p⟩ ⟨.recovering p.shared.published.recovering, p⟩

def Steps : State → State → Prop := Relation.ReflTransGen (Step world offers)

end

def Phase.ofControl : Control → Phase
  | .idle => .idle
  | .recovering announced _ => .recovering announced

def State.ofLoop (loop : Loop) : State := ⟨.ofControl loop.control, loop.publisher⟩

end Machine

end Statefeed
