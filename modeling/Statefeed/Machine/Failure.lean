import Statefeed.Machine.Step

set_option autoImplicit false

/-!
# What a step publishes and how an operation fails

A failed operation stops in some phase. `Fails` says for every error of the source in which phase
it arises and under which condition.
-/

namespace Statefeed

namespace Machine

variable {world : Env → Prop} {offers : Publisher → Input → Prop}

section

variable (world offers)

inductive Emits : State → Generation → Wire.Event → Store → Prop
  | validated {p : Publisher} {hash : B256} {entry : CandidateEntry} {projection : Projection}
      (stored : p.store.candidates.get hash = some entry) (early : entry.stage = .executed)
      (cached : entry.projection = some projection) :
      Emits ⟨.idle, p⟩ p.active.generation (.blockValidated { blockHash := B256.toVec hash })
        (Publisher.setStage hash .validated p.store)
  | announced {p : Publisher} {env : Env} {stage : CandidateStage} {block : BlockMeta}
      {changes : BlockChanges} {inherited : Bytes} {applied : Bytes × Bytes}
      {projection : Projection} (lawful : world env) (delta : Delta offers p stage block changes)
      (fresh : Fresh p block) (inherits : Inherits env p block stage inherited)
      (changed : applyChanges changes inherited (List.replicate (bitmapLen p.active.len) 0) =
        .ok applied)
      (assembled : projection = Publisher.assembled p.active block applied) :
      Emits ⟨.idle, p⟩ p.active.generation (.blockState (blockState projection stage.wire))
        (p.store.placeCandidate (env.now .insertCandidate) projection stage true
          (p.shared.sequence + 1))
  | retired {p : Publisher} {generation : Generation} {batch rest : List B256}
      {reason : Wire.RetirementReason} {next : Phase} (nonempty : batch ≠ [])
      (fits : batch.length ≤ p.shared.batchSize) :
      Emits ⟨.retiring generation (batch ++ rest) reason next, p⟩ generation
        (.candidatesRetired { blockHashes := batch.map B256.toVec, reason := reason.code }) p.store
  | rejected {p : Publisher} {observedAt : Instant} {hash : B256} {reason : String}
      (admitted : offers p (.event (.rejected observedAt p.active.generation hash reason)))
      (rejectable : (p.store.candidates.get hash).any (·.stage = .executed) ∨
        (p.store.deferredExecuted.get hash).isSome) :
      Emits ⟨.idle, p⟩ p.active.generation (.blockRejected { blockHash := B256.toVec hash, reason })
        (p.store.removeCandidateTree hash true)
  | headed {p : Publisher} {env : Env} {projection : Projection} {changedBitmap : Bytes}
      {applied : AppliedForkchoiceMeta} (lawful : world env) :
      Emits ⟨.heading projection changedBitmap applied, p⟩ projection.watchSet.generation
        (.canonicalHead
          { previousBlockHash := B256.toVec p.store.canonicalHash
            block := some (blockRef projection.block)
            values := projection.values
            changedBitmap })
        (Publisher.commitCanonical (env.now .scheduleExpiry) projection.block.hash
          (p.shared.sequence + 1) p.store)
  | fenced {p : Publisher} {applied : AppliedForkchoiceMeta} {view : ForkchoiceMeta}
      (resolved : view = applied.resolve p.shared.published.canonical.block.number)
      (ordered : validateForkchoiceCheckpoints view = .ok ()) :
      Emits ⟨.fencing applied, p⟩ p.active.generation
        (.forkchoiceApplied { view := some (forkchoiceView view) }) (afterFence view p.store).2
  | reset {p : Publisher} :
      Emits ⟨.idle, p⟩ p.active.generation
        (.gap { lastContiguousSequence := p.shared.publishedSequence
                reason := "canonical_state_reset" }) p.store
  | gapped {p : Publisher} {reason : String} :
      Emits ⟨.recovering false, p⟩ p.active.generation
        (.gap { lastContiguousSequence := p.shared.publishedSequence, reason }) p.store
  | configured {p : Publisher} {env : Env} {watchSet : WatchSet} {loaded : CanonicalSnapshot}
      (newer : p.active.generation < watchSet.generation)
      (admitted : offers p (.activation watchSet)) :
      Emits ⟨.idle, p⟩ watchSet.generation (.configActivated (configActivated watchSet))
        (p.installSnapshot env loaded).store
  | anchored {phase : Phase} {p : Publisher} {env : Env} {watchSet : WatchSet}
      {loaded : CanonicalSnapshot} (lawful : world env) (loads : Loads env p watchSet loaded)
      (wanted : watchSet = p.active ∨ offers p (.activation watchSet)) :
      Emits ⟨phase, p⟩ watchSet.generation
        (.snapshot (snapshot loaded.projection loaded.forkchoice))
        (p.installSnapshot env loaded).store

def Sends (state : State) (frame : PublishedFrame) (store : Store) : Prop :=
  ∃ generation event, frame.envelope.event = some event ∧
    frame.envelope.configGeneration = generation ∧ Emits world offers state generation event store

end

inductive LoadFails (env : Env) (p : Publisher) (watchSet : WatchSet) : Error → Prop
  | unread (missing : env.loadLatest watchSet = none) : LoadFails env p watchSet .source
  | view {loaded : CanonicalSnapshot} {failure : Error}
      (read : env.loadLatest watchSet = some loaded)
      (refused : validateSnapshotView loaded = .error failure) : LoadFails env p watchSet failure
  | dictionary {loaded : CanonicalSnapshot} {failure : Error}
      (read : env.loadLatest watchSet = some loaded)
      (refused : validateProjectionDictionary loaded.projection watchSet = .error failure) :
      LoadFails env p watchSet failure
  | frames {loaded : CanonicalSnapshot} {failure : Error}
      (read : env.loadLatest watchSet = some loaded)
      (dictionary : validateProjectionDictionary loaded.projection watchSet = .ok ())
      (refused : validateProjectionFrames p.shared loaded.projection loaded.forkchoice =
        .error failure) : LoadFails env p watchSet failure
  | config {failure : Error}
      (refused : p.shared.validateEventFrame watchSet.generation
        (.configActivated (configActivated watchSet)) = .error failure) :
      LoadFails env p watchSet failure

inductive HeadFails (env : Env) (p : Publisher) (generation : Generation)
    (applied : AppliedForkchoiceMeta) : Error → Prop
  | missing {failure : Error}
      (refused : Publisher.canonicalProjection env p generation applied.headHash = .error failure) :
      HeadFails env p generation applied failure
  | dictionary {projection : Projection} {failure : Error}
      (found : Publisher.canonicalProjection env p generation applied.headHash = .ok projection)
      (refused : validateProjectionDictionary projection p.active = .error failure) :
      HeadFails env p generation applied failure
  | identity {projection : Projection}
      (found : Publisher.canonicalProjection env p generation applied.headHash = .ok projection)
      (different : projection.block.hash ≠ applied.headHash) :
      HeadFails env p generation applied (.canonicalIdentityMismatch applied.headHash)
  | shape {projection : Projection} {failure : Error}
      (found : Publisher.canonicalProjection env p generation applied.headHash = .ok projection)
      (refused : validateProjectionShape projection = .error failure) :
      HeadFails env p generation applied failure
  | compared {projection : Projection} {failure : Error}
      (found : Publisher.canonicalProjection env p generation applied.headHash = .ok projection)
      (dictionary : validateProjectionDictionary projection p.active = .ok ())
      (shape : validateProjectionShape projection = .ok ())
      (refused : canonicalChangedBitmap p.shared.published.canonical projection =
        .error failure) : HeadFails env p generation applied failure

section

variable (world offers)

inductive Fails : State → Error → Prop
  | unsent {phase : Phase} {p : Publisher} {env : Env} {generation : Generation}
      {event : Wire.Event} {store : Store} {failure : Wire.EncodeError} (working : phase.Working)
      (emits : Emits world offers ⟨phase, p⟩ generation event store)
      (overflows : Wire.encodeFrame (p.shared.envelope env (p.shared.sequence + 1) generation event)
        p.shared.maxFrameBytes = .error failure) : Fails ⟨phase, p⟩ (.encode failure)
  | ahead {p : Publisher} {event : FeedEvent} (admitted : offers p (.event event))
      (newer : p.active.generation < event.generation) :
      Fails ⟨.idle, p⟩ (.generationAhead event.generation p.active.generation)
  | inconsistent {p : Publisher} {stage : CandidateStage} {block : BlockMeta}
      {changes : BlockChanges} {entry : CandidateEntry}
      (delta : Delta offers p stage block changes)
      (stored : p.store.candidates.get block.hash = some entry) (different : entry.block ≠ block) :
      Fails ⟨.idle, p⟩ (.inconsistentMetadata block.hash)
  | inherited {p : Publisher} {stage : CandidateStage} {block : BlockMeta} {changes : BlockChanges}
      {parent : Projection} {failure : Error} (delta : Delta offers p stage block changes)
      (stored : Publisher.parentProjection p.store block = some parent)
      (refused : Publisher.inheritedValues p.active p.active.generation block parent =
        .error failure) : Fails ⟨.idle, p⟩ failure
  | loaded {p : Publisher} {env : Env} {block : BlockMeta} {changes : BlockChanges}
      {parent : Projection} {failure : Error} (lawful : world env)
      (delta : Delta offers p .validated block changes)
      (read : env.loadAt p.active block.parentHash = some parent)
      (refused : Publisher.loadedValues p.active block parent = .error failure) :
      Fails ⟨.idle, p⟩ failure
  | applied {p : Publisher} {env : Env} {stage : CandidateStage} {block : BlockMeta}
      {changes : BlockChanges} {inherited : Bytes} {failure : Error} (lawful : world env)
      (delta : Delta offers p stage block changes)
      (inherits : Inherits env p block stage inherited)
      (refused : applyChanges changes inherited (List.replicate (bitmapLen p.active.len) 0) =
        .error failure) : Fails ⟨.idle, p⟩ failure
  | head {p : Publisher} {env : Env} {observedAt : Instant} {generation : Generation}
      {applied : AppliedForkchoiceMeta} {failure : Error} (lawful : world env)
      (admitted : offers p (.event (.forkchoiceApplied observedAt generation applied)))
      (refused : HeadFails env p generation applied failure) : Fails ⟨.idle, p⟩ failure
  | cache {p : Publisher} {projection : Projection} {next : Phase} {failure : Error} {store : Store}
      (trimmed : Store.trimProjectionCache projection.block.hash p.store =
        (.error failure, store)) : Fails ⟨.placed projection next, p⟩ failure
  | metadata {p : Publisher} {generation : Generation} {next : Phase} {failure : Error}
      {store : Store} (trimmed : Store.trimMetadata p.store = (.error failure, store)) :
      Fails ⟨.trimming generation next, p⟩ failure
  | unfenced {p : Publisher} {applied : AppliedForkchoiceMeta}
      (different : p.shared.published.canonical.block.hash ≠ applied.headHash) :
      Fails ⟨.fencing applied, p⟩
        (.headMismatch applied.headHash p.shared.published.canonical.block.hash)
  | view {p : Publisher} {applied : AppliedForkchoiceMeta} {failure : Error}
      (refused : validateForkchoiceCheckpoints
        (applied.resolve p.shared.published.canonical.block.number) = .error failure) :
      Fails ⟨.fencing applied, p⟩ failure
  | anchor {p : Publisher} {env : Env} {retry : Bool} {failure : Error} (lawful : world env)
      (refused : LoadFails env p p.active failure) : Fails ⟨.anchoring retry, p⟩ failure
  | activation {p : Publisher} {env : Env} {watchSet : WatchSet} {failure : Error}
      (lawful : world env) (admitted : offers p (.activation watchSet))
      (newer : p.active.generation < watchSet.generation)
      (refused : LoadFails env p watchSet failure) : Fails ⟨.idle, p⟩ failure

def Stops (origin : State) (failure : Error) : Prop :=
  ∃ state, Steps world offers origin state ∧ Fails world offers state failure

end

end Machine

def Error.Plain : Error → Prop
  | .encode _ | .generationAhead _ _ | .generationMismatch _ | .invalidKeyId _ => False
  | _ => True

variable {failure : Error}

theorem error_of_if {ε α : Type} {motive : ε → Prop} {condition : Prop} [Decidable condition]
    {refusal failure : ε} {rest : Except ε α}
    (failed : (if condition then .error refusal else rest) = .error failure)
    (first : motive refusal) (later : rest = .error failure → motive failure) : motive failure := by
  split at failed
  · cases failed
    exact first
  · exact later failed

theorem validateProjectionDictionary_plain {projection : Projection} {expected : WatchSet}
    (failed : validateProjectionDictionary projection expected = .error failure) :
    failure.Plain := by
  unfold validateProjectionDictionary at failed
  split at failed
  · cases failed
  · cases failed
    trivial

theorem validateProjectionShape_plain {projection : Projection}
    (failed : validateProjectionShape projection = .error failure) : failure.Plain := by
  unfold validateProjectionShape at failed
  exact error_of_if failed trivial fun failed => error_of_if failed trivial nofun

theorem validateForkchoiceCheckpoints_plain {view : ForkchoiceMeta}
    (failed : validateForkchoiceCheckpoints view = .error failure) : failure.Plain := by
  unfold validateForkchoiceCheckpoints at failed
  refine error_of_if failed trivial fun failed => ?_
  split at failed
  · exact error_of_if failed trivial nofun
  · cases failed

theorem validateSnapshotView_plain {loaded : CanonicalSnapshot}
    (failed : validateSnapshotView loaded = .error failure) : failure.Plain := by
  unfold validateSnapshotView at failed
  exact error_of_if failed trivial validateForkchoiceCheckpoints_plain

theorem bind_error {ε α : Type} {first : Except ε Unit} {next : Except ε α} {failure : ε}
    (failed : (first >>= fun _ => next) = .error failure) :
    first = .error failure ∨ first = .ok () ∧ next = .error failure := by
  cases first with
  | ok _ => exact .inr ⟨rfl, failed⟩
  | error _ =>
    cases failed
    exact .inl rfl

theorem validateEventFrame_encode {shared : Shared} {generation : Generation} {event : Wire.Event}
    {failure : Error} (failed : shared.validateEventFrame generation event = .error failure) :
    ∃ overflow, failure = .encode overflow := by
  unfold Shared.validateEventFrame at failed
  split at failed
  · cases failed
    exact ⟨_, rfl⟩
  · cases failed

theorem validateProjectionFrames_encode {shared : Shared} {projection : Projection}
    {forkchoice : ForkchoiceMeta} {failure : Error}
    (shape : validateProjectionShape projection = .ok ())
    (failed : validateProjectionFrames shared projection forkchoice = .error failure) :
    ∃ overflow, failure = .encode overflow := by
  unfold validateProjectionFrames at failed
  rcases bind_error failed with refused | ⟨_, failed⟩
  · cases shape.symm.trans refused
  rcases bind_error failed with refused | ⟨_, failed⟩
  · exact validateEventFrame_encode refused
  rcases bind_error failed with refused | ⟨_, refused⟩
  · exact validateEventFrame_encode refused
  · exact validateEventFrame_encode refused

theorem Publisher.loadedValues_plain {watchSet : WatchSet} {block : BlockMeta}
    {parent : Projection} (failed : loadedValues watchSet block parent = .error failure) :
    failure.Plain := by
  unfold loadedValues at failed
  rcases bind_error failed with dictionary | ⟨_, failed⟩
  · exact validateProjectionDictionary_plain dictionary
  · refine error_of_if failed trivial fun failed => error_of_if failed trivial fun failed => ?_
    rcases bind_error failed with shape | ⟨_, returned⟩
    · exact validateProjectionShape_plain shape
    · cases returned

theorem canonicalChangedBitmap_plain {previous next : Projection}
    (failed : canonicalChangedBitmap previous next = .error failure) : failure.Plain := by
  unfold canonicalChangedBitmap at failed
  refine error_of_if failed trivial fun failed => ?_
  split at failed <;> cases failed

theorem Publisher.canonicalProjection_plain {env : Env} {p : Publisher} {generation : Generation}
    {hash : B256} (failed : canonicalProjection env p generation hash = .error failure) :
    failure.Plain := by
  unfold canonicalProjection at failed
  dsimp only at failed
  split at failed
  · cases failed
  · split at failed
    · cases failed
    · cases failed
      trivial

theorem Machine.HeadFails.plain {env : Env} {p : Publisher} {generation : Generation}
    {applied : AppliedForkchoiceMeta} (refused : HeadFails env p generation applied failure) :
    failure.Plain := by
  cases refused with
  | missing refused => exact Publisher.canonicalProjection_plain refused
  | dictionary _ refused => exact validateProjectionDictionary_plain refused
  | identity => trivial
  | shape _ refused => exact validateProjectionShape_plain refused
  | compared _ _ _ refused => exact canonicalChangedBitmap_plain refused

theorem Store.trimProjectionLoop_plain {inserted : B256} {fuel examined : Nat}
    {retired : List B256} {store after : Store}
    (failed : trimProjectionLoop inserted fuel examined retired store = (.error failure, after)) :
    failure.Plain := by
  induction fuel generalizing examined retired store with
  | zero => cases failed; trivial
  | succ fuel ih =>
    unfold trimProjectionLoop at failed
    split at failed
    · split at failed
      · cases failed
      · dsimp only at failed
        split at failed
        · split at failed
          · cases failed
            trivial
          · exact ih failed
        · exact ih failed
    · cases failed

theorem Store.trimMetadataLoop_plain {fuel : Nat} {retired : List B256} {store after : Store}
    (failed : trimMetadataLoop fuel retired store = (.error failure, after)) : failure.Plain := by
  induction fuel generalizing retired store with
  | zero => cases failed; trivial
  | succ fuel ih =>
    unfold trimMetadataLoop at failed
    split at failed
    · split at failed
      · cases failed
        trivial
      · dsimp only at failed
        split at failed
        · exact ih failed
        · exact ih failed
    · cases failed

end Statefeed
