import Statefeed.Library.Acceptor
import Statefeed.Model.Publisher

set_option autoImplicit false

namespace Statefeed.Dump

inductive StreamPhase where
  | hello
  | config (baseline : Nat) (generation : Generation)
  | initialSnapshot (baseline : Nat) (generation : Generation)
  | live (lastSequence : Nat) (snapshotRequired : Bool)
deriving DecidableEq

inductive CursorError where
  | missingEvent
  | firstNotHello
  | secondNotConfigActivated
  | thirdNotSnapshot
  | handshakeSequence (sequence baseline : Nat)
  | handshakeGeneration (handshakeGeneration generation : Generation)
  | helloAfterHandshake
  | snapshotExpected
  | snapshotSequence (sequence lastSequence : Nat)
  | gapContiguous (lastContiguousSequence lastSequence : Nat)
  | gapSequence (sequence lastSequence : Nat)
  | liveSequence (sequence lastSequence : Nat)
deriving DecidableEq

def validateHandshakePosition (sequence : Nat) (generation : Generation) (baseline : Nat)
    (handshakeGeneration : Generation) : Except CursorError Unit :=
  if sequence ≠ baseline then .error (.handshakeSequence sequence baseline)
  else if generation ≠ handshakeGeneration then
    .error (.handshakeGeneration handshakeGeneration generation)
  else .ok ()

def isHello : Wire.Event → Bool
  | .hello _ => true
  | _ => false

def isConfigActivated : Wire.Event → Bool
  | .configActivated _ => true
  | _ => false

def isSnapshot : Wire.Event → Bool
  | .snapshot _ => true
  | _ => false

/-- The live branch of `StreamCursor::observe`. Sequences are counted without wrapping. -/
def observeLive (lastSequence : Nat) (snapshotRequired : Bool) (sequence : Nat)
    (event : Wire.Event) : Except CursorError StreamPhase :=
  if isHello event then .error .helloAfterHandshake
  else if snapshotRequired then
    if ¬ isSnapshot event then .error .snapshotExpected
    else if sequence ≠ lastSequence + 1 then .error (.snapshotSequence sequence lastSequence)
    else .ok (.live sequence false)
  else
    match event with
    | .gap gap =>
      if gap.lastContiguousSequence ≠ lastSequence then
        .error (.gapContiguous gap.lastContiguousSequence lastSequence)
      else if ¬ lastSequence < sequence then .error (.gapSequence sequence lastSequence)
      else .ok (.live sequence true)
    | event =>
      if sequence ≠ lastSequence + 1 then .error (.liveSequence sequence lastSequence)
      else .ok (.live sequence (isConfigActivated event))

/-- `StreamCursor::observe`. -/
def observe (phase : StreamPhase) (sequence : Nat) (generation : Generation)
    (event : Wire.Event) : Except CursorError StreamPhase :=
  match phase, event with
  | .hello, .hello _ => .ok (.config sequence generation)
  | .hello, _ => .error .firstNotHello
  | .config baseline handshakeGeneration, .configActivated _ => do
    validateHandshakePosition sequence generation baseline handshakeGeneration
    .ok (.initialSnapshot baseline generation)
  | .config _ _, _ => .error .secondNotConfigActivated
  | .initialSnapshot baseline handshakeGeneration, .snapshot _ => do
    validateHandshakePosition sequence generation baseline handshakeGeneration
    .ok (.live baseline false)
  | .initialSnapshot _ _, _ => .error .thirdNotSnapshot
  | .live lastSequence snapshotRequired, event =>
    observeLive lastSequence snapshotRequired sequence event

def observeEnvelope (phase : StreamPhase) (envelope : Wire.Envelope) :
    Except CursorError StreamPhase :=
  match envelope.event with
  | none => .error .missingEvent
  | some event => observe phase envelope.sequence envelope.configGeneration event

/-- The cursor over a whole sequence of frames. -/
def observeAll (envelopes : List Wire.Envelope) : Except CursorError StreamPhase :=
  Acceptor.run observeEnvelope .hello envelopes

inductive ContentError where
  | missingEvent
  | genesisHashLength
  | incompleteLifecycle
  | generationRegressed (active generation : Generation)
  | keyIdsNotDense
  | dictionaryLength
  | generationMismatch (event : Generation) (active : Option Generation)
  | missingBlockRef
  | blockHashLength
  | parentHashLength
  | missingForkchoiceView
  | missingForkchoiceHead
  | headHashLength
  | checkpointHashLength
  | checkpointAheadOfHead
  | finalizedAheadOfSafe
  | snapshotHeadMismatch
  | projectionLength (actual expected : Nat)
  | unknownStage (stage : Nat)
  | unspecifiedStage
  | executedNotAdvertised
  | candidateBitmapLength
  | previousHashLength
  | canonicalBitmapLength
  | validatedHashLength
  | rejectedHashLength
  | emptyRejectionReason
  | forkchoiceNotAdvertised
  | retirementNotAdvertised
  | unknownRetirementReason (reason : Nat)
  | unspecifiedRetirementReason
  | emptyRetirement
  | retiredHashLength
  | emptyGapReason
deriving DecidableEq

def ensure (condition : Bool) (failure : ContentError) : Except ContentError Unit :=
  if condition then .ok () else .error failure

def validateGeneration (active : Option Generation) (event : Generation) :
    Except ContentError Unit :=
  ensure (active = some event) (.generationMismatch event active)

def validateBlockRef : Option Wire.BlockRef → Except ContentError Wire.BlockRef
  | none => .error .missingBlockRef
  | some block => do
    ensure (block.hash.length = 32) .blockHashLength
    ensure (block.parentHash.length = 32) .parentHashLength
    .ok block

/-- The loop body of `validate_forkchoice_view`. -/
def validateCheckpoint (head : Wire.CheckpointRef) : Option Wire.CheckpointRef →
    Except ContentError Unit
  | none => .ok ()
  | some checkpoint => do
    ensure (checkpoint.hash.length = 32) .checkpointHashLength
    ensure (checkpoint.number ≤ head.number) .checkpointAheadOfHead

def validateFinalized : Option Wire.CheckpointRef → Option Wire.CheckpointRef →
    Except ContentError Unit
  | some safe, some finalized => ensure (finalized.number ≤ safe.number) .finalizedAheadOfSafe
  | _, _ => .ok ()

/-- `validate_forkchoice_view`; of the view it returns, its head is what the callers read. -/
def validateForkchoiceView : Option Wire.ForkchoiceView → Except ContentError Wire.CheckpointRef
  | none => .error .missingForkchoiceView
  | some view =>
    match view.head with
    | none => .error .missingForkchoiceHead
    | some head => do
      ensure (head.hash.length = 32) .headHashLength
      validateCheckpoint head view.safe
      validateCheckpoint head view.finalized
      validateFinalized view.safe view.finalized
      .ok head

/-- `PackedValues::new`. -/
def packedValues (bytes : Bytes) (keyCount : Nat) : Except ContentError Unit :=
  ensure (bytes.length = keyCount * 32) (.projectionLength bytes.length (keyCount * 32))

def blockStageOf : Nat → Option Wire.BlockStage
  | 0 => some .unspecified
  | 1 => some .executed
  | 2 => some .validated
  | _ => none

def retirementReasonOf : Nat → Option Wire.RetirementReason
  | 0 => some .unspecified
  | 1 => some .finalizedConflict
  | 2 => some .cacheEvicted
  | 3 => some .retentionExpired
  | 4 => some .sourcePruned
  | _ => none

def advertises (capabilities flag : Nat) : Bool := capabilities &&& flag ≠ 0

/-- What `main` keeps between frames for its checks. -/
structure Consumer where
  activeGeneration : Option Generation
  keyCount : Nat
  capabilities : Nat
deriving DecidableEq

namespace Consumer

def initial : Consumer where
  activeGeneration := none
  keyCount := 0
  capabilities := 0

def checkStage (consumer : Consumer) (code : Nat) : Except ContentError Unit :=
  match blockStageOf code with
  | none => .error (.unknownStage code)
  | some .unspecified => .error .unspecifiedStage
  | some .executed =>
    ensure (advertises consumer.capabilities Wire.capExecuted) .executedNotAdvertised
  | some .validated => .ok ()

def checkReason (code : Nat) : Except ContentError Unit :=
  match retirementReasonOf code with
  | none => .error (.unknownRetirementReason code)
  | some reason => ensure (reason ≠ .unspecified) .unspecifiedRetirementReason

def checkHello (consumer : Consumer) (hello : Wire.Hello) : Except ContentError Consumer := do
  ensure (hello.genesisHash.length = 32) .genesisHashLength
  ensure (!advertises hello.capabilities Wire.capExecuted ||
    advertises hello.capabilities Wire.capForkchoiceApplied &&
      advertises hello.capabilities Wire.capCandidateRetirement) .incompleteLifecycle
  .ok { consumer with capabilities := hello.capabilities }

def checkConfig (consumer : Consumer) (generation : Generation) (config : Wire.ConfigActivated) :
    Except ContentError Consumer := do
  match consumer.activeGeneration with
  | some active => ensure (active ≤ generation) (.generationRegressed active generation)
  | none => .ok ()
  ensure (config.keys.zipIdx.all fun (key, index) => key.keyId = index) .keyIdsNotDense
  ensure (config.keys.all fun key => key.address.length = 20 && key.slot.length = 32)
    .dictionaryLength
  .ok { consumer with keyCount := config.keys.length, activeGeneration := some generation }

def checkSnapshot (consumer : Consumer) (snapshot : Wire.Snapshot) : Except ContentError Unit := do
  let block ← validateBlockRef snapshot.block
  let head ← validateForkchoiceView snapshot.forkchoice
  ensure (head.number = block.number && head.hash = block.hash) .snapshotHeadMismatch
  packedValues snapshot.values consumer.keyCount

def checkBlockState (consumer : Consumer) (state : Wire.BlockState) : Except ContentError Unit := do
  let _ ← validateBlockRef state.block
  consumer.checkStage state.stage
  ensure (state.changedBitmap.length = bitmapLen consumer.keyCount) .candidateBitmapLength
  packedValues state.values consumer.keyCount

def checkCanonicalHead (consumer : Consumer) (head : Wire.CanonicalHead) :
    Except ContentError Unit := do
  let _ ← validateBlockRef head.block
  ensure (head.previousBlockHash.length = 32) .previousHashLength
  ensure (head.changedBitmap.isEmpty ||
    head.changedBitmap.length = bitmapLen consumer.keyCount) .canonicalBitmapLength
  packedValues head.values consumer.keyCount

def checkRejected (event : Wire.BlockRejected) : Except ContentError Unit := do
  ensure (event.blockHash.length = 32) .rejectedHashLength
  ensure (event.reason ≠ "") .emptyRejectionReason

def checkForkchoice (consumer : Consumer) (event : Wire.ForkchoiceApplied) :
    Except ContentError Unit := do
  ensure (advertises consumer.capabilities Wire.capForkchoiceApplied) .forkchoiceNotAdvertised
  let _ ← validateForkchoiceView event.view

def checkRetired (consumer : Consumer) (event : Wire.CandidatesRetired) :
    Except ContentError Unit := do
  ensure (advertises consumer.capabilities Wire.capCandidateRetirement) .retirementNotAdvertised
  checkReason event.reason
  ensure (event.blockHashes ≠ []) .emptyRetirement
  ensure (event.blockHashes.all fun hash => hash.length = 32) .retiredHashLength

def checkLive (consumer : Consumer) : Wire.Event → Except ContentError Unit
  | .snapshot snapshot => consumer.checkSnapshot snapshot
  | .blockState state => consumer.checkBlockState state
  | .canonicalHead head => consumer.checkCanonicalHead head
  | .blockValidated event => ensure (event.blockHash.length = 32) .validatedHashLength
  | .blockRejected event => checkRejected event
  | .forkchoiceApplied event => consumer.checkForkchoice event
  | .candidatesRetired event => consumer.checkRetired event
  | .gap gap => ensure (gap.reason ≠ "") .emptyGapReason
  | .hello _ | .configActivated _ => .ok ()

/-- The checks of `main` on an event that the cursor accepted. -/
def check (consumer : Consumer) (generation : Generation) (event : Wire.Event) :
    Except ContentError Consumer :=
  match event with
  | .hello hello => consumer.checkHello hello
  | .configActivated config => consumer.checkConfig generation config
  | event => do
    validateGeneration consumer.activeGeneration generation
    consumer.checkLive event
    .ok consumer

def checkEnvelope (consumer : Consumer) (envelope : Wire.Envelope) :
    Except ContentError Consumer :=
  match envelope.event with
  | none => .error .missingEvent
  | some event => consumer.check envelope.configGeneration event

/-- The checks over a whole sequence of frames. -/
def checkAll (envelopes : List Wire.Envelope) : Except ContentError Consumer :=
  Acceptor.run checkEnvelope initial envelopes

end Consumer

end Statefeed.Dump
