import Statefeed.Model.Handoff

set_option autoImplicit false

namespace Statefeed

structure ExecutedBlock where
  block : BlockMeta
  state : BundleState

inductive InsertPayloadError where
  -- The payload did not convert to a block.
  | payload
  | block (isValidationError : Bool)

structure Validation where
  -- The block that the execution observer is told about.
  observed : Option ExecutedBlock
  outcome : Except InsertPayloadError ExecutedBlock

inductive EngineCall where
  | validatePayload (blockHash : B256) (validation : Validation)
  | validateBlock (blockHash : B256) (validation : Validation)
  -- The provider may fail to return the inserted block.
  | onInsertedExecutedBlock (inserted : Option ExecutedBlock)
  | onCanonicalHeadChanged (hash : B256)
  | onCanonicalStateReset (head : CheckpointMeta)
  | onForkchoiceApplied (view : AppliedForkchoiceMeta)

structure EngineValidator where
  publishExecuted : Bool

namespace EngineValidator

def onExecuted (info : ExecutedBlock) : Publish := .executed info.block info.state

def publishValidatedFallback (executed : ExecutedBlock) : Publish :=
  .validatedFallback executed.block executed.state

def onValidated (validator : EngineValidator) (executed : ExecutedBlock) : Publish :=
  if validator.publishExecuted then .validated executed.block.hash
  else publishValidatedFallback executed

def publishRejectedIfInvalid (blockHash : B256) : InsertPayloadError → List Publish
  | .payload => []
  | .block true => [.rejected blockHash "block_validation_failed"]
  | .block false => []

/-- The body of `validate_payload` and `validate_block`. -/
def validate (validator : EngineValidator) (blockHash : B256) (validation : Validation) :
    List Publish :=
  -- The observer is installed only if executed blocks are published.
  (if validator.publishExecuted then validation.observed.toList.map onExecuted else []) ++
    match validation.outcome with
    | .ok executed => [validator.onValidated executed]
    | .error error => publishRejectedIfInvalid blockHash error

def publishes (validator : EngineValidator) : EngineCall → List Publish
  | .validatePayload blockHash validation => validator.validate blockHash validation
  | .validateBlock blockHash validation => validator.validate blockHash validation
  | .onInsertedExecutedBlock inserted => inserted.toList.map publishValidatedFallback
  | .onCanonicalHeadChanged _ => []
  | .onCanonicalStateReset head => [.canonicalStateReset head]
  | .onForkchoiceApplied view => [.forkchoiceApplied view]

def Produces (validator : EngineValidator) (calls : EngineCall → Prop) (event : FeedEvent) : Prop :=
  ∃ call observedAt watchSet publish, calls call ∧ publish ∈ validator.publishes call ∧
    event = Produced.event { observedAt, watchSet, publish }

end EngineValidator

end Statefeed
