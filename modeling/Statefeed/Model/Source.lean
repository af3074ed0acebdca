import Statefeed.Model.Node

set_option autoImplicit false

namespace Statefeed

open Effect

structure Header where
  number : Nat
  parentHash : B256
  timestamp : Nat

def Header.blockMeta (header : Header) (blockHash : B256) : BlockMeta where
  number := header.number
  hash := blockHash
  parentHash := header.parentHash
  timestamp := header.timestamp

inductive Query where
  | chainInfo | safeBlockNumHash | finalizedBlockNumHash
  | sealedHeaderByHash (blockHash : B256)
  | stateByBlockHash (blockHash : B256)
  | storage (blockHash : B256) (address : Address) (slot : B256)

structure Provider where
  best : CheckpointMeta
  safe : Option CheckpointMeta
  finalized : Option CheckpointMeta
  headers : B256 → Option Header
  states : B256 → Option (Address → B256 → Option U256)
  fails : Query → Bool

/-- The node at the moment of one read. -/
structure Moment where
  tracker : AppliedForkchoiceTracker
  provider : Provider
  clock : Instant

inductive SourceError where
  | provider (query : Query)
  | headerNotFound (blockHash : B256)
  | forkchoiceKeptChanging (tracked confirmed : Nat)
  | canonicalHeadKeptChanging (attempted now : B256)
  -- The end of the loop over the attempts.
  | unreachable

namespace SnapshotSource

-- The node at the first read, at the second one, and so on. The state of an operation is the
-- number of reads made before it.
variable (history : Nat → Moment)

def read {α : Type} (look : Moment → Except SourceError α) : Op Nat SourceError α := fun reads =>
  (look (history reads), reads + 1)

def loadTracker : Op Nat SourceError TrackedForkchoice :=
  read history fun moment => .ok moment.tracker.latest

def now : Op Nat SourceError Instant := read history fun moment => .ok moment.clock

def ask {α : Type} (query : Query) (answer : Provider → α) : Op Nat SourceError α :=
  read history fun moment =>
    if moment.provider.fails query then .error (.provider query) else .ok (answer moment.provider)

/-- The values of the keys, read from the state of one block. -/
def storage (blockHash : B256) (state : Address → B256 → Option U256) :
    List WatchKey → Op Nat SourceError Bytes
  | [] => pure []
  | key :: rest => do
    let value ← ask history (.storage blockHash key.address key.slot) fun _ =>
      (state key.address key.slot).getD 0
    let values ← storage blockHash state rest
    pure (U256.toBeBytes value ++ values)

def loadAt (watchSet : WatchSet) (blockHash : B256) : Op Nat SourceError Projection := do
  let header ← ask history (.sealedHeaderByHash blockHash) (·.headers blockHash)
  match header with
  | none => Op.throw (.headerNotFound blockHash)
  | some header =>
    let state ← ask history (.stateByBlockHash blockHash) (·.states blockHash)
    match state with
    | none => Op.throw (.provider (.stateByBlockHash blockHash))
    | some state =>
      let values ← storage history blockHash state watchSet.keys
      pure { block := header.blockMeta blockHash, watchSet, values, changedBitmap := [] }

-- An attempt returns `none` where the loop continues.
def loadApplied (watchSet : WatchSet) (attempt : Nat) (tracked : TrackedForkchoice)
    (view : AppliedForkchoiceMeta) : Op Nat SourceError (Option CanonicalSnapshot) := do
  let loaded ← Op.attempt (loadAt history watchSet view.headHash)
  match loaded with
  | .error failure =>
    let confirmed ← loadTracker history
    if confirmed.revision ≠ tracked.revision ∧ attempt < maxCanonicalSnapshotAttempts then pure none
    else Op.throw failure
  | .ok projection =>
    let anchoredAt ← now history
    let confirmed ← loadTracker history
    if confirmed.revision = tracked.revision then
      pure (some { projection, anchoredAt, forkchoice := view.resolve projection.block.number })
    else if attempt = maxCanonicalSnapshotAttempts then
      Op.throw (.forkchoiceKeptChanging tracked.revision confirmed.revision)
    else pure none

def confirm (attempt : Nat) (tracked : TrackedForkchoice) (view : ForkchoiceMeta)
    (projection : Projection) : Op Nat SourceError (Option CanonicalSnapshot) := do
  let anchoredAt ← now history
  let confirmedTracked ← loadTracker history
  let confirmed ← ask history .chainInfo (·.best)
  let confirmedSafe ← ask history .safeBlockNumHash (·.safe)
  let confirmedFinalized ← ask history .finalizedBlockNumHash (·.finalized)
  if confirmedTracked.revision = tracked.revision ∧ confirmedTracked.view.isNone ∧
      confirmed.hash = view.head.hash ∧ confirmedSafe = view.safe ∧
      confirmedFinalized = view.finalized then
    pure (some { projection, anchoredAt, forkchoice := view })
  else if attempt = maxCanonicalSnapshotAttempts then
    if confirmedTracked.revision ≠ tracked.revision then
      Op.throw (.forkchoiceKeptChanging tracked.revision confirmedTracked.revision)
    else Op.throw (.canonicalHeadKeptChanging view.head.hash confirmed.hash)
  else pure none

def loadCanonical (watchSet : WatchSet) (attempt : Nat) (tracked : TrackedForkchoice) :
    Op Nat SourceError (Option CanonicalSnapshot) := do
  let selected ← ask history .chainInfo (·.best)
  let selectedSafe ← ask history .safeBlockNumHash (·.safe)
  let selectedFinalized ← ask history .finalizedBlockNumHash (·.finalized)
  let loaded ← Op.attempt (loadAt history watchSet selected.hash)
  match loaded with
  | .error failure =>
    let confirmedTracked ← loadTracker history
    let confirmed ← ask history .chainInfo (·.best)
    if (confirmedTracked.revision ≠ tracked.revision ∨ confirmed.hash ≠ selected.hash) ∧
        attempt < maxCanonicalSnapshotAttempts then pure none
    else Op.throw failure
  | .ok projection =>
    confirm history attempt tracked
      { head := selected, safe := selectedSafe, finalized := selectedFinalized } projection

def loadAttempt (watchSet : WatchSet) (attempt : Nat) :
    Op Nat SourceError (Option CanonicalSnapshot) := do
  let tracked ← loadTracker history
  match tracked.view with
  | some view => loadApplied history watchSet attempt tracked view
  | none => loadCanonical history watchSet attempt tracked

def loadAttempts (watchSet : WatchSet) : Nat → Nat → Op Nat SourceError CanonicalSnapshot
  | 0, _ => Op.throw .unreachable
  | remaining + 1, attempt => do
    let loaded ← loadAttempt history watchSet attempt
    match loaded with
    | some snapshot => pure snapshot
    | none => loadAttempts watchSet remaining (attempt + 1)

def loadLatest (watchSet : WatchSet) : Op Nat SourceError CanonicalSnapshot :=
  loadAttempts history watchSet maxCanonicalSnapshotAttempts 1

end SnapshotSource

end Statefeed
