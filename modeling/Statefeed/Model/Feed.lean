import Statefeed.Model.Watch

set_option autoImplicit false

namespace Statefeed

abbrev Instant := Nat
abbrev Duration := Nat

structure BlockMeta where
  number : Nat
  hash : B256
  parentHash : B256
  timestamp : Nat
deriving DecidableEq

structure CheckpointMeta where
  number : Nat
  hash : B256
deriving DecidableEq

structure ForkchoiceMeta where
  head : CheckpointMeta
  safe : Option CheckpointMeta
  finalized : Option CheckpointMeta
deriving DecidableEq

structure AppliedForkchoiceMeta where
  headHash : B256
  safe : Option CheckpointMeta
  finalized : Option CheckpointMeta
deriving DecidableEq

def AppliedForkchoiceMeta.resolve (applied : AppliedForkchoiceMeta) (headNumber : Nat) :
    ForkchoiceMeta :=
  let coherent (checkpoint : CheckpointMeta) : Option CheckpointMeta :=
    if checkpoint.number ≤ headNumber then some checkpoint else none
  { head := { number := headNumber, hash := applied.headHash }
    safe := applied.safe.bind coherent
    finalized := applied.finalized.bind coherent }

inductive FeedEvent where
  | executed (observedAt : Instant) (generation : Generation) (block : BlockMeta)
      (changes : BlockChanges)
  | validated (observedAt : Instant) (generation : Generation) (blockHash : B256)
  | validatedFallback (observedAt : Instant) (generation : Generation) (block : BlockMeta)
      (changes : BlockChanges)
  | canonicalStateReset (observedAt : Instant) (generation : Generation) (head : CheckpointMeta)
  | forkchoiceApplied (observedAt : Instant) (generation : Generation)
      (view : AppliedForkchoiceMeta)
  | rejected (observedAt : Instant) (generation : Generation) (blockHash : B256) (reason : String)

def FeedEvent.generation : FeedEvent → Generation
  | executed _ generation _ _ | validated _ generation _ | validatedFallback _ generation _ _
  | canonicalStateReset _ generation _ | forkchoiceApplied _ generation _
  | rejected _ generation _ _ => generation

def FeedEvent.observedAt : FeedEvent → Instant
  | executed observedAt _ _ _ | validated observedAt _ _ | validatedFallback observedAt _ _ _
  | canonicalStateReset observedAt _ _ | forkchoiceApplied observedAt _ _
  | rejected observedAt _ _ _ => observedAt

-- The block and delta of the two events that carry one.
def FeedEvent.delta : FeedEvent → Option (BlockMeta × BlockChanges)
  | executed _ _ block changes | validatedFallback _ _ block changes => some (block, changes)
  | _ => none

structure StorageSlot where
  originalValue : U256
  presentValue : U256

def StorageSlot.isChanged (slot : StorageSlot) : Bool := slot.originalValue ≠ slot.presentValue

structure BundleAccount where
  wasDestroyed : Bool
  storage : Table U256 StorageSlot

abbrev BundleState := Table Address BundleAccount

-- Index of the first watched slot that is not below the key, in slots sorted by key.
def binarySearchSlot (slots : List SlotWatch) (key : U256) : Option SlotWatch :=
  match slots.dropWhile (fun watched => watched.slot < key) with
  | watched :: _ => if watched.slot = key then some watched else none
  | [] => none

def extractWatchedSlot (account : BundleAccount) (watched : SlotWatch) : BlockChanges :=
  match account.storage.get watched.slot with
  | some slot =>
    if slot.isChanged || account.wasDestroyed then
      [{ keyId := watched.keyId, newValue := slot.presentValue }]
    else []
  | none =>
    if account.wasDestroyed then [{ keyId := watched.keyId, newValue := 0 }] else []

def extractStoredSlot (addressWatch : AddressWatch) (account : BundleAccount) (slotKey : U256) :
    BlockChanges :=
  match account.storage.get slotKey with
  | none => []
  | some slot =>
    if slot.isChanged then
      let keyId :=
        if addressWatch.slotToKey.size = 0 then
          (binarySearchSlot addressWatch.slots slotKey).map SlotWatch.keyId
        else addressWatch.slotToKey.get slotKey
      match keyId with
      | some keyId => [{ keyId, newValue := slot.presentValue }]
      | none => []
    else []

def extractAccountChanges (addressWatch : AddressWatch) (account : BundleAccount) :
    BlockChanges :=
  if account.wasDestroyed ∨ addressWatch.slots.length ≤ account.storage.size then
    addressWatch.slots.flatMap (extractWatchedSlot account)
  else account.storage.keys.flatMap (extractStoredSlot addressWatch account)

def extractChanges (watchSet : WatchSet) (bundle : BundleState) : BlockChanges :=
  if watchSet.addresses.length ≤ bundle.size then
    watchSet.addresses.flatMap fun addressWatch =>
      match bundle.get addressWatch.address with
      | some account => extractAccountChanges addressWatch account
      | none => []
  else
    bundle.keys.flatMap fun address =>
      match bundle.get address, watchSet.address address with
      | some account, some addressWatch => extractAccountChanges addressWatch account
      | _, _ => []

end Statefeed
