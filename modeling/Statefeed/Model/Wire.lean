import Statefeed.Model.Feed

set_option autoImplicit false

namespace Statefeed.Wire

def protocolVersion : Nat := 2

def capFullProjections : Nat := 1
def capValidated : Nat := 2
def capCanonical : Nat := 4
def capRejected : Nat := 8
def capExecuted : Nat := 16
def capForkchoiceApplied : Nat := 32
def capCandidateRetirement : Nat := 64

structure WatchKey where
  keyId : Nat
  id : String
  address : Bytes
  slot : Bytes
deriving DecidableEq

structure BlockRef where
  number : Nat
  hash : Bytes
  parentHash : Bytes
  timestamp : Nat
deriving DecidableEq

structure CheckpointRef where
  number : Nat
  hash : Bytes
deriving DecidableEq

structure ForkchoiceView where
  head : Option CheckpointRef
  safe : Option CheckpointRef
  finalized : Option CheckpointRef
deriving DecidableEq

inductive BlockStage where
  | unspecified | executed | validated
deriving DecidableEq

def BlockStage.code : BlockStage → Nat
  | unspecified => 0
  | executed => 1
  | validated => 2

inductive RetirementReason where
  | unspecified | finalizedConflict | cacheEvicted | retentionExpired | sourcePruned
deriving DecidableEq

def RetirementReason.code : RetirementReason → Nat
  | unspecified => 0
  | finalizedConflict => 1
  | cacheEvicted => 2
  | retentionExpired => 3
  | sourcePruned => 4

structure Hello where
  serviceVersion : String
  chainId : Nat
  genesisHash : Bytes
  capabilities : Nat
deriving DecidableEq

structure ConfigActivated where
  keys : List WatchKey
deriving DecidableEq

structure Snapshot where
  block : Option BlockRef
  values : Bytes
  forkchoice : Option ForkchoiceView
deriving DecidableEq

structure BlockState where
  stage : Nat
  block : Option BlockRef
  values : Bytes
  changedBitmap : Bytes
deriving DecidableEq

structure BlockValidated where
  blockHash : Bytes
deriving DecidableEq

structure BlockRejected where
  blockHash : Bytes
  reason : String
deriving DecidableEq

structure CanonicalHead where
  previousBlockHash : Bytes
  block : Option BlockRef
  values : Bytes
  changedBitmap : Bytes
deriving DecidableEq

structure ForkchoiceApplied where
  view : Option ForkchoiceView
deriving DecidableEq

structure CandidatesRetired where
  blockHashes : List Bytes
  reason : Nat
deriving DecidableEq

structure Gap where
  lastContiguousSequence : Nat
  reason : String
deriving DecidableEq

inductive Event where
  | hello (hello : Hello)
  | configActivated (config : ConfigActivated)
  | snapshot (snapshot : Snapshot)
  | blockState (state : BlockState)
  | blockValidated (validated : BlockValidated)
  | blockRejected (rejected : BlockRejected)
  | canonicalHead (head : CanonicalHead)
  | gap (gap : Gap)
  | forkchoiceApplied (applied : ForkchoiceApplied)
  | candidatesRetired (retired : CandidatesRetired)
deriving DecidableEq

structure Envelope where
  protocolVersion : Nat
  bootId : Bytes
  sequence : Nat
  configGeneration : Nat
  emittedAtMonotonicNs : Nat
  event : Option Event
deriving DecidableEq

-- One byte, and one more for every further group of seven bits of a 64-bit value.
def varintLen (value : Nat) : Nat :=
  1 + (List.range 9).countP fun group => 2 ^ (7 * (group + 1)) ≤ value

def keyLen (tag : Nat) : Nat := varintLen (tag * 8)

-- A zero scalar and an empty string or byte field are not encoded.
def uintLen (tag value : Nat) : Nat := if value = 0 then 0 else keyLen tag + varintLen value

def delimitedLen (tag length : Nat) : Nat := keyLen tag + varintLen length + length

def bytesLen (tag length : Nat) : Nat := if length = 0 then 0 else delimitedLen tag length

def messageLen {α : Type} (tag : Nat) (length : α → Nat) : Option α → Nat
  | some message => delimitedLen tag (length message)
  | none => 0

def repeatedLen {α : Type} (tag : Nat) (length : α → Nat) (items : List α) : Nat :=
  (items.map fun item => delimitedLen tag (length item)).sum

def WatchKey.encodedLen (key : WatchKey) : Nat :=
  uintLen 1 key.keyId + bytesLen 2 key.id.utf8ByteSize + bytesLen 3 key.address.length +
    bytesLen 4 key.slot.length

def BlockRef.encodedLen (block : BlockRef) : Nat :=
  uintLen 1 block.number + bytesLen 2 block.hash.length + bytesLen 3 block.parentHash.length +
    uintLen 4 block.timestamp

def CheckpointRef.encodedLen (checkpoint : CheckpointRef) : Nat :=
  uintLen 1 checkpoint.number + bytesLen 2 checkpoint.hash.length

def ForkchoiceView.encodedLen (view : ForkchoiceView) : Nat :=
  messageLen 1 CheckpointRef.encodedLen view.head +
    messageLen 2 CheckpointRef.encodedLen view.safe +
    messageLen 3 CheckpointRef.encodedLen view.finalized

def Event.encodedLen : Event → Nat
  | hello m =>
    delimitedLen 10 (bytesLen 1 m.serviceVersion.utf8ByteSize + uintLen 2 m.chainId +
      bytesLen 3 m.genesisHash.length + uintLen 4 m.capabilities)
  | configActivated m => delimitedLen 11 (repeatedLen 1 WatchKey.encodedLen m.keys)
  | snapshot m =>
    delimitedLen 12 (messageLen 1 BlockRef.encodedLen m.block + bytesLen 2 m.values.length +
      messageLen 3 ForkchoiceView.encodedLen m.forkchoice)
  | blockState m =>
    delimitedLen 13 (uintLen 1 m.stage + messageLen 2 BlockRef.encodedLen m.block +
      bytesLen 3 m.values.length + bytesLen 4 m.changedBitmap.length)
  | blockValidated m => delimitedLen 14 (bytesLen 1 m.blockHash.length)
  | blockRejected m =>
    delimitedLen 15 (bytesLen 1 m.blockHash.length + bytesLen 2 m.reason.utf8ByteSize)
  | canonicalHead m =>
    delimitedLen 16 (bytesLen 2 m.previousBlockHash.length +
      messageLen 3 BlockRef.encodedLen m.block + bytesLen 4 m.values.length +
      bytesLen 5 m.changedBitmap.length)
  | gap m => delimitedLen 17 (uintLen 1 m.lastContiguousSequence + bytesLen 2 m.reason.utf8ByteSize)
  | forkchoiceApplied m => delimitedLen 18 (messageLen 1 ForkchoiceView.encodedLen m.view)
  | candidatesRetired m =>
    delimitedLen 19 (repeatedLen 1 List.length m.blockHashes + uintLen 2 m.reason)

def Envelope.encodedLen (envelope : Envelope) : Nat :=
  uintLen 1 envelope.protocolVersion + bytesLen 2 envelope.bootId.length +
    uintLen 3 envelope.sequence + uintLen 4 envelope.configGeneration +
    uintLen 5 envelope.emittedAtMonotonicNs + (envelope.event.elim 0 Event.encodedLen)

inductive EncodeError where
  | frameTooLarge (actual limit : Nat)
  | lengthOverflow
deriving DecidableEq

-- The length prefix and the message behind it.
structure Frame where
  length : Nat
  payload : Envelope

def encodeFrame (envelope : Envelope) (maxFrameBytes : Nat) : Except EncodeError Frame :=
  if envelope.encodedLen > maxFrameBytes then
    .error (.frameTooLarge envelope.encodedLen maxFrameBytes)
  else if envelope.encodedLen ≥ 2 ^ 32 then .error .lengthOverflow
  else .ok { length := envelope.encodedLen, payload := envelope }

def Envelope.restamp (envelope : Envelope) (sequence emittedAt : Nat) : Envelope :=
  { envelope with sequence := sequence, emittedAtMonotonicNs := emittedAt }

theorem varintLen_le_ten (value : Nat) : varintLen value ≤ 10 := by
  have groups := List.countP_le_length (l := List.range 9)
    (p := fun group => decide (2 ^ (7 * (group + 1)) ≤ value))
  simp only [List.length_range] at groups
  unfold varintLen
  omega

theorem uintLen_le_max (tag value : Nat) : uintLen tag value ≤ uintLen tag (2 ^ 64 - 1) := by
  have widest : varintLen (2 ^ 64 - 1) = 10 := by decide
  have width := varintLen_le_ten value
  simp only [uintLen, widest]
  split
  · omega
  · rw [if_neg (by decide)]
    omega

theorem encodeFrame_payload {envelope : Envelope} {maxFrameBytes : Nat} {frame : Frame}
    (encoded : encodeFrame envelope maxFrameBytes = .ok frame) : frame.payload = envelope := by
  unfold encodeFrame at encoded
  split_ifs at encoded
  cases encoded
  rfl

-- A preflight frame carries the widest sequence and emission time.
theorem encodeFrame_of_preflight (envelope : Envelope) {maxFrameBytes : Nat} {frame : Frame}
    (sequence emittedAt : Nat)
    (preflight : encodeFrame (envelope.restamp (2 ^ 64 - 1) (2 ^ 64 - 1)) maxFrameBytes =
      .ok frame) :
    ∃ sent, encodeFrame (envelope.restamp sequence emittedAt) maxFrameBytes = .ok sent := by
  have smaller : (envelope.restamp sequence emittedAt).encodedLen ≤
      (envelope.restamp (2 ^ 64 - 1) (2 ^ 64 - 1)).encodedLen := by
    have first := uintLen_le_max 3 sequence
    have second := uintLen_le_max 5 emittedAt
    simp only [Envelope.encodedLen, Envelope.restamp]
    omega
  unfold encodeFrame at preflight ⊢
  split_ifs at preflight with tooLarge overflow
  rw [if_neg (by omega), if_neg (by omega)]
  exact ⟨_, rfl⟩

end Statefeed.Wire
