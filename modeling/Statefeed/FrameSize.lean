import Statefeed.Machine.Shape
import Statefeed.Model.Sample
import Statefeed.Stream.Session

set_option autoImplicit false

namespace Statefeed

namespace Wire

theorem varintLen_mono {left right : Nat} (smaller : left ≤ right) :
    varintLen left ≤ varintLen right := by
  have groups : (List.range 9).countP (fun group => decide (2 ^ (7 * (group + 1)) ≤ left)) ≤
      (List.range 9).countP (fun group => decide (2 ^ (7 * (group + 1)) ≤ right)) := by
    apply List.countP_mono_left
    intro group _ reached
    exact decide_eq_true ((of_decide_eq_true reached).trans smaller)
  unfold varintLen
  omega

theorem varintLen_short {value : Nat} (short : value < 2 ^ 7) : varintLen value ≤ 1 :=
  (varintLen_mono (Nat.le_sub_one_of_lt short)).trans (by decide)

theorem varintLen_u32 {value : Nat} (fits : value < 2 ^ 32) : varintLen value ≤ 5 :=
  (varintLen_mono (Nat.le_sub_one_of_lt fits)).trans (by decide)

theorem keyLen_le {tag : Nat} (small : tag < 20) : keyLen tag ≤ 2 :=
  (varintLen_mono (show tag * 8 ≤ 2 ^ 14 - 1 by omega)).trans (by decide)

theorem uintLen_le (tag value : Nat) (small : tag < 20) : uintLen tag value ≤ 12 := by
  have key := keyLen_le small
  have width := varintLen_le_ten value
  unfold uintLen
  split <;> omega

theorem uintLen_u32 (tag : Nat) {value : Nat} (small : tag < 20) (fits : value < 2 ^ 32) :
    uintLen tag value ≤ 7 := by
  have key := keyLen_le small
  have width := varintLen_u32 fits
  unfold uintLen
  split <;> omega

theorem delimitedLen_le (tag : Nat) {length : Nat} (small : tag < 20) (fits : length < 2 ^ 32) :
    delimitedLen tag length ≤ 7 + length := by
  have key := keyLen_le small
  have width := varintLen_u32 fits
  unfold delimitedLen
  omega

theorem messageLen_le {α : Type} (tag : Nat) {length : α → Nat} {message : α} {bound : Nat}
    (small : tag < 20) (inner : length message ≤ bound) (fits : bound < 2 ^ 32) :
    messageLen tag length (some message) ≤ 7 + bound := by
  have outer := delimitedLen_le tag small (inner.trans_lt fits)
  change delimitedLen tag (length message) ≤ _
  omega

theorem bytesLen_le (tag : Nat) {length : Nat} (small : tag < 20) (fits : length < 2 ^ 32) :
    bytesLen tag length ≤ 7 + length := by
  have delimited := delimitedLen_le tag small fits
  unfold bytesLen
  split <;> omega

theorem bytesLen_short (tag : Nat) {length : Nat} (small : tag < 20) (short : length < 2 ^ 7) :
    bytesLen tag length ≤ 3 + length := by
  have key := keyLen_le small
  have width := varintLen_short short
  unfold bytesLen delimitedLen
  split <;> omega

theorem bytesLen_hash (tag : Nat) (hash : B256) (small : tag < 20) :
    bytesLen tag (B256.toVec hash).length ≤ 35 := by
  rw [B256.length_toVec]
  exact bytesLen_short tag small (by decide)

end Wire

open Wire

theorem blockRef_encodedLen (block : BlockMeta) : (blockRef block).encodedLen ≤ 94 := by
  have number := uintLen_le 1 block.number (by decide)
  have hash := bytesLen_hash 2 block.hash (by decide)
  have parent := bytesLen_hash 3 block.parentHash (by decide)
  have timestamp := uintLen_le 4 block.timestamp (by decide)
  unfold blockRef BlockRef.encodedLen
  dsimp only
  omega

theorem messageLen_blockRef (tag : Nat) (block : BlockMeta) (small : tag < 20) :
    messageLen tag BlockRef.encodedLen (some (blockRef block)) ≤ 101 :=
  messageLen_le tag small (blockRef_encodedLen block) (by decide)

theorem messageLen_checkpointRef (tag : Nat) (checkpoint : Option CheckpointMeta)
    (small : tag < 20) :
    messageLen tag CheckpointRef.encodedLen (checkpoint.map checkpointRef) ≤ 54 := by
  cases checkpoint with
  | none => exact Nat.zero_le _
  | some checkpoint =>
    have number := uintLen_le 1 checkpoint.number (by decide)
    have hash := bytesLen_hash 2 checkpoint.hash (by decide)
    have inner : (checkpointRef checkpoint).encodedLen ≤ 47 := by
      unfold checkpointRef CheckpointRef.encodedLen
      dsimp only
      omega
    exact messageLen_le tag small inner (by decide)

theorem messageLen_forkchoiceView (tag : Nat) (view : ForkchoiceMeta) (small : tag < 20) :
    messageLen tag ForkchoiceView.encodedLen (some (forkchoiceView view)) ≤ 169 := by
  have head := messageLen_checkpointRef 1 (some view.head) (by decide)
  have safe := messageLen_checkpointRef 2 view.safe (by decide)
  have finalized := messageLen_checkpointRef 3 view.finalized (by decide)
  rw [Option.map_some] at head
  have inner : (forkchoiceView view).encodedLen ≤ 162 := by
    unfold forkchoiceView ForkchoiceView.encodedLen
    dsimp only
    omega
  exact messageLen_le tag small inner (by decide)

theorem envelope_encodedLen {envelope : Wire.Envelope} {event : Wire.Event}
    (boot : envelope.bootId.length ≤ 16) (carries : envelope.event = some event) :
    envelope.encodedLen ≤ 67 + event.encodedLen := by
  have version := uintLen_le 1 envelope.protocolVersion (by decide)
  have bootId := bytesLen_short 2 (by decide) (show envelope.bootId.length < 2 ^ 7 by omega)
  have sequence := uintLen_le 3 envelope.sequence (by decide)
  have generation := uintLen_le 4 envelope.configGeneration (by decide)
  have emitted := uintLen_le 5 envelope.emittedAtMonotonicNs (by decide)
  unfold Envelope.encodedLen
  rw [carries, Option.elim_some]
  omega

namespace Config

variable {config : Config}

def idBytes (key : WatchConfig) : Nat := 80 + key.id.utf8ByteSize

theorem foldl_saturating (watch : List WatchConfig) (size : Nat) (bounded : size ≤ usizeMax) :
    watch.foldl (fun size key => saturatingAdd (saturatingAdd size 80) key.id.utf8ByteSize) size =
      min (size + (watch.map idBytes).sum) usizeMax := by
  induction watch generalizing size with
  | nil => simp [bounded]
  | cons key rest ih =>
    have capped : saturatingAdd (saturatingAdd size 80) key.id.utf8ByteSize ≤ usizeMax :=
      Nat.min_le_right ..
    rw [List.foldl_cons, ih _ capped, List.map_cons, List.sum_cons]
    unfold saturatingAdd idBytes
    omega

theorem Valid.dictionary_le (valid : config.Valid) (bounded : config.stream.maxFrameBytes < 2 ^ 32) :
    512 + (config.watch.map idBytes).sum ≤ config.stream.maxFrameBytes := by
  have required := (Nat.le_max_right config.projectionBytes config.dictionaryBytes).trans valid.frame
  unfold dictionaryBytes at required
  rw [foldl_saturating _ _ (by decide)] at required
  unfold usizeMax at required
  omega

theorem Valid.projection_le (valid : config.Valid) (bounded : config.stream.maxFrameBytes < 2 ^ 32) :
    32 * config.watch.length + bitmapLen config.watch.length + 512 ≤
      config.stream.maxFrameBytes := by
  have required := (Nat.le_max_left config.projectionBytes config.dictionaryBytes).trans valid.frame
  unfold projectionBytes saturatingAdd saturatingMul usizeMax at required
  unfold bitmapLen
  omega

theorem Valid.least (valid : config.Valid) : 1024 ≤ config.stream.maxFrameBytes :=
  (StreamConfig.validate_limits valid.stream).2.2.2.2

end Config

def wireKey (key : WatchKey) : Wire.WatchKey where
  keyId := key.keyId
  id := key.id
  address := Address.toVec key.address
  slot := B256.toVec key.slot

theorem wireKey_encodedLen {key : WatchKey} (indexed : key.keyId < 2 ^ 32)
    (fits : 80 + key.id.utf8ByteSize < 2 ^ 32) :
    delimitedLen 1 (wireKey key).encodedLen ≤ 80 + key.id.utf8ByteSize := by
  have keyId := uintLen_u32 1 (by decide) indexed
  have id := bytesLen_le 2 (by decide) (show key.id.utf8ByteSize < 2 ^ 32 by omega)
  have address : bytesLen 3 (Address.toVec key.address).length ≤ 23 := by
    simp only [Address.toVec, BigEndian.length_encode]
    decide
  have slot := bytesLen_hash 4 key.slot (by decide)
  have inner : (wireKey key).encodedLen ≤ 72 + key.id.utf8ByteSize := by
    unfold wireKey WatchKey.encodedLen
    dsimp only
    omega
  have outer := delimitedLen_le 1 (by decide) (show (wireKey key).encodedLen < 2 ^ 32 by omega)
  omega

theorem keys_encodedLen {keys : List WatchKey} (indexed : ∀ key ∈ keys, key.keyId < 2 ^ 32)
    (fits : (keys.map fun key => 80 + key.id.utf8ByteSize).sum < 2 ^ 32) :
    repeatedLen 1 Wire.WatchKey.encodedLen (keys.map wireKey) ≤
      (keys.map fun key => 80 + key.id.utf8ByteSize).sum := by
  induction keys with
  | nil => exact Nat.zero_le _
  | cons key rest ih =>
    obtain ⟨first, later⟩ := List.forall_mem_cons.mp indexed
    rw [List.map_cons, List.sum_cons] at fits
    have head := wireKey_encodedLen first (by omega)
    have tail := ih later (by omega)
    unfold repeatedLen at tail ⊢
    simp only [List.map_cons, List.sum_cons]
    omega

theorem dictionary_encodedLen (watchSet : WatchSet)
    (fits : (watchSet.configured.map Config.idBytes).sum < 2 ^ 32) :
    repeatedLen 1 Wire.WatchKey.encodedLen (configActivated watchSet).keys ≤
      (watchSet.configured.map Config.idBytes).sum := by
  have same : watchSet.keys.map (fun key => 80 + key.id.utf8ByteSize) =
      watchSet.configured.map Config.idBytes := by
    apply List.ext_getElem?
    intro index
    simp only [WatchSet.keys, List.getElem?_map, List.getElem?_mapIdx, Option.map_map]
    rfl
  have indexed : ∀ key ∈ watchSet.keys, key.keyId < 2 ^ 32 := by
    intro key member
    obtain ⟨index, inside, rfl⟩ := List.mem_mapIdx.mp member
    exact Nat.mod_lt _ (by decide)
  rw [← same] at fits ⊢
  exact keys_encodedLen indexed fits

theorem retired_encodedLen (hashes : List B256) :
    repeatedLen 1 List.length (hashes.map B256.toVec) = 34 * hashes.length := by
  induction hashes with
  | nil => rfl
  | cons hash rest ih =>
    have width : delimitedLen 1 (B256.toVec hash).length = 34 := by
      rw [B256.length_toVec]
      decide
    unfold repeatedLen at ih ⊢
    simp only [List.map_cons, List.sum_cons, List.length_cons, width, ih]
    omega

def gapReasons : List String :=
  ["publisher_error", "candidate_maintenance_error", "engine_queue_overflow",
    "canonical_state_reset"]

def rejectionReason : String := "block_validation_failed"

/-- The events of the publisher and of a handshake under a configuration. -/
inductive Built (config : Config) (shared : Shared) : Wire.Event → Prop
  | hello : Built config shared (.hello shared.hello)
  | configActivated (generation : Generation) :
      Built config shared
        (.configActivated (configActivated (WatchSet.compile generation config.watch)))
  | snapshot {projection : Projection} (forkchoice : ForkchoiceMeta)
      (values : projection.values.length = config.watch.length * 32) :
      Built config shared (.snapshot (snapshot projection forkchoice))
  | blockState {projection : Projection} (stage : Wire.BlockStage)
      (values : projection.values.length = config.watch.length * 32)
      (changed : projection.changedBitmap.length = bitmapLen config.watch.length) :
      Built config shared (.blockState (blockState projection stage))
  | canonicalHead {projection : Projection} {changedBitmap : Bytes} (previous : B256)
      (values : projection.values.length = config.watch.length * 32)
      (changed : changedBitmap.length = bitmapLen config.watch.length) :
      Built config shared (.canonicalHead
        { previousBlockHash := B256.toVec previous
          block := some (blockRef projection.block)
          values := projection.values
          changedBitmap })
  | forkchoiceApplied (view : ForkchoiceMeta) :
      Built config shared (.forkchoiceApplied { view := some (forkchoiceView view) })
  | blockValidated (hash : B256) :
      Built config shared (.blockValidated { blockHash := B256.toVec hash })
  | blockRejected (hash : B256) :
      Built config shared
        (.blockRejected { blockHash := B256.toVec hash, reason := rejectionReason })
  | gap {reason : String} (lastContiguousSequence : Nat) (known : reason ∈ gapReasons) :
      Built config shared (.gap { lastContiguousSequence, reason })
  | candidatesRetired {hashes batch : List B256} (reason : Wire.RetirementReason)
      (cut : batch ∈ Chunks.chunks shared.batchSize hashes) :
      Built config shared
        (.candidatesRetired { blockHashes := batch.map B256.toVec, reason := reason.code })

theorem delimited_fits (tag : Nat) {length limit : Nat} (small : tag < 20) (bounded : limit < 2 ^ 32)
    (inner : length + 74 ≤ limit) : 67 + delimitedLen tag length ≤ limit := by
  have outer := delimitedLen_le tag small (show length < 2 ^ 32 by omega)
  omega

theorem length_reason_le {reason : String} (known : reason ∈ rejectionReason :: gapReasons) :
    reason.utf8ByteSize < 2 ^ 7 := by
  have short : (rejectionReason :: gapReasons).all (·.utf8ByteSize < 2 ^ 7) = true := by decide
  exact of_decide_eq_true (List.all_eq_true.mp short reason known)

theorem built_encodedLen {config : Config} {shared : Shared} {event : Wire.Event}
    (valid : config.Valid) (bounded : config.stream.maxFrameBytes < 2 ^ 32)
    (limit : shared.maxFrameBytes = config.stream.maxFrameBytes)
    (built : Built config shared event) :
    67 + event.encodedLen ≤ config.stream.maxFrameBytes := by
  have least := valid.least
  have room := valid.projection_le bounded
  cases built with
  | hello =>
    have version : bytesLen 1 serviceVersion.utf8ByteSize ≤ 8 := by decide
    have chain := uintLen_le 2 shared.chainId (by decide)
    have genesis := bytesLen_hash 3 shared.genesisHash (by decide)
    have capabilities := uintLen_le 4 shared.capabilities (by decide)
    refine delimited_fits 10 (by decide) bounded ?_
    dsimp only [Shared.hello]
    omega
  | configActivated generation =>
    have budget := valid.dictionary_le bounded
    have keys := dictionary_encodedLen (WatchSet.compile generation config.watch)
      (show (config.watch.map Config.idBytes).sum < 2 ^ 32 by omega)
    refine delimited_fits 11 (by decide) bounded ?_
    dsimp only [WatchSet.compile] at keys ⊢
    omega
  | @snapshot projection forkchoice values =>
    have block := messageLen_blockRef 1 projection.block (by decide)
    have view := messageLen_forkchoiceView 3 forkchoice (by decide)
    have packed := bytesLen_le 2 (by decide) (show projection.values.length < 2 ^ 32 by omega)
    refine delimited_fits 12 (by decide) bounded ?_
    dsimp only [snapshot]
    omega
  | @blockState projection stage values changed =>
    have code := uintLen_le 1 stage.code (by decide)
    have block := messageLen_blockRef 2 projection.block (by decide)
    have packed := bytesLen_le 3 (by decide) (show projection.values.length < 2 ^ 32 by omega)
    have bits := bytesLen_le 4 (by decide) (show projection.changedBitmap.length < 2 ^ 32 by omega)
    refine delimited_fits 13 (by decide) bounded ?_
    dsimp only [blockState]
    omega
  | @canonicalHead projection changedBitmap previous values changed =>
    have parent := bytesLen_hash 2 previous (by decide)
    have block := messageLen_blockRef 3 projection.block (by decide)
    have packed := bytesLen_le 4 (by decide) (show projection.values.length < 2 ^ 32 by omega)
    have bits := bytesLen_le 5 (by decide) (show changedBitmap.length < 2 ^ 32 by omega)
    refine delimited_fits 16 (by decide) bounded ?_
    dsimp only
    omega
  | forkchoiceApplied view =>
    have shown := messageLen_forkchoiceView 1 view (by decide)
    exact delimited_fits 18 (by decide) bounded (by dsimp only; omega)
  | blockValidated hash =>
    have shown := bytesLen_hash 1 hash (by decide)
    exact delimited_fits 14 (by decide) bounded (by dsimp only; omega)
  | blockRejected hash =>
    have shown := bytesLen_hash 1 hash (by decide)
    have short := length_reason_le List.mem_cons_self
    have reason := bytesLen_short 2 (by decide) short
    exact delimited_fits 15 (by decide) bounded (by dsimp only; omega)
  | gap lastContiguousSequence known =>
    have sequence := uintLen_le 1 lastContiguousSequence (by decide)
    have short := length_reason_le (List.mem_cons_of_mem _ known)
    have reason := bytesLen_short 2 (by decide) short
    exact delimited_fits 17 (by decide) bounded (by dsimp only; omega)
  | @candidatesRetired hashes batch reason cut =>
    have size := (Chunks.mem_chunks shared.batchSize_pos cut).2
    have code := uintLen_le 2 reason.code (by decide)
    have named := retired_encodedLen batch
    unfold Shared.batchSize at size
    rw [limit] at size
    refine delimited_fits 19 (by decide) bounded ?_
    dsimp only
    omega

section

variable {config : Config} {shared : Shared} {event : Wire.Event}

theorem built_fits (envelope : Wire.Envelope) (valid : config.Valid)
    (bounded : config.stream.maxFrameBytes < 2 ^ 32)
    (limit : shared.maxFrameBytes = config.stream.maxFrameBytes)
    (built : Built config shared event) (boot : envelope.bootId.length ≤ 16)
    (carries : envelope.event = some event) :
    envelope.encodedLen ≤ shared.maxFrameBytes ∧
      ∃ frame, Wire.encodeFrame envelope shared.maxFrameBytes = .ok frame := by
  have payload := built_encodedLen valid bounded limit built
  have fits := (envelope_encodedLen boot carries).trans payload
  rw [limit]
  refine ⟨fits, ?_⟩
  unfold Wire.encodeFrame
  rw [if_neg (by omega), if_neg (by omega)]
  exact ⟨_, rfl⟩

theorem validateEventFrame_built (generation : Generation) (valid : config.Valid)
    (bounded : config.stream.maxFrameBytes < 2 ^ 32)
    (limit : shared.maxFrameBytes = config.stream.maxFrameBytes)
    (boot : shared.bootId.length = 16) (built : Built config shared event) :
    shared.validateEventFrame generation event = .ok () := by
  obtain ⟨_, frame, encoded⟩ := built_fits (shared.widestEnvelope generation event) valid bounded
    limit built boot.le rfl
  unfold Shared.validateEventFrame
  rw [encoded]

theorem length_configured (watchSet : WatchSet) : watchSet.len = watchSet.configured.length := by
  simp [WatchSet.len, WatchSet.keys]

theorem validateProjectionFrames_plain {projection : Projection} {forkchoice : ForkchoiceMeta}
    {failure : Error} (valid : config.Valid) (bounded : config.stream.maxFrameBytes < 2 ^ 32)
    (limit : shared.maxFrameBytes = config.stream.maxFrameBytes)
    (boot : shared.bootId.length = 16) (dictionary : projection.watchSet.configured = config.watch)
    (failed : validateProjectionFrames shared projection forkchoice = .error failure) :
    failure.Plain := by
  unfold validateProjectionFrames at failed
  rcases bind_error failed with shape | ⟨shape, failed⟩
  · exact validateProjectionShape_plain shape
  have values := (validateProjectionShape_ok shape).1
  have count := length_configured projection.watchSet
  rw [dictionary] at count
  rw [count] at values
  have bits : (List.replicate (bitmapLen projection.watchSet.len) (0xff : UInt8)).length =
      bitmapLen config.watch.length := by rw [List.length_replicate, count]
  have frame {event : Wire.Event} (built : Built config shared event) :=
    validateEventFrame_built projection.watchSet.generation valid bounded limit boot built
  have snapshotFits := frame (.snapshot forkchoice values)
  have stateFits := frame (@Built.blockState config shared { projection with
    changedBitmap := List.replicate (bitmapLen projection.watchSet.len) 0xff } .validated values bits)
  have headFits := frame (.canonicalHead 0 values bits)
  rcases bind_error failed with refused | ⟨_, failed⟩
  · cases snapshotFits.symm.trans refused
  rcases bind_error failed with refused | ⟨_, refused⟩
  · cases stateFits.symm.trans refused
  · cases headFits.symm.trans refused

end

namespace Machine

variable {world : Env → Prop} {stream : StreamConfig}

/-- Activated dictionaries were accepted with the same stream settings, and blocks are rejected
with the engine's reason. -/
def Configured (stream : StreamConfig) (_ : Publisher) : Input → Prop
  | .activation watchSet => (Config.mk stream watchSet.configured).validate = .ok ()
  | .event (.rejected _ _ _ reason) => reason = rejectionReason
  | _ => True

def Fits (stream : StreamConfig) (watchSet : WatchSet) : Prop :=
  (Config.mk stream watchSet.configured).Valid

structure Framed (stream : StreamConfig) (shared : Shared) : Prop where
  limit : shared.maxFrameBytes = stream.maxFrameBytes
  boot : shared.bootId.length = 16

theorem emits_built {state : State} {generation : Generation} {event : Wire.Event} {store : Store}
    (shaped : Shaped (Fits stream) state) (working : state.phase.Working)
    (emits : Emits world (Configured stream) state generation event store) :
    ∃ config : Config, config.stream = stream ∧ config.Valid ∧
      Built config state.publisher.shared event := by
  have valid := shaped.dictionary
  have current := length_configured state.publisher.active
  have own {event : Wire.Event}
      (built : Built ⟨stream, state.publisher.active.configured⟩ state.publisher.shared event) :
      ∃ config : Config, config.stream = stream ∧ config.Valid ∧
        Built config state.publisher.shared event := ⟨_, rfl, valid, built⟩
  cases emits with
  | validated => exact own (.blockValidated _)
  | announced _ _ _ inherits changed assembled =>
    obtain ⟨values, bits⟩ := applyChanges_lengths changed
    rw [inherits.whole, current] at values
    rw [List.length_replicate, current] at bits
    rw [assembled]
    exact own (.blockState _ values bits)
  | @retired p _ batch _ _ _ nonempty fits =>
    have cut : batch ∈ Chunks.chunks p.shared.batchSize batch := by
      rw [Chunks.chunks_short nonempty fits]
      exact List.mem_cons_self
    exact own (.candidatesRetired _ cut)
  | rejected admitted =>
    cases admitted
    exact own (.blockRejected _)
  | headed =>
    obtain ⟨whole, bits⟩ := shaped.heading
    have values := whole.values
    rw [current] at values bits
    exact own (.canonicalHead _ values bits)
  | fenced => exact own (.forkchoiceApplied _)
  | reset => exact own (.gap _ (by decide))
  | gapped => exact working.elim
  | @configured p env watchSet loaded newer admitted =>
    exact ⟨_, rfl, Config.valid_of_validate admitted, .configActivated watchSet.generation⟩
  | @anchored phase p env watchSet loaded lawful loads wanted =>
    have values := loads.whole.values
    rw [length_configured] at values
    rcases wanted with rfl | admitted
    · exact own (.snapshot _ values)
    · exact ⟨_, rfl, Config.valid_of_validate admitted, .snapshot _ values⟩

theorem loadFails_plain {env : Env} {p : Publisher} {watchSet : WatchSet} {failure : Error}
    (bounded : stream.maxFrameBytes < 2 ^ 32) (framed : Framed stream p.shared)
    (fits : Fits stream watchSet) (refused : LoadFails env p watchSet failure) : failure.Plain := by
  cases refused with
  | unread => trivial
  | view _ refused => exact validateSnapshotView_plain refused
  | dictionary _ refused => exact validateProjectionDictionary_plain refused
  | frames _ dictionary refused =>
    have typed := watchSet_of_dictionary dictionary
    exact validateProjectionFrames_plain fits bounded framed.limit framed.boot
      (congrArg WatchSet.configured typed) refused
  | config refused =>
    have built : Built (Config.mk stream watchSet.configured) p.shared
        (.configActivated (configActivated watchSet)) := .configActivated watchSet.generation
    rw [validateEventFrame_built _ fits bounded framed.limit framed.boot built] at refused
    cases refused

theorem not_fails_encode {state : State} {overflow : Wire.EncodeError}
    (bounded : stream.maxFrameBytes < 2 ^ 32) (framed : Framed stream state.publisher.shared)
    (shaped : Shaped (Fits stream) state) :
    ¬ Fails world (Configured stream) state (.encode overflow) := by
  intro fails
  cases fails with
  | @unsent phase p env generation event store failure working emits overflows =>
    obtain ⟨config, rfl, valid, built⟩ := emits_built shaped working emits
    obtain ⟨_, frame, encoded⟩ := built_fits
      (p.shared.envelope env (p.shared.sequence + 1) generation event) valid bounded framed.limit
      built framed.boot.le rfl
    rw [encoded] at overflows
    cases overflows
  | inherited _ _ refused =>
    unfold Publisher.inheritedValues at refused
    split_ifs at refused <;> cases refused
  | loaded _ _ _ refused => exact Publisher.loadedValues_plain refused
  | applied _ _ _ refused =>
    obtain ⟨_, _, invalid, _⟩ := applyChanges_error refused
    cases invalid
  | head _ _ refused => exact refused.plain
  | cache trimmed => exact Store.trimProjectionLoop_plain trimmed
  | metadata trimmed => exact Store.trimMetadataLoop_plain trimmed
  | view refused => exact validateForkchoiceCheckpoints_plain refused
  | anchor _ refused => exact loadFails_plain bounded framed shaped.dictionary refused
  | activation _ admitted _ refused =>
    exact loadFails_plain bounded framed (Config.valid_of_validate admitted) refused

theorem framed_steps {origin state : State} (framed : Framed stream origin.publisher.shared)
    (run : Steps world (Configured stream) origin state) :
    Framed stream state.publisher.shared := by
  refine @steps_invariant _ _ (fun state => Framed stream state.publisher.shared) _ _ run framed ?_
  intro state after framed step
  have grows := grows_step step
  exact ⟨grows.limit.trans framed.limit, (congrArg List.length grows.boot).trans framed.boot⟩

end Machine

namespace Loop

theorem reason_settle {α : Type} {reason : String} (known : reason ∈ gapReasons)
    (outcome : Except Error α × Publisher) {announced : Bool} {later : String}
    (recovering : (settle reason outcome).control = .recovering announced later) :
    later ∈ gapReasons := by
  obtain ⟨result, publisher⟩ := outcome
  cases result with
  | ok _ => cases recovering
  | error _ =>
    cases recovering
    exact known

theorem reason_retry {env : Env} {announced stillAnnounced : Bool} {reason later : String}
    {publisher : Publisher} (known : reason ∈ gapReasons)
    (recovering : (retry env announced reason publisher).control =
      .recovering stillAnnounced later) : later ∈ gapReasons := by
  have anchoring (publisher : Publisher)
      (recovering : (retryReanchor env reason publisher).control =
        .recovering stillAnnounced later) : later ∈ gapReasons := by
    unfold retryReanchor at recovering
    split at recovering
    · cases recovering
    · cases recovering
      exact known
  unfold retry at recovering
  split at recovering
  · exact anchoring _ recovering
  · split at recovering
    · exact anchoring _ recovering
    · cases recovering
      exact known

theorem reason_reaches {allowed : Publisher → Env → Input → Prop} {start : Publisher} {loop : Loop}
    (reached : Reaches allowed start loop) {announced : Bool} {reason : String}
    (recovering : loop.control = .recovering announced reason) : reason ∈ gapReasons := by
  induction reached generalizing announced reason with
  | refl => cases recovering
  | @tail before after _ round ih =>
    obtain ⟨env, input, _, taken⟩ := round
    obtain ⟨publisher, control⟩ := before
    cases control with
    | idle =>
      cases input with
      | event => cases taken; exact reason_settle (by decide) _ recovering
      | activation => cases taken; exact reason_settle (by decide) _ recovering
      | maintenance => cases taken; exact reason_settle (by decide) _ recovering
      | loss => cases taken; cases recovering; decide
      | retry => cases taken
    | recovering earlier reason =>
      cases input with
      | retry => cases taken; exact reason_retry (ih rfl) recovering
      | _ => cases taken

end Loop

open Machine

section

variable {config : Config} {options : Publisher.ServiceOptions} {env : Env}
  {generation : Generation} {start : Publisher}

theorem framed_initial {watchSet : WatchSet} (stream : options.stream = config.stream)
    (boot : options.bootId.length = 16)
    (started : Publisher.startService env options watchSet = some start) :
    Framed config.stream start.shared := by
  obtain ⟨loaded, _, rfl⟩ := Publisher.startService_eq_some.mp started
  exact ⟨congrArg StreamConfig.maxFrameBytes stream, boot⟩

theorem configured_fits (p : Publisher) (watchSet : WatchSet)
    (offered : Configured config.stream p (.activation watchSet)) : Fits config.stream watchSet :=
  Config.valid_of_validate offered

theorem fits_config (valid : config.Valid) :
    Fits config.stream (WatchSet.compile generation config.watch) := valid

theorem failure_fits (valid : config.Valid) (bounded : config.stream.maxFrameBytes < 2 ^ 32)
    (stream : options.stream = config.stream) (boot : options.bootId.length = 16)
    (started : Publisher.startService env options (WatchSet.compile generation config.watch) =
      some start) {loop : Loop}
    (reached : Loop.Reaches (Allowed (fun _ => True) (Configured config.stream)) start loop)
    {now : Env} {input : Input} (admitted : Configured config.stream loop.publisher input)
    (overflow : Wire.EncodeError) : loop.failure now input ≠ some (.encode overflow) := by
  intro failed
  have framed := framed_initial stream boot started
  have run := reaches_steps reached
  have anywhere (state : State)
      (onward : Steps (fun _ => True) (Configured config.stream) (.ofLoop loop) state) :
      Framed config.stream state.publisher.shared ∧ Shaped (Fits config.stream) state :=
    ⟨framed_steps framed (run.trans onward),
      (shaped_reaches configured_fits (fits_config valid) started (run.trans onward)).1⟩
  have stopped : Stops (fun _ => True) (Configured config.stream) (.ofLoop loop) _ ∨ _ :=
    failure_stops trivial admitted failed
  rcases stopped with ⟨state, onward, fails⟩ | unannounced
  · obtain ⟨framed, shaped⟩ := anywhere state onward
    exact not_fails_encode bounded framed shaped fails
  · obtain ⟨now, reason, _, recovering, _, overflows⟩ := unannounced
    obtain ⟨framed, shaped⟩ := anywhere _ .refl
    have known := Loop.reason_reaches reached recovering
    obtain ⟨_, frame, encoded⟩ := built_fits (loop.publisher.shared.envelope now
      (loop.publisher.shared.sequence + 1) loop.publisher.active.generation _) shaped.dictionary
      bounded framed.limit (.gap loop.publisher.shared.publishedSequence known) framed.boot.le rfl
    cases encoded.symm.trans overflows

theorem greeting_fits (valid : config.Valid) (bounded : config.stream.maxFrameBytes < 2 ^ 32)
    (stream : options.stream = config.stream) (boot : options.bootId.length = 16)
    (started : Publisher.startService env options (WatchSet.compile generation config.watch) =
      some start) {session : Session}
    (reached : Session.Reaches (Allowed (fun _ => True) (Configured config.stream)) start session)
    {handshake : Handshake} {event : Wire.Event} {rest : List Wire.Event}
    (serving : session.connection.stage = .serving handshake (event :: rest)) (now : Env) :
    ∃ frame, Wire.encodeFrame (session.shared.envelope now handshake.baseline handshake.generation
      event) session.shared.maxFrameBytes = .ok frame := by
  obtain ⟨loopReached, _, written, _, attached⟩ := Session.exposes_reaches started reached
  rw [serving] at attached
  obtain ⟨⟨joined, within, joins⟩, ⟨done, _, events, _⟩, _⟩ := attached.2
  obtain ⟨_, _, canonical, _, _⟩ := Session.accepted_of_accept joins.accepted
  have run := reaches_steps loopReached
  have framed := framed_steps (framed_initial stream boot started) run
  obtain ⟨_, archived⟩ := shaped_reaches configured_fits (fits_config valid) started run
  have known : ∃ watchSet, Fits config.stream watchSet ∧ handshake.canonical.Whole watchSet := by
    rw [← canonical]
    rcases Publication.latest_cases PublishedFrame.stored start.shared.published joined with
      first | ⟨frame, member, stored⟩
    · have shaped := shaped_initial (fits_config valid) started
      exact ⟨_, shaped.dictionary, by rw [publishedAfter, first]; exact shaped.canonical⟩
    · exact archived frame (within.subset member) _ stored
  obtain ⟨watchSet, fits, whole⟩ := known
  have typed := whole.typed
  subst typed
  have values := whole.values
  rw [length_configured] at values
  have built : Built (Config.mk config.stream handshake.canonical.watchSet.configured)
      session.shared event := by
    have listed : event ∈ handshake.events session.shared := by
      rw [events]
      exact List.mem_append_right _ List.mem_cons_self
    simp only [Handshake.events, List.mem_cons, List.not_mem_nil, or_false] at listed
    rcases listed with rfl | rfl | rfl
    · exact .hello
    · exact .configActivated handshake.canonical.watchSet.generation
    · exact .snapshot _ values
  exact (built_fits _ fits bounded framed.limit built framed.boot.le rfl).2

end

/-- Under an accepted configuration no frame is too large: not one that the publisher or a
handshake can build, and none in a run of the service. -/
theorem frames_never_too_large {config : Config} (accepted : config.validate = .ok ())
    (bounded : config.stream.maxFrameBytes < 2 ^ 32) :
    (∀ (shared : Shared) (event : Wire.Event) (env : Env) (sequence : Nat) (generation : Generation)
      (nextState : Option (Projection × Option ForkchoiceMeta × Bool)),
      shared.maxFrameBytes = config.stream.maxFrameBytes → shared.bootId.length = 16 →
      Built config shared event →
      (shared.envelope env sequence generation event).encodedLen ≤ config.stream.maxFrameBytes ∧
      (∃ frame, Wire.encodeFrame (shared.envelope env sequence generation event)
        config.stream.maxFrameBytes = .ok frame) ∧
      (Shared.publishInner env generation event nextState shared).1 =
        .ok (shared.sequence + 1)) ∧
    ∀ (options : Publisher.ServiceOptions) (env : Env) (generation : Generation)
      (start : Publisher), options.stream = config.stream → options.bootId.length = 16 →
      Publisher.startService env options (WatchSet.compile generation config.watch) = some start →
      (∀ loop, Loop.Reaches (Allowed (fun _ => True) (Configured config.stream)) start loop →
        ∀ env input overflow, Configured config.stream loop.publisher input →
        loop.failure env input ≠ some (.encode overflow)) ∧
      ∀ session, Session.Reaches (Allowed (fun _ => True) (Configured config.stream)) start session →
        ∀ handshake event rest, session.connection.stage = .serving handshake (event :: rest) →
        ∀ env, ∃ frame, Wire.encodeFrame (session.shared.envelope env handshake.baseline
          handshake.generation event) session.shared.maxFrameBytes = .ok frame := by
  have valid := Config.valid_of_validate accepted
  constructor
  · intro shared event env sequence generation nextState limit boot built
    obtain ⟨fits, encoded⟩ := built_fits (shared.envelope env sequence generation event) valid
      bounded limit built boot.le rfl
    rw [limit] at fits encoded
    refine ⟨fits, encoded, ?_⟩
    obtain ⟨_, frame, encoded⟩ := built_fits
      (shared.envelope env (shared.sequence + 1) generation event) valid bounded limit built
      boot.le rfl
    simp only [Shared.publishInner, encoded]
  · intro options env generation start stream boot started
    constructor
    · intro loop reached now input overflow admitted
      exact failure_fits valid bounded stream boot started reached admitted overflow
    · intro session reached handshake event rest serving now
      exact greeting_fits valid bounded stream boot started reached serving now

def Sample.bootedOptions : Publisher.ServiceOptions :=
  { Sample.options with bootId := List.replicate 16 0 }

def Sample.bootedStart : Publisher :=
  .initial (Sample.env 1 0) Sample.bootedOptions Sample.watchSet (Sample.loaded 1)

theorem Sample.booted_started :
    Publisher.startService (Sample.env 1 0) Sample.bootedOptions Sample.watchSet =
      some Sample.bootedStart := by
  refine Publisher.startService_eq_some.mpr ⟨Sample.loaded 1, ?_, rfl⟩
  exact ⟨by decide, by decide, rfl, by decide, by decide, by decide +kernel⟩

theorem frames_never_too_large_sample :
    (Config.mk .default Sample.watchSet.configured).validate = .ok () ∧
    StreamConfig.default.maxFrameBytes < 2 ^ 32 ∧
    (Shared.publishInner (Sample.env 1 0) 1 (.hello Sample.bootedStart.shared.hello) none
      Sample.bootedStart.shared).1 = .ok 1 ∧
    ∀ overflow, (Loop.start Sample.bootedStart).failure (Sample.env 1 0)
      (.event (Sample.executed 2 1)) ≠ some (.encode overflow) := by
  have accepted : (Config.mk .default Sample.watchSet.configured).validate = .ok () := by decide
  obtain ⟨events, runs⟩ := frames_never_too_large accepted (by decide)
  refine ⟨accepted, by decide, ?_, fun overflow => ?_⟩
  · exact (events Sample.bootedStart.shared _ (Sample.env 1 0) 1 1 none rfl rfl .hello).2.2
  · exact (runs Sample.bootedOptions _ 1 _ rfl rfl Sample.booted_started).1 _ .refl _ _ overflow
      trivial

end Statefeed
