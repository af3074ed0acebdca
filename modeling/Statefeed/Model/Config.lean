import Statefeed.Library.Effect
import Statefeed.Model.Feed

set_option autoImplicit false

namespace Statefeed

structure StreamConfig where
  publishExecuted : Bool
  socket : String
  socketMode : Nat
  queueCapacity : Nat
  candidateCacheBlocks : Nat
  candidateMetadataEntries : Nat
  candidateRetention : Duration
  retirementWorkBudget : Nat
  consumerBuffer : Nat
  maxConsumers : Nat
  maxFrameBytes : Nat
  publisherSpinUs : Nat

inductive ConfigError where
  | invalid (message : String)
  -- The message prints the checksummed address and the slot.
  | duplicateCoordinate (address : Address) (slot : B256)
deriving DecidableEq

namespace StreamConfig

-- Durations are counted in nanoseconds.
def default : StreamConfig where
  publishExecuted := false
  socket := "/run/reth-statefeed/statefeed.sock"
  socketMode := 0o660
  queueCapacity := 8192
  candidateCacheBlocks := 128
  candidateMetadataEntries := 1024
  candidateRetention := 120 * 10 ^ 9
  retirementWorkBudget := 256
  consumerBuffer := 256
  maxConsumers := 64
  maxFrameBytes := 4 * 1024 * 1024
  publisherSpinUs := 0

def require (condition : Bool) (message : String) : Except ConfigError Unit :=
  if condition then .ok () else .error (.invalid message)

def validate (stream : StreamConfig) : Except ConfigError Unit := do
  require (2 ≤ stream.queueCapacity) "stream.queue_capacity must be at least 2"
  require (0 < stream.consumerBuffer) "stream.consumer_buffer must be positive"
  require (0 < stream.maxConsumers) "stream.max_consumers must be positive"
  require (2 ≤ stream.candidateCacheBlocks) "stream.candidate_cache_blocks must be at least 2"
  require (stream.candidateCacheBlocks ≤ stream.candidateMetadataEntries)
    "stream.candidate_metadata_entries must be at least stream.candidate_cache_blocks"
  require (0 < stream.candidateRetention) "stream.candidate_retention must be positive"
  require (0 < stream.retirementWorkBudget) "stream.retirement_work_budget must be positive"
  require (1024 ≤ stream.maxFrameBytes) "stream.max_frame_bytes must be at least 1024"
  require (stream.publisherSpinUs ≤ 1000000) "stream.publisher_spin_us must not exceed 1000000"
  require (stream.socket.front = '/') "stream.socket must be an absolute path"
  require (stream.socketMode ≤ 0o777)
    "stream.socket_mode must contain only Unix rwx permission bits"

theorem require_bind_ok {α : Type} {condition : Bool} {message : String}
    {next : Unit → Except ConfigError α} {value : α}
    (accepted : (require condition message >>= next) = .ok value) :
    condition = true ∧ next () = .ok value := by
  cases condition with
  | true => exact ⟨rfl, accepted⟩
  | false => cases accepted

theorem validate_limits {stream : StreamConfig} (accepted : stream.validate = .ok ()) :
    2 ≤ stream.candidateCacheBlocks ∧
      stream.candidateCacheBlocks ≤ stream.candidateMetadataEntries ∧
      0 < stream.candidateRetention ∧ 0 < stream.retirementWorkBudget ∧
      1024 ≤ stream.maxFrameBytes := by
  obtain ⟨_, accepted⟩ := require_bind_ok accepted
  obtain ⟨_, accepted⟩ := require_bind_ok accepted
  obtain ⟨_, accepted⟩ := require_bind_ok accepted
  obtain ⟨cache, accepted⟩ := require_bind_ok accepted
  obtain ⟨metadata, accepted⟩ := require_bind_ok accepted
  obtain ⟨retention, accepted⟩ := require_bind_ok accepted
  obtain ⟨budget, accepted⟩ := require_bind_ok accepted
  obtain ⟨frame, _⟩ := require_bind_ok accepted
  exact ⟨of_decide_eq_true cache, of_decide_eq_true metadata, of_decide_eq_true retention,
    of_decide_eq_true budget, of_decide_eq_true frame⟩

example : StreamConfig.default.validate = .ok () := by decide

end StreamConfig

structure Config where
  stream : StreamConfig
  watch : List WatchConfig

-- The characters that `str::trim` removes.
def isWhitespace (c : Char) : Bool :=
  (0x9 ≤ c.toNat ∧ c.toNat ≤ 0xd) ∨ (0x2000 ≤ c.toNat ∧ c.toNat ≤ 0x200a) ∨
    c.toNat ∈ [0x20, 0x85, 0xa0, 0x1680, 0x2028, 0x2029, 0x202f, 0x205f, 0x3000]

def usizeMax : Nat := 2 ^ 64 - 1

def saturatingAdd (left right : Nat) : Nat := min (left + right) usizeMax

def saturatingMul (left right : Nat) : Nat := min (left * right) usizeMax

namespace Config

def validateWatch : List WatchConfig → List String → List (Address × B256) →
    Except ConfigError Unit
  | [], _, _ => .ok ()
  | key :: rest, ids, coordinates =>
    if key.id.toList.all isWhitespace then .error (.invalid "watch id must not be empty")
    else if key.id ∈ ids then .error (.invalid ("duplicate watch id: " ++ key.id))
    else if (key.address, key.slot) ∈ coordinates then
      .error (.duplicateCoordinate key.address key.slot)
    else validateWatch rest (key.id :: ids) ((key.address, key.slot) :: coordinates)

def projectionBytes (config : Config) : Nat :=
  saturatingAdd (saturatingAdd (saturatingMul config.watch.length 32)
    ((config.watch.length + 7) / 8)) 512

def dictionaryBytes (config : Config) : Nat :=
  config.watch.foldl (fun size key => saturatingAdd (saturatingAdd size 80) key.id.utf8ByteSize) 512

def requiredFrameBytes (config : Config) : Nat := max config.projectionBytes config.dictionaryBytes

def validate (config : Config) : Except ConfigError Unit := do
  StreamConfig.require (config.watch ≠ []) "watch must contain at least one key"
  StreamConfig.require (config.watch.length ≤ 2 ^ 32 - 1) "watch contains more than u32::MAX keys"
  config.stream.validate
  validateWatch config.watch [] []
  StreamConfig.require (config.requiredFrameBytes ≤ config.stream.maxFrameBytes)
    ("watch set requires approximately " ++ toString config.requiredFrameBytes ++
      " payload bytes, exceeding stream.max_frame_bytes")

structure Valid (config : Config) : Prop where
  nonempty : config.watch ≠ []
  indexed : config.watch.length < 2 ^ 32
  stream : config.stream.validate = .ok ()
  ids : (config.watch.map WatchConfig.id).Nodup
  coordinates : (config.watch.map fun key => (key.address, key.slot)).Nodup
  frame : config.requiredFrameBytes ≤ config.stream.maxFrameBytes

theorem validateWatch_ok {watch : List WatchConfig} {ids : List String}
    {coordinates : List (Address × B256)} (accepted : validateWatch watch ids coordinates = .ok ()) :
    ((watch.map WatchConfig.id).Nodup ∧ ∀ id ∈ watch.map WatchConfig.id, id ∉ ids) ∧
      (watch.map fun key => (key.address, key.slot)).Nodup ∧
        ∀ place ∈ watch.map fun key => (key.address, key.slot), place ∉ coordinates := by
  induction watch generalizing ids coordinates with
  | nil => simp
  | cons key rest ih =>
    unfold validateWatch at accepted
    split_ifs at accepted with blank knownId known
    obtain ⟨⟨restIds, freshIds⟩, restPlaces, freshPlaces⟩ := ih accepted
    simp only [List.map_cons, List.nodup_cons, List.forall_mem_cons]
    refine ⟨⟨⟨fun again => ?_, restIds⟩, knownId, fun id member => ?_⟩,
      ⟨fun again => ?_, restPlaces⟩, known, fun place member => ?_⟩
    · exact freshIds _ again List.mem_cons_self
    · exact fun listed => freshIds id member (List.mem_cons_of_mem _ listed)
    · exact freshPlaces _ again List.mem_cons_self
    · exact fun listed => freshPlaces place member (List.mem_cons_of_mem _ listed)

theorem valid_of_validate {config : Config} (accepted : config.validate = .ok ()) :
    config.Valid := by
  obtain ⟨nonempty, accepted⟩ := StreamConfig.require_bind_ok accepted
  obtain ⟨indexed, accepted⟩ := StreamConfig.require_bind_ok accepted
  obtain ⟨stream, accepted⟩ := Effect.bind_unit_ok accepted
  obtain ⟨watch, accepted⟩ := Effect.bind_unit_ok accepted
  obtain ⟨⟨ids, _⟩, coordinates, _⟩ := validateWatch_ok watch
  have bounded : config.watch.length ≤ 2 ^ 32 - 1 := of_decide_eq_true indexed
  have frame : config.requiredFrameBytes ≤ config.stream.maxFrameBytes := by
    unfold StreamConfig.require at accepted
    split at accepted
    · next fits => exact of_decide_eq_true fits
    · cases accepted
  exact ⟨of_decide_eq_true nonempty, by omega, stream, ids, coordinates, frame⟩

end Config

end Statefeed
