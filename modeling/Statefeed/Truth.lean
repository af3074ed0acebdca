import Statefeed.Library.History
import Statefeed.Machine.Contents
import Statefeed.Model.Sample

set_option autoImplicit false

/-!
# Projections show the true state

Against a ground truth that gives every block hash its metadata and its storage, every
projection the publisher stores or publishes decodes to the storage of its own block, however
its values were inherited.
-/

namespace Statefeed

open Effect Effect.Op

structure Truth where
  block : B256 → BlockMeta
  state : B256 → Address → B256 → U256

namespace Truth

def value (truth : Truth) (hash : B256) (key : WatchKey) : U256 :=
  truth.state hash key.address key.slot

def packed (truth : Truth) (hash : B256) (watchSet : WatchSet) : Bytes :=
  watchSet.keys.flatMap fun key => U256.toBeBytes (truth.value hash key)

def Describes (truth : Truth) (projection : Projection) : Prop :=
  projection.block = truth.block projection.block.hash ∧
    projection.values = truth.packed projection.block.hash projection.watchSet

structure Covers (truth : Truth) (watchSet : WatchSet) (block : BlockMeta)
    (changes : BlockChanges) : Prop where
  known : block = truth.block block.hash
  once : (changes.map SlotChange.keyId).Nodup
  exact : ∀ change ∈ changes, ∃ key, watchSet.keys[change.keyId]? = some key ∧
    change.newValue = truth.value block.hash key
  complete : ∀ index key, watchSet.keys[index]? = some key →
    truth.value block.hash key ≠ truth.value block.parentHash key →
    ∃ change ∈ changes, change.keyId = index

/-- A snapshot source that returns the truth whenever it succeeds. -/
structure Serves (truth : Truth) (env : Env) : Prop where
  latest : ∀ watchSet loaded, env.loadLatest watchSet = some loaded →
    truth.Describes loaded.projection
  found : ∀ watchSet hash projection, env.loadAt watchSet hash = some projection →
    truth.Describes projection

theorem length_packed (truth : Truth) (hash : B256) (watchSet : WatchSet) :
    (truth.packed hash watchSet).length = 32 * watchSet.keys.length :=
  Slots.length_flatMap fun _ => U256.length_toBeBytes _

theorem slot_packed (truth : Truth) (hash : B256) {watchSet : WatchSet} {index : Nat}
    {key : WatchKey} (present : watchSet.keys[index]? = some key) :
    Slots.slot 32 (truth.packed hash watchSet) index = U256.toBeBytes (truth.value hash key) :=
  Slots.slot_flatMap (fun _ => U256.length_toBeBytes _) present

theorem packedValue_packed (truth : Truth) (hash : B256) {watchSet : WatchSet} {index : Nat}
    {key : WatchKey} (present : watchSet.keys[index]? = some key) :
    packedValue (truth.packed hash watchSet) index = some (truth.value hash key) := by
  have inside := (List.getElem?_eq_some_iff.mp present).1
  unfold packedValue
  rw [if_pos (by rw [length_packed]; omega), slot_packed truth hash present,
    U256.fromBeSlice_toBeBytes]

end Truth

theorem applyChanges_slots (target : Nat → Bytes) {changes : BlockChanges}
    {values bitmap : Bytes} {applied : Bytes × Bytes}
    (agree : ∀ change ∈ changes, U256.toBeBytes change.newValue = target change.keyId)
    (succeeds : applyChanges changes values bitmap = .ok applied) :
    applied.1.length = values.length ∧
      ∀ index, (∃ change ∈ changes, change.keyId = index) ∨
          Slots.slot 32 values index = target index →
        Slots.slot 32 applied.1 index = target index := by
  induction changes generalizing values bitmap with
  | nil =>
    cases succeeds
    refine ⟨rfl, fun index given => ?_⟩
    rcases given with ⟨change, member, _⟩ | same
    · cases member
    · exact same
  | cons change rest ih =>
    have restAgrees : ∀ other ∈ rest, U256.toBeBytes other.newValue = target other.keyId :=
      fun other member => agree other (List.mem_cons_of_mem _ member)
    have agreesHere := agree change List.mem_cons_self
    unfold applyChanges at succeeds
    dsimp only at succeeds
    split at succeeds
    · next fits =>
      split at succeeds
      · next unchanged =>
        obtain ⟨length, slots⟩ := ih restAgrees succeeds
        refine ⟨length, fun index given => slots index ?_⟩
        rcases given with ⟨other, member, named⟩ | same
        · rcases List.mem_cons.mp member with rfl | member
          · right
            rw [← named, ← agreesHere]
            exact unchanged
          · exact .inl ⟨other, member, named⟩
        · exact .inr same
      · obtain ⟨length, slots⟩ := ih restAgrees succeeds
        have whole := U256.length_toBeBytes change.newValue
        refine ⟨length.trans (Slots.length_setSlot fits whole), fun index given => ?_⟩
        apply slots
        by_cases here : index = change.keyId
        · subst here
          right
          exact (Slots.slot_setSlot_self fits whole).trans agreesHere
        · rcases given with ⟨other, member, named⟩ | same
          · rcases List.mem_cons.mp member with rfl | member
            · exact absurd named.symm here
            · exact .inl ⟨other, member, named⟩
          · right
            exact (Slots.slot_setSlot_other fits whole here).trans same
    · cases succeeds

namespace Truth

theorem describes_assembled {truth : Truth} {watchSet : WatchSet} {parent : Projection}
    {block : BlockMeta} {changes : BlockChanges} {bitmap : Bytes} {applied : Bytes × Bytes}
    (typed : parent.watchSet = watchSet) (described : truth.Describes parent)
    (child : parent.block.hash = block.parentHash)
    (covers : truth.Covers watchSet block changes)
    (succeeds : applyChanges changes parent.values bitmap = .ok applied) :
    truth.Describes (Publisher.assembled watchSet block applied) := by
  refine ⟨covers.known, ?_⟩
  have parentValues : parent.values = truth.packed block.parentHash watchSet := by
    rw [described.2, typed, child]
  obtain ⟨length, slots⟩ := applyChanges_slots
    (Slots.slot 32 (truth.packed block.hash watchSet)) (fun change member => by
      obtain ⟨key, present, value⟩ := covers.exact change member
      rw [truth.slot_packed _ present, value]) succeeds
  rw [parentValues] at length slots
  change applied.1 = truth.packed block.hash watchSet
  refine Slots.ext_slots 32 watchSet.keys.length
    (length.trans (truth.length_packed _ _)) (truth.length_packed _ _) fun index inside => ?_
  have present : watchSet.keys[index]? = some watchSet.keys[index] :=
    List.getElem?_eq_getElem inside
  apply slots
  -- A coordinate the delta leaves out has the same value before and after the block.
  by_cases changed : truth.value block.hash watchSet.keys[index] =
      truth.value block.parentHash watchSet.keys[index]
  · right
    rw [truth.slot_packed _ present, truth.slot_packed _ present, changed]
  · exact .inl (covers.complete index _ present changed)

end Truth

def Wire.WatchKey.coordinate (key : Wire.WatchKey) : Address × B256 :=
  (BitVec.ofNat 160 (BigEndian.decode key.address), BitVec.ofNat 256 (BigEndian.decode key.slot))

def dictionaryAfter (initial : List Wire.WatchKey) (frames : List PublishedFrame) :
    List Wire.WatchKey :=
  frames.foldl (fun dictionary frame =>
    match frame.envelope.event with
    | some (.configActivated config) => config.keys
    | _ => dictionary) initial

def Wire.Event.projected : Wire.Event → Option (Option Wire.BlockRef × Bytes)
  | .snapshot message => some (message.block, message.values)
  | .blockState message => some (message.block, message.values)
  | .canonicalHead message => some (message.block, message.values)
  | _ => none

namespace Truth

def Decodes (truth : Truth) (dictionary : List Wire.WatchKey) (block : Option Wire.BlockRef)
    (values : Bytes) : Prop :=
  ∃ blockMeta : BlockMeta, block = some (blockRef blockMeta) ∧
    blockMeta = truth.block blockMeta.hash ∧
    ∀ keyId key, dictionary[keyId]? = some key → packedValue values keyId =
      some (truth.state blockMeta.hash key.coordinate.1 key.coordinate.2)

def FrameDecodes (truth : Truth) (initial : List Wire.WatchKey) (before : List PublishedFrame)
    (frame : PublishedFrame) : Prop :=
  ∀ event block values, frame.envelope.event = some event →
    event.projected = some (block, values) →
    truth.Decodes (dictionaryAfter initial before) block values

end Truth

theorem coordinate_configActivated {watchSet : WatchSet} {keyId : Nat} {key : Wire.WatchKey}
    (present : (configActivated watchSet).keys[keyId]? = some key) :
    ∃ watched, watchSet.keys[keyId]? = some watched ∧
      key.coordinate = (watched.address, watched.slot) := by
  simp only [configActivated, List.getElem?_map, Option.map_eq_some_iff] at present
  obtain ⟨watched, present, rfl⟩ := present
  refine ⟨watched, present, ?_⟩
  have address : watched.address.toNat < 256 ^ 20 := watched.address.isLt
  have slot : watched.slot.toNat < 256 ^ 32 := watched.slot.isLt
  simp only [Wire.WatchKey.coordinate, Address.toVec, B256.toVec, BigEndian.decode_encode,
    Nat.mod_eq_of_lt address, Nat.mod_eq_of_lt slot, BitVec.ofNat_toNat, BitVec.setWidth_eq]

theorem Truth.Describes.decodes {truth : Truth} {projection : Projection}
    (described : truth.Describes projection) :
    truth.Decodes (configActivated projection.watchSet).keys (some (blockRef projection.block))
      projection.values := by
  refine ⟨projection.block, rfl, described.1, fun keyId key present => ?_⟩
  obtain ⟨watched, present, coordinate⟩ := coordinate_configActivated present
  rw [described.2, truth.packedValue_packed _ present, coordinate]
  rfl

theorem dictionaryAfter_concat (initial : List Wire.WatchKey) (frames : List PublishedFrame)
    (frame : PublishedFrame) :
    dictionaryAfter initial (frames ++ [frame]) =
      match frame.envelope.event with
      | some (.configActivated config) => config.keys
      | _ => dictionaryAfter initial frames := by
  unfold dictionaryAfter
  rw [List.foldl_concat]

structure Shown (truth : Truth) (initial : List Wire.WatchKey) (p : Publisher) : Prop where
  frames : History.Each (truth.FrameDecodes initial) p.shared.frames
  dictionary : dictionaryAfter initial p.shared.frames = (configActivated p.active).keys

namespace Shown

variable {truth : Truth} {initial : List Wire.WatchKey} {p : Publisher}

theorem withStore (shown : Shown truth initial p) (store : Store) :
    Shown truth initial (p.withStore store) :=
  ⟨shown.frames, shown.dictionary⟩

theorem sendPlain (shown : Shown truth initial p) (env : Env) (generation : Generation)
    (event : Wire.Event) (nextState : Option (Projection × Option ForkchoiceMeta × Bool))
    (unprojected : event.projected = none)
    (plain : ∀ config, event ≠ .configActivated config)
    (active : (p.send env generation event nextState).active = p.active) :
    Shown truth initial (p.send env generation event nextState) := by
  constructor
  · refine History.each_concat.mpr ⟨shown.frames, fun other block values same projected => ?_⟩
    cases same
    rw [unprojected] at projected
    cases projected
  · rw [active, ← shown.dictionary]
    change dictionaryAfter initial (p.shared.frames ++ [_]) = _
    rw [dictionaryAfter_concat]
    split
    · next config same =>
      cases same
      exact absurd rfl (plain config)
    · rfl

theorem sendProjection (shown : Shown truth initial p) (env : Env) (generation : Generation)
    (event : Wire.Event) (nextState : Option (Projection × Option ForkchoiceMeta × Bool))
    {projection : Projection} (described : truth.Describes projection)
    (watchSet : projection.watchSet = p.active)
    (projected : event.projected = some (some (blockRef projection.block), projection.values))
    (active : (p.send env generation event nextState).active = p.active) :
    Shown truth initial (p.send env generation event nextState) := by
  constructor
  · refine History.each_concat.mpr ⟨shown.frames, fun other block values same carried => ?_⟩
    cases same
    rw [projected] at carried
    cases carried
    rw [shown.dictionary, ← watchSet]
    exact described.decodes
  · rw [active, ← shown.dictionary]
    change dictionaryAfter initial (p.shared.frames ++ [_]) = _
    rw [dictionaryAfter_concat]
    split
    · next config same =>
      cases same
      cases projected
    · rfl

theorem sendConfig (shown : Shown truth initial p) (env : Env) (generation : Generation)
    {watchSet : WatchSet} {projection : Projection} (same : projection.watchSet = watchSet)
    (forkchoice : Option ForkchoiceMeta) (recovering : Bool) :
    Shown truth initial (p.send env generation (.configActivated (configActivated watchSet))
      (some (projection, forkchoice, recovering))) := by
  constructor
  · refine History.each_concat.mpr ⟨shown.frames, fun other block values sent carried => ?_⟩
    cases sent
    cases carried
  · change dictionaryAfter initial (p.shared.frames ++ [_]) = (configActivated projection.watchSet).keys
    rw [dictionaryAfter_concat, same]
    rfl

end Shown

namespace Truth

open Machine

def Holds (truth : Truth) (watchSet : WatchSet) (projection : Projection) : Prop :=
  projection.watchSet = watchSet ∧ truth.Describes projection

/-- Deltas of the active generation are covering ones. -/
def Admits (truth : Truth) (p : Publisher) : Input → Prop
  | .event event => ∀ block changes, event.delta = some (block, changes) →
      event.generation = p.active.generation → truth.Covers p.active block changes
  | _ => True

theorem spreads (truth : Truth) :
    Spreads truth.Holds truth.Covers truth.Serves truth.Admits where
  typed _ _ holds := holds.1
  latest _ serves _ _ read watchSet := ⟨watchSet, serves.latest _ _ read⟩
  found _ serves _ _ _ read watchSet := ⟨watchSet, serves.found _ _ _ read⟩
  delta _ _ _ _ admitted carried current := admitted _ _ carried current
  applies _ _ _ _ _ holds child covers succeeds :=
    ⟨rfl, describes_assembled holds.1 holds.2 child covers succeeds⟩

def Holding (truth : Truth) (initial : List Wire.WatchKey) (state : State) : Prop :=
  Filled truth.Holds truth.Covers state ∧ Shown truth initial state.publisher

theorem shown_step {truth : Truth} {initial : List Wire.WatchKey} {state after : State}
    (before : Filled truth.Holds truth.Covers state)
    (filled : Filled truth.Holds truth.Covers after)
    (shown : Shown truth initial state.publisher)
    (step : Step truth.Serves truth.Admits state after) :
    Shown truth initial after.publisher := by
  cases step with
  | validate => exact (shown.sendPlain _ _ _ none rfl (by simp) rfl).withStore _
  | announce _ _ _ _ _ assembled =>
    exact (shown.sendProjection _ _ _ none filled.2.1.2 filled.2.1.1 rfl rfl).withStore _
  | retire => exact shown.sendPlain _ _ _ none rfl (by simp) rfl
  | reject => exact (shown.sendPlain _ _ _ none rfl (by simp) rfl).withStore _
  | head =>
    refine (shown.sendProjection _ _ _ _ before.2.2 before.2.1 rfl ?_).withStore _
    exact before.2.1
  | fence => exact (shown.sendPlain _ _ _ _ rfl (by simp) rfl).withStore _
  | gap => exact shown.sendPlain _ _ _ _ rfl (by simp) rfl
  | retryGap => exact shown.sendPlain _ _ _ _ rfl (by simp) rfl
  | @anchor p env _ loaded _ loads =>
    have described := filled.1.canonical.2
    have watchSet := watchSet_of_dictionary loads.dictionary
    exact Shown.sendProjection (p := p.installSnapshot env loaded) ⟨shown.frames, shown.dictionary⟩
      _ _ _ _ described watchSet rfl watchSet
  | @activate p env watchSet loaded _ _ _ loads =>
    have described : truth.Describes loaded.projection := filled.1.canonical.2
    have same := watchSet_of_dictionary loads.dictionary
    have configured := Shown.sendConfig (p := p.installSnapshot env loaded)
      ⟨shown.frames, shown.dictionary⟩ env watchSet.generation same (some loaded.forkchoice) false
    have snapshotted := configured.sendProjection env watchSet.generation
      (.snapshot (snapshot loaded.projection loaded.forkchoice)) none described rfl rfl rfl
    exact ⟨snapshotted.frames, snapshotted.dictionary⟩
  | _ => exact ⟨shown.frames, shown.dictionary⟩

theorem holding_step {truth : Truth} {initial : List Wire.WatchKey} {state after : State}
    (holding : truth.Holding initial state) (step : Step truth.Serves truth.Admits state after) :
    truth.Holding initial after := by
  have filled := filled_step truth.spreads holding.1 step
  exact ⟨filled, shown_step holding.1 filled holding.2 step⟩

theorem holding_steps {truth : Truth} {initial : List Wire.WatchKey} {state after : State}
    (holding : truth.Holding initial state) (run : Steps truth.Serves truth.Admits state after) :
    truth.Holding initial after := by
  induction run with
  | refl => exact holding
  | tail _ step ih => exact holding_step ih step

def Sound (truth : Truth) (initial : List Wire.WatchKey) (p : Publisher) : Prop :=
  Contents truth.Holds truth.Covers p ∧ Shown truth initial p

theorem sound_of_ends {truth : Truth} {initial : List Wire.WatchKey} {p : Publisher} {α : Type}
    {op : Op Publisher Error α} (sound : truth.Sound initial p)
    (ends : Ends truth.Serves truth.Admits op p) : truth.Sound initial (op p).2 := by
  have start : truth.Holding initial ⟨.idle, p⟩ := ⟨⟨sound.1, trivial⟩, sound.2⟩
  have kept (phase : Phase) (after : Publisher)
      (run : Steps truth.Serves truth.Admits ⟨.idle, p⟩ ⟨phase, after⟩) :
      truth.Sound initial after :=
    ⟨(holding_steps start run).1.1, (holding_steps start run).2⟩
  exact (Ensures.mono ends (fun _ _ => kept _ _) (fun _ _ failed => kept _ _ failed.1)).elim

/-- Which calls the ground truth allows: a truthful source, and covering deltas. -/
def Allows (truth : Truth) (p : Publisher) (env : Env) (call : Call) : Prop :=
  truth.Serves env ∧ ∀ event, call = .handle event → truth.Admits p (.event event)

theorem sound_perform {truth : Truth} {initial : List Wire.WatchKey} {p : Publisher} {env : Env}
    {call : Call} (sound : truth.Sound initial p) (allowed : truth.Allows p env call) :
    truth.Sound initial (call.perform env p) := by
  obtain ⟨serves, admitted⟩ := allowed
  cases call with
  | handle event => exact sound_of_ends sound (handle_ends serves (admitted event rfl))
  | handleControl watchSet => exact sound_of_ends sound (handleControl_ends serves trivial)
  | maintain => exact sound_of_ends sound (maintain_ends serves trivial)
  | announceGap reason =>
    have holding : truth.Holding initial ⟨.recovering false, p⟩ := ⟨⟨sound.1, trivial⟩, sound.2⟩
    have burned := holding_step holding .retryBurns
    have gapped := holding_step holding (@Step.retryGap _ _ p env reason serves trivial)
    exact (announceGap_ensures env reason (fun _ after => truth.Sound initial after)
      (fun _ after => truth.Sound initial after) (fun _ _ => ⟨burned.1.1, burned.2⟩)
      ⟨gapped.1.1, gapped.2⟩).elim
  | reanchor =>
    refine (reanchor_ensures env (fun _ after => truth.Sound initial after)
      (fun _ after => truth.Sound initial after) (fun _ _ => sound) fun loaded loads => ?_).elim
    have holding : truth.Holding initial ⟨.anchoring true, p⟩ := ⟨⟨sound.1, trivial⟩, sound.2⟩
    have after := holding_step holding (.anchor serves loads)
    exact ⟨after.1.1, after.2⟩

theorem sound_initial {truth : Truth} {env : Env} {options : Publisher.ServiceOptions}
    {watchSet : WatchSet} {start : Publisher} (serves : truth.Serves env)
    (started : Publisher.startService env options watchSet = some start) :
    truth.Sound (configActivated watchSet).keys start := by
  obtain ⟨loaded, starts, rfl⟩ := Publisher.startService_eq_some.mp started
  have same := watchSet_of_dictionary starts.dictionary
  have described := serves.latest _ _ starts.read
  refine ⟨contents_initial env options watchSet ⟨rfl, described⟩, History.each_nil, ?_⟩
  change (configActivated watchSet).keys = (configActivated loaded.projection.watchSet).keys
  rw [same]

/-- The projection decodes, key by key, to the storage of its block. -/
def Reads (truth : Truth) (projection : Projection) : Prop :=
  ∀ keyId key, projection.watchSet.keys[keyId]? = some key →
    packedValue projection.values keyId =
      some (truth.state projection.block.hash key.address key.slot)

theorem Describes.reads {truth : Truth} {projection : Projection}
    (described : truth.Describes projection) : truth.Reads projection := by
  intro keyId key present
  rw [described.2]
  exact truth.packedValue_packed _ present

/-- After any sequence of operations, failed ones included, every stored projection, the
published canonical projection and every published frame decode to the state of their block. -/
theorem projections_read_true_state (truth : Truth) {env : Env}
    {options : Publisher.ServiceOptions} {watchSet : WatchSet} {start p : Publisher}
    (serves : truth.Serves env)
    (started : Publisher.startService env options watchSet = some start)
    (reached : Call.Reaches truth.Allows start p) :
    (∀ hash entry projection, p.store.candidates.get hash = some entry →
      entry.projection = some projection →
      projection.block.hash = hash ∧ projection.watchSet = p.active ∧ truth.Reads projection) ∧
      truth.Reads p.shared.published.canonical ∧
      History.Each (truth.FrameDecodes (configActivated watchSet).keys) p.shared.frames := by
  have sound : truth.Sound (configActivated watchSet).keys p := by
    induction reached with
    | refl => exact sound_initial serves started
    | tail _ next ih =>
      obtain ⟨callEnv, call, allowed, rfl⟩ := next
      exact sound_perform ih allowed
  refine ⟨fun hash entry projection stored cached => ?_, sound.1.canonical.2.reads, sound.2.frames⟩
  have found : p.store.projectionAt hash = some projection := by
    rw [Store.projectionAt, stored]
    exact cached
  obtain ⟨keyed, typed, described⟩ := sound.1.cached hash projection found
  exact ⟨keyed, typed, described.reads⟩

def sample : Truth where
  block := Sample.block
  state hash _ _ := hash

theorem sample_serves (head : B256) (anchoredAt : Instant) :
    sample.Serves (Sample.env head anchoredAt) where
  latest watchSet loaded read := by cases read; exact ⟨rfl, rfl⟩
  found watchSet hash projection read := by cases read; exact ⟨rfl, rfl⟩

theorem sample_allows_executed (hash : B256) :
    sample.Allows Sample.start (Sample.env 1 0) (.handle (Sample.executed hash 1)) := by
  refine ⟨sample_serves 1 0, ?_⟩
  rintro event ⟨rfl⟩ block changes carried _
  cases carried
  refine ⟨rfl, by simp, fun change member => ?_, fun index key present _ => ?_⟩
  · rw [List.mem_singleton.mp member]
    exact ⟨_, rfl, rfl⟩
  · have inside := (List.getElem?_eq_some_iff.mp present).1
    have first : index = 0 := Nat.lt_one_iff.mp inside
    exact ⟨_, List.mem_singleton_self _, first.symm⟩

theorem projections_read_true_state_sample :
    ∃ p, Call.Reaches sample.Allows Sample.start p ∧ p.shared.frames.length = 1 ∧
      sample.Reads p.shared.published.canonical ∧
      History.Each (sample.FrameDecodes (configActivated Sample.watchSet).keys) p.shared.frames := by
  have reached : Call.Reaches sample.Allows Sample.start
      ((Call.handle (Sample.executed 2 1)).perform (Sample.env 1 0) Sample.start) :=
    .single ⟨_, _, sample_allows_executed 2, rfl⟩
  refine ⟨_, reached, by decide +kernel, ?_⟩
  exact (projections_read_true_state sample (sample_serves 1 0) Sample.started reached).2

end Truth

end Statefeed
