import Statefeed.Handoff
import Statefeed.Machine.Inversion
import Statefeed.Machine.Representation
import Statefeed.Snapshot

set_option autoImplicit false

namespace Statefeed

open Effect Effect.Op Machine

structure Lawful (truth : Truth) (history : Nat → Moment) : Prop where
  progresses : Progresses history
  header : ∀ time hash header, (history time).provider.headers hash = some header →
    header.blockMeta hash = truth.block hash
  state : ∀ time hash state, (history time).provider.states hash = some state →
    ∀ address slot, (state address slot).getD 0 = truth.state hash address slot
  best : ∀ time, (history time).provider.best.number =
    (truth.block (history time).provider.best.hash).number
  ordered : ∀ time, ForkchoiceMeta.Ordered
    { head := (history time).provider.best
      safe := (history time).provider.safe
      finalized := (history time).provider.finalized }
  applied : ∀ time view safe finalized, (history time).tracker.latest.view = some view →
    view.safe = some safe → view.finalized = some finalized → finalized.number ≤ safe.number

/-- Whatever the environment returns, the source has read from a lawful node. -/
structure Sourced (truth : Truth) (env : Env) : Prop where
  latest : ∀ watchSet loaded, env.loadLatest watchSet = some loaded →
    ∃ history start stop, Lawful truth history ∧
      SnapshotSource.loadLatest history watchSet start = (.ok loaded, stop)
  found : ∀ watchSet hash projection, env.loadAt watchSet hash = some projection →
    ∃ history start stop, Lawful truth history ∧
      SnapshotSource.loadAt history watchSet hash start = (.ok projection, stop)

structure Genuine (truth : Truth) (watchSet : WatchSet) (projection : Projection) : Prop where
  whole : projection.Whole watchSet
  unchanged : projection.changedBitmap = []
  described : truth.Describes projection

theorem genuine_of_held {truth : Truth} {history : Nat → Moment} {start stop : Nat}
    {watchSet : WatchSet} {hash : B256} {projection : Projection} (lawful : Lawful truth history)
    (held : SnapshotSource.Held history start stop watchSet hash projection) :
    Genuine truth watchSet projection := by
  obtain ⟨early, late, header, state, _, _, _, known, opened, rfl⟩ := held
  have values : SnapshotSource.packed state watchSet.keys = truth.packed hash watchSet := by
    unfold SnapshotSource.packed Truth.packed
    refine List.flatMap_congr fun key _ => ?_
    exact congrArg U256.toBeBytes (lawful.state late hash state opened key.address key.slot)
  refine ⟨⟨rfl, ?_⟩, rfl, lawful.header early hash header known, values⟩
  change (SnapshotSource.packed state watchSet.keys).length = watchSet.len * 32
  rw [values, Truth.length_packed, Nat.mul_comm]
  rfl

theorem ordered_resolve {applied : AppliedForkchoiceMeta} (number : Nat)
    (apart : ∀ safe finalized, applied.safe = some safe → applied.finalized = some finalized →
      finalized.number ≤ safe.number) : (applied.resolve number).Ordered := by
  have kept {checkpoint : Option CheckpointMeta} {inner : CheckpointMeta}
      (found : (checkpoint.bind fun inner => if inner.number ≤ number then some inner else none) =
        some inner) : checkpoint = some inner ∧ inner.number ≤ number := by
    obtain ⟨original, stored, coherent⟩ := Option.bind_eq_some_iff.mp found
    split_ifs at coherent with below
    cases coherent
    exact ⟨stored, below⟩
  exact ⟨fun _ found => (kept found).2, fun _ found => (kept found).2,
    fun _ _ safe finalized => apart _ _ (kept safe).1 (kept finalized).1⟩

structure Honest (truth : Truth) (env : Env) : Prop where
  latest : ∀ watchSet loaded, env.loadLatest watchSet = some loaded →
    Genuine truth watchSet loaded.projection ∧ validateSnapshotView loaded = .ok ()
  found : ∀ watchSet hash projection, env.loadAt watchSet hash = some projection →
    Genuine truth watchSet projection ∧ projection.block.hash = hash

theorem validateSnapshotView_shown {truth : Truth} {history : Nat → Moment} {time : Nat}
    {watchSet : WatchSet} {loaded : CanonicalSnapshot} (lawful : Lawful truth history)
    (shows : (history time).Shows loaded) (genuine : Genuine truth watchSet loaded.projection) :
    validateSnapshotView loaded = .ok () := by
  have same := shows.head
  have view := shows.forkchoice
  unfold Moment.forkchoice at view
  have passes (number : loaded.forkchoice.head.number = loaded.projection.block.number)
      (hash : loaded.forkchoice.head.hash = loaded.projection.block.hash)
      (ordered : loaded.forkchoice.Ordered) : validateSnapshotView loaded = .ok () := by
    unfold validateSnapshotView
    rw [if_neg (by rw [not_or, not_not, not_not]; exact ⟨number, hash⟩)]
    exact validateForkchoiceCheckpoints_ok.mpr ordered
  cases tracked : (history time).tracker.latest.view with
  | some applied =>
    rw [tracked] at view
    rw [Moment.head_of_applied tracked] at same
    rw [view] at passes
    exact passes rfl same.symm (ordered_resolve _ (lawful.applied time applied · · tracked))
  | none =>
    rw [tracked] at view
    rw [Moment.head_of_bare tracked] at same
    rw [view] at passes
    refine passes ?_ same.symm (lawful.ordered time)
    change (history time).provider.best.number = _
    rw [lawful.best, ← same, ← genuine.described.1]

theorem honest_of_sourced {truth : Truth} {env : Env} (sourced : Sourced truth env) :
    Honest truth env where
  latest watchSet loaded read := by
    obtain ⟨history, start, stop, lawful, returned⟩ := sourced.latest watchSet loaded read
    obtain ⟨time, _, _, shows, held⟩ :=
      SnapshotSource.loadLatest_taken lawful.progresses returned
    have genuine := genuine_of_held lawful held
    exact ⟨genuine, validateSnapshotView_shown lawful shows genuine⟩
  found watchSet hash projection read := by
    obtain ⟨history, start, stop, lawful, returned⟩ := sourced.found watchSet hash projection read
    have held := @SnapshotSource.loadAt_ensures history start watchSet hash
    rw [ensures_of_returns returned] at held
    exact ⟨genuine_of_held lawful held.2, SnapshotSource.hash_of_held held.2⟩

theorem Honest.chained {truth : Truth} {env : Env} (honest : Honest truth env) :
    Chained truth.block env where
  latest watchSet loaded read := (honest.latest watchSet loaded read).1.described.1
  found watchSet hash projection read := (honest.found watchSet hash projection read).1.described.1

/-- Deltas are of blocks that follow their parents and were extracted with the active dictionary,
activated dictionaries were accepted, and finality is not ahead of safety. -/
structure Sane (truth : Truth) (stream : StreamConfig) (p : Publisher) (input : Input) : Prop where
  numbered : Numbered truth.block p input
  handed : Handed p input
  configured : Configured stream p input
  linear : ∀ event block changes, input = .event event → event.delta = some (block, changes) →
    block.number = (truth.block block.parentHash).number + 1 ∧ block.number < 2 ^ 64
  ordered : ∀ observedAt generation applied, input = .event (.forkchoiceApplied observedAt generation
    applied) → ∀ safe finalized, applied.safe = some safe → applied.finalized = some finalized →
    finalized.number ≤ safe.number

namespace Machine

variable {truth : Truth} {stream : StreamConfig} {world : Env → Prop}
  {offers : Publisher → Input → Prop} {cache metadata : Nat}

structure Fit (truth : Truth) (watchSet : WatchSet) (projection : Projection) : Prop where
  whole : projection.Whole watchSet
  bitmap : projection.changedBitmap = [] ∨
    projection.changedBitmap.length = bitmapLen watchSet.len
  known : projection.block = truth.block projection.block.hash

structure Linked (truth : Truth) (watchSet : WatchSet) (block : BlockMeta)
    (changes : BlockChanges) : Prop where
  known : block = truth.block block.hash
  linear : block.number = (truth.block block.parentHash).number + 1 ∧ block.number < 2 ^ 64
  extracted : Extracted watchSet block changes

def Apart (applied : AppliedForkchoiceMeta) : Prop :=
  ∀ safe finalized, applied.safe = some safe → applied.finalized = some finalized →
    finalized.number ≤ safe.number

theorem fit_of_genuine {watchSet : WatchSet} {projection : Projection}
    (genuine : Genuine truth watchSet projection) : Fit truth watchSet projection :=
  ⟨genuine.whole, .inl genuine.unchanged, genuine.described.1⟩

theorem Fit.dictionary {watchSet : WatchSet} {projection : Projection}
    (fit : Fit truth watchSet projection) :
    validateProjectionDictionary projection watchSet = .ok () := by
  have typed := fit.whole.typed
  subst typed
  exact if_pos ⟨rfl, rfl⟩

theorem Fit.shape {watchSet : WatchSet} {projection : Projection}
    (fit : Fit truth watchSet projection) : validateProjectionShape projection = .ok () := by
  have typed := fit.whole.typed
  subst typed
  unfold validateProjectionShape
  rw [if_neg (not_not.mpr fit.whole.values), if_neg]
  rintro ⟨present, wrong⟩
  rcases fit.bitmap with empty | right
  · exact present empty
  · exact wrong right

structure Sound (truth : Truth) (cache metadata : Nat) (state : State) : Prop where
  filled : Filled (Fit truth) (Linked truth) state
  identified : Identified truth.block state
  stored : Stored truth.block cache metadata state
  applied : state.phase.Applies Apart

section

variable (honest : ∀ env, world env → Honest truth env)
  (sane : ∀ p input, offers p input → Sane truth stream p input)

include honest sane

theorem spreads_fit : Spreads (Fit truth) (Linked truth) world offers where
  typed _ _ fit := fit.whole.typed
  latest env lawful watchSet loaded read _ :=
    fit_of_genuine ((honest env lawful).latest watchSet loaded read).1
  found env lawful watchSet hash projection read _ :=
    fit_of_genuine ((honest env lawful).found watchSet hash projection read).1
  delta p event block changes offered carried current := by
    have given := sane p _ offered
    exact ⟨given.numbered.foretold event block changes rfl carried,
      given.linear event block changes rfl carried, given.handed.2 block changes carried current⟩
  applies watchSet parent block changes applied fit _ linked changed := by
    obtain ⟨values, bits⟩ := applyChanges_lengths changed
    rw [List.length_replicate] at bits
    exact ⟨⟨rfl, values.trans fit.whole.values⟩, .inr bits, linked.known⟩

theorem sound_step (room : 1 ≤ cache ∧ 1 ≤ metadata) {state after : State}
    (sound : Sound truth cache metadata state) (step : Step world offers state after) :
    Sound truth cache metadata after := by
  have chained : Step (Chained truth.block) offers state after :=
    step.mono (fun env lawful => (honest env lawful).chained) fun _ _ => id
  have numbered (p : Publisher) (input : Input) (offered : offers p input) :
      Numbered truth.block p input := (sane p input offered).numbered
  refine ⟨filled_step (spreads_fit honest sane) sound.filled step,
    filled_step (spreads_chained numbered) sound.identified chained,
    stored_step numbered room sound.identified sound.stored chained, ?_⟩
  refine applies_step (fun p observedAt generation applied offered => ?_) sound.applied step
  exact (sane p _ offered).ordered observedAt generation applied rfl

end

theorem sound_initial {env : Env} {options : Publisher.ServiceOptions} {watchSet : WatchSet}
    {start : Publisher} (honest : Honest truth env)
    (started : Publisher.startService env options watchSet = some start) :
    Sound truth options.stream.candidateCacheBlocks options.stream.candidateMetadataEntries
        ⟨.idle, start⟩ ∧
      1 ≤ options.stream.candidateCacheBlocks ∧ 1 ≤ options.stream.candidateMetadataEntries := by
  obtain ⟨identified, stored, room⟩ := stored_initial honest.chained started
  obtain ⟨loaded, starts, rfl⟩ := Publisher.startService_eq_some.mp started
  have fit := fit_of_genuine (honest.latest watchSet loaded starts.read).1
  have contents : Contents (Fit truth) (Linked truth) (.initial env options watchSet loaded) :=
    contents_initial env options watchSet (by rw [fit.whole.typed]; exact fit)
  exact ⟨⟨⟨contents, trivial⟩, identified, stored, trivial⟩, room⟩

end Machine

/-- A read of the environment fails. -/
def Env.Unread (env : Env) : Prop :=
  (∃ watchSet, env.loadLatest watchSet = none) ∨ ∃ watchSet hash, env.loadAt watchSet hash = none

theorem Store.trimProjectionLoop_error {inserted : B256} {fuel examined : Nat}
    {retired : List B256} {store after : Store} {failure : Error}
    (failed : trimProjectionLoop inserted fuel examined retired store = (.error failure, after)) :
    failure = .diverged ∨ failure = .cannotEvict inserted := by
  induction fuel generalizing examined retired store with
  | zero =>
    cases failed
    exact .inl rfl
  | succ fuel ih =>
    unfold trimProjectionLoop at failed
    split at failed
    · split at failed
      · cases failed
      · dsimp only at failed
        split at failed
        · split at failed
          · cases failed
            exact .inr rfl
          · exact ih failed
        · exact ih failed
    · cases failed

theorem Store.trimMetadataLoop_error {fuel : Nat} {retired : List B256} {store after : Store}
    {failure : Error}
    (failed : trimMetadataLoop fuel retired store = (.error failure, after)) :
    failure = .diverged ∨ failure = .metadataBound := by
  induction fuel generalizing retired store with
  | zero =>
    cases failed
    exact .inl rfl
  | succ fuel ih =>
    unfold trimMetadataLoop at failed
    split at failed
    · split at failed
      · cases failed
        exact .inr rfl
      · dsimp only at failed
        split at failed <;> exact ih failed
    · cases failed

namespace Machine

variable {truth : Truth} {stream : StreamConfig} {world : Env → Prop}
  {offers : Publisher → Input → Prop} {cache metadata : Nat} {phase : Phase}

inductive Confined (world : Env → Prop) (phase : Phase) : Error → Prop
  | source {env : Env} (lawful : world env) (unread : env.Unread) : Confined world phase .source
  | cannotEvict (inserted : B256) : Confined world phase (.cannotEvict inserted)
  | encode (overflow : Wire.EncodeError) : Confined world phase (.encode overflow)
  | headMismatch {applied : AppliedForkchoiceMeta} (canonical : B256)
      (fencing : phase = .fencing applied) :
      Confined world phase (.headMismatch applied.headHash canonical)

theorem confined_frames {shared : Shared} {watchSet : WatchSet} {projection : Projection}
    {forkchoice : ForkchoiceMeta} {failure : Error} (fit : Fit truth watchSet projection)
    (failed : validateProjectionFrames shared projection forkchoice = .error failure) :
    Confined world phase failure := by
  obtain ⟨overflow, rfl⟩ := validateProjectionFrames_encode fit.shape failed
  exact .encode overflow

theorem confined_load {env : Env} {p : Publisher} {watchSet : WatchSet} {failure : Error}
    (honest : Honest truth env) (lawful : world env) (refused : LoadFails env p watchSet failure) :
    Confined world phase failure := by
  cases refused with
  | unread missing => exact .source lawful (.inl ⟨watchSet, missing⟩)
  | view read refused =>
    rw [(honest.latest _ _ read).2] at refused
    cases refused
  | dictionary read refused =>
    rw [(fit_of_genuine (honest.latest _ _ read).1).dictionary] at refused
    cases refused
  | frames read _ refused => exact confined_frames (fit_of_genuine (honest.latest _ _ read).1) refused
  | config refused =>
    obtain ⟨overflow, rfl⟩ := validateEventFrame_encode refused
    exact .encode overflow

theorem canonicalProjection_fit {env : Env} {p : Publisher} {generation : Generation} {hash : B256}
    {projection : Projection} (honest : Honest truth env)
    (contents : Contents (Fit truth) (Linked truth) p)
    (found : Publisher.canonicalProjection env p generation hash = .ok projection) :
    Fit truth p.active projection ∧ projection.block.hash = hash := by
  unfold Publisher.canonicalProjection at found
  dsimp only at found
  split at found
  · next cached =>
    cases found
    split_ifs at cached
    obtain ⟨keyed, fit⟩ := contents.cached _ _ cached
    exact ⟨fit, keyed⟩
  · split at found
    · next read =>
      cases found
      obtain ⟨genuine, keyed⟩ := honest.found _ _ _ read
      exact ⟨fit_of_genuine genuine, keyed⟩
    · cases found

theorem confined_head {env : Env} {p : Publisher} {generation : Generation}
    {applied : AppliedForkchoiceMeta} {failure : Error} (honest : Honest truth env)
    (lawful : world env) (contents : Contents (Fit truth) (Linked truth) p)
    (refused : HeadFails env p generation applied failure) : Confined world phase failure := by
  cases refused with
  | missing refused =>
    unfold Publisher.canonicalProjection at refused
    dsimp only at refused
    split at refused
    · cases refused
    · split at refused
      · cases refused
      · next missing =>
        cases refused
        exact .source lawful (.inr ⟨_, _, missing⟩)
  | dictionary found refused =>
    rw [(canonicalProjection_fit honest contents found).1.dictionary] at refused
    cases refused
  | identity found different =>
    exact absurd (canonicalProjection_fit honest contents found).2 different
  | shape found refused =>
    rw [(canonicalProjection_fit honest contents found).1.shape] at refused
    cases refused
  | compared found _ _ refused =>
    have whole := (canonicalProjection_fit honest contents found).1.whole
    unfold canonicalChangedBitmap at refused
    rw [if_neg] at refused
    · split at refused <;> cases refused
    · rw [not_or, not_not, not_not, whole.typed, whole.values]
      exact ⟨rfl, contents.canonical.whole.values⟩

theorem loadedValues_linked {watchSet : WatchSet} {block : BlockMeta} {changes : BlockChanges}
    {parent : Projection} (linked : Linked truth watchSet block changes)
    (fit : Fit truth watchSet parent) (keyed : parent.block.hash = block.parentHash) :
    Publisher.loadedValues watchSet block parent = .ok parent.values := by
  have number : parent.block.number = (truth.block block.parentHash).number := by
    rw [fit.known, keyed]
  obtain ⟨next, bounded⟩ := linked.linear
  unfold Publisher.loadedValues
  rw [fit.dictionary, fit.shape]
  change (if _ then _ else if _ then _ else _) = _
  rw [if_neg (by omega), if_neg]
  · rfl
  · rintro (other | other)
    · exact other keyed
    · omega

theorem inheritedValues_linked {watchSet : WatchSet} {block : BlockMeta} {changes : BlockChanges}
    {parent : Projection} (linked : Linked truth watchSet block changes)
    (fit : Fit truth watchSet parent) (keyed : parent.block.hash = block.parentHash) :
    Publisher.inheritedValues watchSet watchSet.generation block parent = .ok parent.values := by
  have number : parent.block.number = (truth.block block.parentHash).number := by
    rw [fit.known, keyed]
  obtain ⟨next, bounded⟩ := linked.linear
  unfold Publisher.inheritedValues
  rw [if_neg (by omega), if_neg (by omega), if_neg]
  rw [not_or, not_not, not_not, fit.whole.typed]
  exact ⟨rfl, fit.whole.values⟩

section

variable (honest : ∀ env, world env → Honest truth env)
  (sane : ∀ p input, offers p input → Sane truth stream p input)

include honest sane

theorem confined_of_fails (room : 1 ≤ metadata) {state : State} {failure : Error}
    (sound : Sound truth cache metadata state) (fails : Fails world offers state failure) :
    Confined world state.phase failure := by
  obtain ⟨contents, _⟩ := sound.filled
  have linked {p : Publisher} {stage : CandidateStage} {block : BlockMeta} {changes : BlockChanges}
      (contents : Contents (Fit truth) (Linked truth) p)
      (delta : Delta offers p stage block changes) : Linked truth p.active block changes :=
    delta.isSound (spreads_fit honest sane) contents
  cases fails with
  | unsent => exact .encode _
  | ahead admitted newer => exact absurd (sane _ _ admitted).handed.1 (Nat.not_le.mpr newer)
  | @inconsistent p stage block changes entry delta stored different =>
    -- Two blocks of one hash are one block of the chain.
    have known := (sound.stored.formed.known block.hash _ (Store.record_of_candidate stored)).1
    exact absurd (known.trans (linked contents delta).known.symm) different
  | inherited delta stored refused =>
    obtain ⟨keyed, fit⟩ := contents.cached _ _ stored
    rw [inheritedValues_linked (linked contents delta) fit keyed] at refused
    cases refused
  | loaded lawful delta read refused =>
    obtain ⟨genuine, keyed⟩ := (honest _ lawful).found _ _ _ read
    rw [loadedValues_linked (linked contents delta) (fit_of_genuine genuine) keyed] at refused
    cases refused
  | @applied p env stage block changes inherited failure lawful delta inherits refused =>
    have extracted : Extracted p.active block changes := (linked contents delta).extracted
    obtain ⟨bundle, rfl⟩ := extracted
    obtain ⟨change, member, _, outside⟩ := applyChanges_error refused
    -- Extracted changes name keys of the active dictionary only.
    have inside := keyId_of_extractChanges member
    rw [inherits.whole] at outside
    omega
  | head lawful _ refused => exact confined_head (honest _ lawful) lawful contents refused
  | @cache p projection next failure store trimmed =>
    -- The loop ends within its fuel, so the only failure left is that nothing can be evicted.
    rcases Store.trimProjectionLoop_error trimmed with rfl | rfl
    · have stops := Store.trimProjectionCache_stops projection.block.hash p.store
      rw [trimmed] at stops
      exact absurd rfl stops
    · exact .cannotEvict _
  | metadata trimmed =>
    obtain ⟨removed, after, returned⟩ := sound.stored.formed.trimMetadata_returns
      (room.trans_eq sound.stored.metadataLimit.symm)
    cases trimmed.symm.trans returned
  | unfenced => exact .headMismatch _ rfl
  | view refused =>
    rw [validateForkchoiceCheckpoints_ok.mpr (ordered_resolve _ sound.applied)] at refused
    cases refused
  | anchor lawful refused | activation lawful _ _ refused =>
    exact confined_load (honest _ lawful) lawful refused

end

end Machine

def Error.Mismatches : Error → Prop
  | .headMismatch _ _ => True
  | _ => False

section

variable {env : Env} {p : Publisher} {generation : Generation} {observedAt : Instant}

theorem publishInner_raises (generation : Generation) (event : Wire.Event)
    (nextState : Option (Projection × Option ForkchoiceMeta × Bool)) :
    (Shared.publishInner env generation event nextState).Raises (¬ ·.Mismatches) := by
  refine raises_of_ensures fun shared => ?_
  refine (Shared.publishInner_ensures env generation event nextState shared).mono
    (fun _ _ _ => trivial) ?_
  rintro _ _ ⟨_, _, rfl, _⟩
  exact id

theorem publishRetired_raises (generation : Generation) (hashes : List B256)
    (reason : Wire.RetirementReason) :
    (Shared.publishRetired env generation hashes reason).Raises (¬ ·.Mismatches) :=
  raises_get fun _ => Raises.forEach fun _ =>
    (publishInner_raises _ _ _).bind fun _ => raises_pure ()

theorem enforceLimits_raises (projection : Projection) :
    (Publisher.enforceLimits env projection).Raises (¬ ·.Mismatches) := by
  have cache : (Store.trimProjectionCache projection.block.hash).Raises (¬ ·.Mismatches) := by
    intro store failure failed
    have error := @Store.trimProjectionLoop_error _ _ _ _ store _ failure (Prod.ext failed rfl)
    rcases error with rfl | rfl <;> exact id
  have metadata : Store.trimMetadata.Raises (¬ ·.Mismatches) := by
    intro store failure failed
    have error := @Store.trimMetadataLoop_error _ _ store _ failure (Prod.ext failed rfl)
    rcases error with rfl | rfl <;> exact id
  refine (cache.focus _ _).bind fun _ => ((publishRetired_raises _ _ _).focus _ _).bind fun _ => ?_
  exact (metadata.focus _ _).bind fun _ => (publishRetired_raises _ _ _).focus _ _

theorem canonicalProjection_matches {hash : B256} {failure : Error}
    (failed : Publisher.canonicalProjection env p generation hash = .error failure) :
    ¬ failure.Mismatches := by
  unfold Publisher.canonicalProjection at failed
  dsimp only at failed
  split at failed
  · cases failed
  · split at failed
    · cases failed
    · cases failed
      exact id

theorem publishCanonical_raises (projection : Projection) (changedBitmap : Bytes) :
    (Publisher.publishCanonical env projection changedBitmap).Raises (¬ ·.Mismatches) := by
  refine raises_get fun _ => ?_
  refine Raises.bind (Raises.bind ((raises_modify _).focus _ _) fun _ => enforceLimits_raises _)
    fun _ => ?_
  refine ((publishInner_raises _ _ _).focus _ _).bind fun _ => ?_
  exact ((raises_modify _).focus _ _).bind fun _ => raises_pure true

theorem canonical_raises (hash : B256) :
    (Publisher.canonical env generation observedAt none hash).Raises (¬ ·.Mismatches) := by
  refine raises_get fun p => ?_
  split
  · exact raises_throw id
  split
  · exact raises_pure false
  split
  · exact raises_pure false
  refine (raises_ofExcept fun _ => canonicalProjection_matches).bind fun projection => ?_
  refine Raises.bind (raises_ofExcept fun failure failed => ?_) fun _ => ?_
  · unfold validateProjectionDictionary at failed
    split at failed
    · cases failed
    · cases failed
      exact id
  split
  · exact raises_throw id
  refine Raises.bind (raises_ofExcept fun failure failed => ?_) fun _ => ?_
  · unfold validateProjectionShape at failed
    refine error_of_if (motive := (¬ ·.Mismatches)) failed id fun failed => ?_
    exact error_of_if (motive := (¬ ·.Mismatches)) failed id nofun
  refine Raises.bind (raises_ofExcept fun failure failed => ?_) fun _ => publishCanonical_raises _ _
  unfold canonicalChangedBitmap at failed
  refine error_of_if (motive := (¬ ·.Mismatches)) failed id fun failed => ?_
  split at failed <;> cases failed

theorem publishView_raises (view : ForkchoiceMeta) :
    (Publisher.publishView env view).Raises (¬ ·.Mismatches) := by
  refine raises_get fun p => Raises.bind (raises_ofExcept fun failure failed => ?_) fun _ => ?_
  · unfold validateForkchoiceCheckpoints at failed
    refine error_of_if (motive := (¬ ·.Mismatches)) failed id fun failed => ?_
    split at failed
    · exact error_of_if (motive := (¬ ·.Mismatches)) failed id nofun
    · cases failed
  refine ((publishInner_raises _ _ _).focus _ _).bind fun _ => ?_
  split
  · split
    · refine ((raises_modify _).focus _ _).bind fun _ => Raises.bind ?_ fun _ => raises_pure true
      refine ((raises_step _).focus _ _).bind fun _ => ?_
      exact ((publishRetired_raises _ _ _).focus _ _).bind fun _ => raises_pure _
    · exact raises_pure true
  · exact raises_pure true

theorem canonical_adopts {hash : B256} (known : generation ≤ p.active.generation)
    (later : p.snapshotAnchoredAt < observedAt) :
    (Publisher.canonical env generation observedAt none hash).Ensures p
      (fun _ after => after.shared.published.canonical.block.hash = hash) (fun _ _ => True) := by
  unfold Publisher.canonical
  rw [ensures_bind, ensures_get, if_neg (Nat.not_lt.mpr known), if_neg (Nat.not_le.mpr later)]
  split
  · next same => exact same.symm
  rw [ensures_bind, ensures_ofExcept]
  refine ⟨fun projection _ => ?_, fun _ _ => trivial⟩
  rw [ensures_bind, ensures_ofExcept]
  refine ⟨fun _ _ => ?_, fun _ _ => trivial⟩
  split
  · trivial
  · next identity =>
    rw [not_or, not_not] at identity
    rw [ensures_bind, ensures_ofExcept]
    refine ⟨fun _ _ => ?_, fun _ _ => trivial⟩
    rw [ensures_bind, ensures_ofExcept]
    refine ⟨fun _ _ => ?_, fun _ _ => trivial⟩
    unfold Publisher.publishCanonical
    rw [ensures_bind, ensures_get, ensures_bind]
    refine (ensures_any _ p).mono (fun _ inserted _ => ?_) (fun _ _ _ => trivial)
    rw [ensures_bind]
    refine (ensures_focus _ _ _).mpr ?_
    refine (Shared.publishInner_ensures env _ _ _ inserted.shared).mono ?_ (fun _ _ _ => trivial)
    rintro sequence _ ⟨_, rfl⟩
    exact identity.1

theorem handle_matches {applied : AppliedForkchoiceMeta} {failure : Error}
    (canonical : p.store.canonicalHash = p.shared.published.canonical.block.hash)
    (failed : (Publisher.handle env (.forkchoiceApplied observedAt generation applied) p).1 =
      .error failure) : ¬ failure.Mismatches := by
  have ensures : (Publisher.forkchoiceApplied env generation observedAt applied).Ensures p
      (fun _ _ => True) (fun failure _ => ¬ failure.Mismatches) := by
    by_cases newer : generation > p.active.generation
    · unfold Publisher.forkchoiceApplied
      rw [ensures_bind, ensures_get, if_pos newer]
      exact id
    by_cases older : observedAt ≤ p.snapshotAnchoredAt
    · unfold Publisher.forkchoiceApplied
      rw [ensures_bind, ensures_get, if_neg newer, if_pos older]
      trivial
    have known := Nat.not_lt.mp newer
    have later := Nat.not_le.mp older
    rw [ensures_congr (forkchoiceApplied_eq canonical known later), ensures_bind]
    refine ((canonical_adopts known later).and ((canonical_raises _).ensures p)).mono ?_
      (fun _ _ raised => raised.2)
    rintro _ after ⟨same, _⟩
    unfold Publisher.publishForkchoice
    rw [ensures_bind, ensures_get, if_neg (not_not.mpr same)]
    exact (publishView_raises _).ensures after
  have handled : (Publisher.handle env (.forkchoiceApplied observedAt generation applied)).Ensures p
      (fun _ _ => True) (fun failure _ => ¬ failure.Mismatches) := by
    unfold Publisher.handle
    rw [ensures_bind, ensures_get]
    dsimp only
    rw [ensures_bind]
    exact ensures.mono (fun _ _ _ => trivial) (fun _ _ => id)
  exact handled.of_error failed

end

theorem applies_round {world : Env → Prop} {offers : Publisher → Input → Prop} {loop : Loop}
    {input : Input} {state : State} (single : ∀ p other, offers p other → other = input)
    (onward : Steps world offers (.ofLoop loop) state) :
    state.phase.Applies fun applied => ∃ observedAt generation,
      input = .event (.forkchoiceApplied observedAt generation applied) := by
  refine @steps_invariant _ _ (fun state => state.phase.Applies _) _ _ onward ?_ fun _ _ applies =>
    applies_step (fun _ observedAt generation _ offered => ?_) applies
  · obtain ⟨publisher, control⟩ := loop
    cases control <;> trivial
  · exact ⟨observedAt, generation, (single _ _ offered).symm⟩

theorem failure_matches {env now : Env} {options : Publisher.ServiceOptions} {watchSet : WatchSet}
    {start : Publisher} {allowed : Publisher → Env → Input → Prop} {loop : Loop}
    {observedAt : Instant} {generation : Generation} {applied : AppliedForkchoiceMeta}
    {failure : Error} (started : Publisher.startService env options watchSet = some start)
    (reached : Loop.Reaches allowed start loop)
    (failed : loop.failure now (.event (.forkchoiceApplied observedAt generation applied)) =
      some failure) : ¬ failure.Mismatches := by
  obtain ⟨monitor, _, tracks⟩ := streaming_reaches started reached
  obtain ⟨p, control⟩ := loop
  cases control with
  | recovering announced => cases announced <;> cases failed
  | idle =>
    change Loop.failureOf (Publisher.handle now _ p).1 = _ at failed
    cases result : (Publisher.handle now
        (.forkchoiceApplied observedAt generation applied) p).1 with
    | ok =>
      rw [result] at failed
      cases failed
    | error =>
      rw [result] at failed
      cases failed
      exact handle_matches tracks.canonical result

/-- Over a source that reads a lawful node, an operation of the publisher thread fails only where a
read fails or the eviction scan gives up. -/
theorem failure_confined {truth : Truth} {config : Config} (accepted : config.validate = .ok ())
    (bounded : config.stream.maxFrameBytes < 2 ^ 32) {options : Publisher.ServiceOptions}
    {env : Env} {generation : Generation} {start : Publisher}
    (stream : options.stream = config.stream) (boot : options.bootId.length = 16)
    (sourced : Sourced truth env)
    (started : Publisher.startService env options (WatchSet.compile generation config.watch) =
      some start) {loop : Loop}
    (reached : Loop.Reaches (Allowed (Sourced truth) (Sane truth config.stream)) start loop)
    {now : Env} {input : Input} {failure : Error} (lawful : Sourced truth now)
    (admitted : Sane truth config.stream loop.publisher input)
    (failed : loop.failure now input = some failure) :
    (failure = .source ∧ now.Unread) ∨ ∃ inserted, failure = .cannotEvict inserted := by
  obtain ⟨initial, room⟩ := sound_initial (honest_of_sourced sourced) started
  have sound := steps_invariant (reaches_steps reached) initial fun _ _ =>
    sound_step (fun _ => honest_of_sourced) (fun _ _ => id) room
  have fits (overflow : Wire.EncodeError) : failure ≠ .encode overflow := by
    rintro rfl
    have configured : Loop.Reaches (Allowed (fun _ => True) (Configured config.stream)) start
        loop := reaches_mono (fun _ _ _ allowed => ⟨trivial, allowed.2.configured⟩) reached
    exact failure_fits (Config.valid_of_validate accepted) bounded stream boot started configured
      admitted.configured overflow failed
  -- The round in question sees one environment and one input.
  have stopped : Stops (fun env => Sourced truth env ∧ env = now)
      (fun p other => Sane truth config.stream p other ∧ other = input) (.ofLoop loop) failure ∨ _ :=
    failure_stops ⟨lawful, rfl⟩ ⟨admitted, rfl⟩ failed
  rcases stopped with ⟨state, onward, fails⟩ | ⟨_, _, overflow, _, same, _⟩
  · have later : Sound truth _ _ state := steps_invariant onward sound fun _ _ =>
      sound_step (fun _ lawful => honest_of_sourced lawful.1) (fun _ _ offered => offered.1) room
    have confined := confined_of_fails (fun _ lawful => honest_of_sourced lawful.1)
      (fun _ _ offered => offered.1) room.2 later fails
    have applies := applies_round (fun _ _ offered => offered.2) onward
    generalize phased : state.phase = phase at confined
    cases confined with
    | source lawful unread =>
      cases lawful.2
      exact .inl ⟨rfl, unread⟩
    | cannotEvict inserted => exact .inr ⟨inserted, rfl⟩
    | encode overflow => exact absurd rfl (fits overflow)
    | headMismatch canonical fencing =>
      rw [phased, fencing] at applies
      obtain ⟨observedAt, generation, rfl⟩ := applies
      exact absurd trivial (failure_matches started reached failed)
  · exact absurd same (fits overflow)

namespace Sample

def truth : Truth where
  block := block
  state hash _ _ := hash

theorem moments_lawful : Lawful truth moments where
  progresses := moments_progress
  header time hash header known := by
    cases known
    rfl
  state time hash state opened address slot := by
    cases opened
    rfl
  best _ := show (1 : Nat) = (block 1).number by decide
  ordered _ := ⟨nofun, nofun, nofun⟩
  applied time view safe finalized tracked named := by
    unfold moments trackerAt at tracked
    dsimp only at tracked
    split at tracked
    · cases tracked
    · cases tracked
      cases named

def sourceEnv : Env :=
  { env 1 0 with
    loadLatest := fun watched => (SnapshotSource.loadLatest moments watched 0).1.toOption
    loadAt := fun watched hash => (SnapshotSource.loadAt moments watched hash 0).1.toOption }

theorem sourced : Sourced truth sourceEnv := by
  have returned {α : Type} {result : Except SourceError α × Nat} {value : α}
      (read : result.1.toOption = some value) : result = (.ok value, result.2) := by
    obtain ⟨_ | _, _⟩ := result
    · cases read
    · cases read
      rfl
  exact ⟨fun watched loaded read => ⟨moments, 0, _, moments_lawful, returned read⟩,
    fun watched hash projection read => ⟨moments, 0, _, moments_lawful, returned read⟩⟩

def deadEnv : Env := { env 1 0 with loadLatest := fun _ => none, loadAt := fun _ _ => none }

def nextWatchSet : WatchSet := { watchSet with generation := 2 }

end Sample

theorem failure_confined_sample :
    ∃ start, Publisher.startService Sample.sourceEnv Sample.bootedOptions Sample.watchSet =
        some start ∧
      (Loop.start start).failure Sample.deadEnv (.activation Sample.nextWatchSet) =
        some .source ∧ Sample.deadEnv.Unread := by
  have evaluated : (Publisher.startService Sample.sourceEnv Sample.bootedOptions
      Sample.watchSet).any (fun start => start.store.nextIncarnation + 1 < 2 ^ 64 ∧
        (Loop.start start).failure Sample.deadEnv (.activation Sample.nextWatchSet) =
          some .source) = true := by decide +kernel
  obtain ⟨start, started, holds⟩ := (Option.any_eq_true _ _).mp evaluated
  obtain ⟨unwrapped, failed⟩ := of_decide_eq_true holds
  have dead : Sourced Sample.truth Sample.deadEnv := ⟨nofun, nofun⟩
  have accepted : (Config.mk .default Sample.watchSet.configured).validate = .ok () := by decide
  have sane : Sane Sample.truth StreamConfig.default start (.activation Sample.nextWatchSet) :=
    ⟨⟨unwrapped, foretold_of_no_delta nofun⟩, trivial, accepted, nofun, nofun⟩
  have confined := failure_confined accepted (by decide) rfl rfl Sample.sourced started .refl dead
    sane failed
  rcases confined with ⟨_, unread⟩ | ⟨_, evicts⟩
  · exact ⟨start, started, failed, unread⟩
  · cases evicts

end Statefeed
