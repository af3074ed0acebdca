import Statefeed.Machine.Contents
import Statefeed.Model.Sample
import Statefeed.Store.Placement

set_option autoImplicit false

namespace Statefeed

open Effect Effect.Op

/-- Whatever a snapshot source returns is the block `chain` has under its hash. -/
structure Chained (chain : B256 → BlockMeta) (env : Env) : Prop where
  latest : ∀ watchSet loaded, env.loadLatest watchSet = some loaded →
    loaded.projection.block = chain loaded.projection.block.hash
  found : ∀ watchSet hash projection, env.loadAt watchSet hash = some projection →
    projection.block = chain projection.block.hash

/-- The event of an input is about a block of `chain`. -/
def Foretold (chain : B256 → BlockMeta) (input : Input) : Prop :=
  ∀ event block changes, input = .event event → event.delta = some (block, changes) →
    block = chain block.hash

/-- Events speak of the same chain, and one more incarnation can be handed out. -/
structure Numbered (chain : B256 → BlockMeta) (p : Publisher) (input : Input) : Prop where
  unwrapped : p.store.nextIncarnation + 1 < 2 ^ 64
  foretold : Foretold chain input

namespace Machine

variable {chain : B256 → BlockMeta} {offers : Publisher → Input → Prop}

theorem spreads_foretold (foretold : ∀ p input, offers p input → Foretold chain input) :
    Spreads (fun watchSet projection => projection.watchSet = watchSet ∧
        projection.block = chain projection.block.hash)
      (fun _ block _ => block = chain block.hash) (Chained chain) offers where
  typed _ _ holds := holds.1
  latest _ lawful watchSet loaded read typed := ⟨typed, lawful.latest watchSet loaded read⟩
  found _ lawful watchSet hash projection read typed :=
    ⟨typed, lawful.found watchSet hash projection read⟩
  delta p event block changes offered carried _ :=
    foretold p _ offered event block changes rfl carried
  applies _ _ _ _ _ _ _ known _ := ⟨rfl, known⟩

theorem spreads_chained (numbered : ∀ p input, offers p input → Numbered chain p input) :
    Spreads (fun watchSet projection => projection.watchSet = watchSet ∧
        projection.block = chain projection.block.hash)
      (fun _ block _ => block = chain block.hash) (Chained chain) offers :=
  spreads_foretold fun p input offered => (numbered p input offered).foretold

abbrev Identified (chain : B256 → BlockMeta) : State → Prop :=
  Filled (fun watchSet projection => projection.watchSet = watchSet ∧
    projection.block = chain projection.block.hash) fun _ block _ => block = chain block.hash

def Phase.surplus : Phase → Nat × Nat
  | .placed _ _ => (1, 1)
  | .trimming _ _ => (0, 1)
  | .retiring _ _ _ next => next.surplus
  | _ => (0, 0)

def Phase.Keeps : Phase → Prop
  | .placed _ next | .trimming _ next | .retiring _ _ _ next => next.Keeps
  | .anchoring _ | .failed | .recovering _ => False
  | _ => True

inductive Situated (cacheLimit metadataLimit : Nat) (store : Store) : Phase → Prop
  | working {phase : Phase} (keeps : phase.Keeps)
      (fits : Store.Fits (cacheLimit + phase.surplus.1) (metadataLimit + phase.surplus.2) store) :
      Situated cacheLimit metadataLimit store phase
  | anchoring {retry : Bool} (unwrapped : store.nextIncarnation + 1 < 2 ^ 64) :
      Situated cacheLimit metadataLimit store (.anchoring retry)
  | failed : Situated cacheLimit metadataLimit store .failed
  | recovering {announced : Bool} : Situated cacheLimit metadataLimit store (.recovering announced)

structure Stored (chain : B256 → BlockMeta) (cache metadata : Nat) (state : State) : Prop where
  cacheLimit : state.publisher.store.cacheLimit = cache
  metadataLimit : state.publisher.store.metadataLimit = metadata
  formed : Store.WellFormed chain (fun _ => False) state.publisher.store
  situated : Situated cache metadata state.publisher.store state.phase

variable {cache metadata : Nat} {p : Publisher}

theorem Situated.fits {phase : Phase} (situated : Situated cache metadata p.store phase)
    (keeps : phase.Keeps) :
    Store.Fits (cache + phase.surplus.1) (metadata + phase.surplus.2) p.store := by
  cases situated with
  | working _ fits => exact fits
  | _ => exact keeps.elim

theorem Situated.placed {projection : Projection} {next : Phase}
    (situated : Situated cache metadata p.store (.placed projection next)) :
    next.Keeps ∧ Store.Fits (cache + 1) (metadata + 1) p.store := by
  cases situated with
  | working keeps fits => exact ⟨keeps, fits⟩

theorem Situated.trimming {generation : Generation} {next : Phase}
    (situated : Situated cache metadata p.store (.trimming generation next)) :
    next.Keeps ∧ Store.Fits cache (metadata + 1) p.store := by
  cases situated with
  | working keeps fits => exact ⟨keeps, fits⟩

theorem Situated.retiring {generation : Generation} {hashes : List B256}
    {reason : Wire.RetirementReason} {next : Phase}
    (situated : Situated cache metadata p.store (.retiring generation hashes reason next)) :
    next.Keeps ∧
      Store.Fits (cache + next.surplus.1) (metadata + next.surplus.2) p.store := by
  cases situated with
  | working keeps fits => exact ⟨keeps, fits⟩

theorem Situated.unwrapped {retry : Bool}
    (situated : Situated cache metadata p.store (.anchoring retry)) :
    p.store.nextIncarnation + 1 < 2 ^ 64 := by
  cases situated with
  | working keeps => exact keeps.elim
  | anchoring unwrapped => exact unwrapped

def SameLimits (before after : Store) : Prop :=
  after.cacheLimit = before.cacheLimit ∧ after.metadataLimit = before.metadataLimit

theorem sameLimits_of_settings {before after : Store} (same : after.settings = before.settings) :
    SameLimits before after :=
  ⟨congrArg Store.Settings.cacheLimit same, congrArg Store.Settings.metadataLimit same⟩

theorem Stored.change {phase phase' : Phase} {p' : Publisher}
    (stored : Stored chain cache metadata ⟨phase, p⟩) (limits : SameLimits p.store p'.store)
    (formed : Store.WellFormed chain (fun _ => False) p'.store)
    (situated : Situated cache metadata p'.store phase') :
    Stored chain cache metadata ⟨phase', p'⟩ where
  cacheLimit := limits.1.trans stored.cacheLimit
  metadataLimit := limits.2.trans stored.metadataLimit
  formed := formed
  situated := situated

theorem Stored.keep {phase phase' : Phase} {p' : Publisher}
    (stored : Stored chain cache metadata ⟨phase, p⟩) (same : p'.store = p.store)
    (situated : Situated cache metadata p.store phase') :
    Stored chain cache metadata ⟨phase', p'⟩ := by
  refine stored.change (by rw [same]; exact ⟨rfl, rfl⟩) ?_ ?_
  · rw [same]
    exact stored.formed
  · rw [same]
    exact situated

theorem stored_setStage {hash : B256} {stage : CandidateStage} {p' : Publisher}
    (stored : Stored chain cache metadata ⟨.idle, p⟩)
    (staged : p'.store = Publisher.setStage hash stage p.store) :
    Stored chain cache metadata ⟨.idle, p'⟩ := by
  have fits := stored.situated.fits trivial
  refine stored.change ?_ ?_ (.working trivial ?_)
  · rw [staged]
    exact ⟨rfl, rfl⟩
  · rw [staged]
    exact stored.formed.modifyCandidate hash _ (fun _ => rfl) fun _ => rfl
  · rw [staged]
    exact fits.modifyCandidate hash _

theorem commitCanonical_formed {store : Store}
    (formed : Store.WellFormed chain (fun _ => False) store) (now : Instant) (hash : B256)
    (sequence : Nat) :
    Store.WellFormed chain (fun _ => False)
      (Publisher.commitCanonical now hash sequence store) := by
  refine ((formed.setCanonical hash).scheduleExpiry now store.canonicalHash).modifyCandidate hash
    _ (fun entry => ?_) fun entry => ?_
  · split <;> rfl
  · split <;> rfl

theorem commitCanonical_fits {store : Store} (fits : Store.Fits cache metadata store)
    (now : Instant) (hash : B256) (sequence : Nat) :
    Store.Fits cache metadata (Publisher.commitCanonical now hash sequence store) := by
  have moved : Store.Fits cache metadata { store with canonicalHash := hash } :=
    ⟨fits.cached, fits.kept⟩
  exact (moved.scheduleExpiry now store.canonicalHash).modifyCandidate hash _

theorem sameLimits_commitCanonical (now : Instant) (hash : B256) (sequence : Nat)
    (store : Store) :
    SameLimits store (Publisher.commitCanonical now hash sequence store) := by
  unfold Publisher.commitCanonical Store.scheduleExpiry
  dsimp only
  split
  · exact ⟨rfl, rfl⟩
  · split <;> exact ⟨rfl, rfl⟩

theorem stored_fence {applied : AppliedForkchoiceMeta} {view : ForkchoiceMeta} {p' : Publisher}
    (stored : Stored chain cache metadata ⟨.fencing applied, p⟩)
    (fenced : p'.store = (afterFence view p.store).2) :
    Stored chain cache metadata ⟨(afterFence view p.store).1, p'⟩ := by
  have fits := stored.situated.fits trivial
  obtain ⟨finalized, sweep, left⟩ := afterFence_store view p.store
  rw [left] at fenced
  refine stored.change ?_ ?_ ?_
  · rw [fenced]
    exact ⟨rfl, rfl⟩
  · rw [fenced]
    exact stored.formed.setFinality finalized sweep
  · rw [fenced]
    rcases afterFence_phase view p.store with same | same
    · rw [same]
      exact .working trivial ⟨fits.cached, fits.kept⟩
    · rw [same]
      exact .working trivial ⟨fits.cached, fits.kept⟩

theorem stored_anchor {phase : Phase} {env : Env} {loaded : CanonicalSnapshot} {p' : Publisher}
    (stored : Stored chain cache metadata ⟨phase, p⟩) (room : 1 ≤ cache ∧ 1 ≤ metadata)
    (unwrapped : p.store.nextIncarnation + 1 < 2 ^ 64)
    (known : loaded.projection.block = chain loaded.projection.block.hash)
    (anchored : p'.store = (p.installSnapshot env loaded).store) :
    Stored chain cache metadata ⟨.idle, p'⟩ := by
  refine stored.change ?_ ?_ (.working trivial ?_)
  · rw [anchored]
    exact ⟨rfl, rfl⟩
  · rw [anchored]
    exact Store.wellFormed_resetCandidates _ _ unwrapped known
  · rw [anchored]
    exact ⟨room.1, room.2⟩

theorem Delta.chained {stage : CandidateStage} {block : BlockMeta} {changes : BlockChanges}
    (numbered : ∀ p input, offers p input → Numbered chain p input)
    (identified : Identified chain ⟨.idle, p⟩) (delta : Delta offers p stage block changes) :
    block = chain block.hash ∧ p.store.nextIncarnation + 1 < 2 ^ 64 := by
  refine ⟨delta.isSound (spreads_chained numbered) identified.1, ?_⟩
  cases delta with
  | executed admitted => exact (numbered _ _ admitted).unwrapped
  | fallback admitted => exact (numbered _ _ admitted).unwrapped
  | deferred admitted => exact (numbered _ _ admitted).unwrapped

theorem stored_step (numbered : ∀ p input, offers p input → Numbered chain p input)
    (room : 1 ≤ cache ∧ 1 ≤ metadata) {state after : State}
    (identified : Identified chain state) (stored : Stored chain cache metadata state)
    (step : Step (Chained chain) offers state after) :
    Stored chain cache metadata after := by
  have formed := stored.formed
  cases step with
  | promote => exact stored_setStage stored rfl
  | validate => exact stored_setStage stored rfl
  | @announce p env stage block changes inherited applied projection lawful delta fresh inherits
      changed assembled =>
    have fits := stored.situated.fits trivial
    obtain ⟨known, unwrapped⟩ := delta.chained numbered identified
    have placed : projection.block = chain projection.block.hash := by
      rw [assembled]
      exact known
    exact stored.change (sameLimits_of_settings (Store.settings_placeCandidate _ _ _ _ _ _))
      (formed.placeCandidate placed unwrapped _ _ _)
      (.working trivial (fits.placeCandidate _ _ _ _))
  | defer lawful delta fresh unknown =>
    have fits := stored.situated.fits trivial
    obtain ⟨known, unwrapped⟩ := delta.chained numbered identified
    exact stored.change (sameLimits_of_settings (Store.settings_placeDeferred _ _ _ _))
      (formed.placeDeferred known unknown unwrapped _ _)
      (.working trivial (fits.placeDeferred _ _ _))
  | @trimProjections p projection next evicted store trimmed =>
    obtain ⟨keeps, fits⟩ := stored.situated.placed
    have limits := sameLimits_of_settings (Store.settings_of_projections trimmed)
    have cached := formed.projectionCount_trimProjectionCache trimmed
    have whole := formed.trimProjectionCache projection.block.hash
    rw [trimmed] at whole
    refine stored.change limits whole.1 (.working keeps ⟨?_, ?_⟩)
    · exact cached.trans_eq (limits.1.trans stored.cacheLimit)
    · exact whole.2.trans_le fits.kept
  | @trimProjectionsFails p projection next failure store trimmed =>
    have limits := sameLimits_of_settings (Store.settings_of_projections trimmed)
    have whole := formed.trimProjectionCache projection.block.hash
    rw [trimmed] at whole
    exact stored.change limits whole.1 .failed
  | @trimMetadata p generation next removed store trimmed =>
    obtain ⟨keeps, fits⟩ := stored.situated.trimming
    have limits := sameLimits_of_settings (Store.settings_of_metadata trimmed)
    have kept := Store.metadataLen_trimMetadata trimmed
    have whole := formed.trimMetadata
    have smaller := fits.trimMetadata
    rw [trimmed] at whole smaller
    refine stored.change limits whole (.working keeps ⟨?_, ?_⟩)
    · exact smaller.cached.trans (Nat.le_add_right _ _)
    · exact (kept.trans_eq (limits.2.trans stored.metadataLimit)).trans (Nat.le_add_right _ _)
  | @trimMetadataFails p generation next failure store trimmed =>
    -- With a well-formed queue there is always a record to remove.
    obtain ⟨removed, after, returned⟩ := formed.trimMetadata_returns
      (room.2.trans_eq stored.metadataLimit.symm)
    rw [trimmed] at returned
    cases returned
  | retire => exact stored.keep rfl (.working stored.situated.retiring.1 stored.situated.retiring.2)
  | retired => exact stored.keep rfl (.working stored.situated.retiring.1 stored.situated.retiring.2)
  | reject =>
    have fits := stored.situated.fits trivial
    exact stored.change (sameLimits_of_settings (Store.settings_removeCandidateTree _ _ _))
      (formed.removeCandidateTree _ _) (.working trivial (fits.removeCandidateTree _ _))
  | @adopt p env _ _ _ projection _ lawful admitted _ _ _ found dictionary =>
    have fits := stored.situated.fits trivial
    have known := canonicalProjection_holds (spreads_chained numbered) lawful identified.1 found
      (watchSet_of_dictionary dictionary)
    exact stored.change (sameLimits_of_settings (Store.settings_placeCandidate _ _ _ _ _ _))
      (formed.placeCandidate known.2 (numbered _ _ admitted).unwrapped _ _ _)
      (.working trivial (fits.placeCandidate _ _ _ _))
  | head =>
    have fits := stored.situated.fits trivial
    exact stored.change (sameLimits_commitCanonical _ _ _ _)
      (commitCanonical_formed formed _ _ _) (.working trivial (commitCanonical_fits fits _ _ _))
  | reaffirm =>
    have fits := stored.situated.fits trivial
    exact stored.keep rfl (.working trivial fits)
  | fence => exact stored_fence stored rfl
  | sweep =>
    have fits := stored.situated.fits trivial
    exact stored.change (sameLimits_of_settings (Store.settings_processFinalityBudget _ _))
      (formed.processFinalityBudget _) (.working trivial (fits.processFinalityBudget _))
  | maintain =>
    have fits := stored.situated.fits trivial
    exact stored.change (sameLimits_of_settings (Store.settings_processFinalityBudget _ _))
      (formed.processFinalityBudget _) (.working trivial (fits.processFinalityBudget _))
  | expire =>
    have fits := stored.situated.fits trivial
    exact stored.change (sameLimits_of_settings (Store.settings_removeEach _ _ _))
      (formed.removeEach _ _) (.working trivial (fits.removeEach _ _))
  | gap lawful admitted => exact stored.keep rfl (.anchoring (numbered _ _ admitted).unwrapped)
  | retryGap lawful admitted => exact stored.keep rfl (.anchoring (numbered _ _ admitted).unwrapped)
  | retryBurns => exact stored.keep rfl .recovering
  | retryAnchor admitted => exact stored.keep rfl (.anchoring (numbered _ _ admitted).unwrapped)
  | anchor lawful loads =>
    exact stored_anchor stored room stored.situated.unwrapped
      (lawful.latest _ _ loads.read) rfl
  | anchorRefused => exact stored.keep rfl .failed
  | anchorFails => exact stored.keep rfl .recovering
  | activate lawful admitted _ loads =>
    exact stored_anchor stored room (numbered _ _ admitted).unwrapped
      (lawful.latest _ _ loads.read) rfl
  | refuse => exact stored.keep rfl .failed
  | burn => exact stored.keep rfl .failed
  | recover => exact stored.keep rfl .recovering
  | loss => exact stored.keep rfl .recovering

theorem stored_initial {env : Env} {options : Publisher.ServiceOptions} {watchSet : WatchSet}
    {start : Publisher} (chained : Chained chain env)
    (started : Publisher.startService env options watchSet = some start) :
    Identified chain ⟨.idle, start⟩ ∧
      Stored chain options.stream.candidateCacheBlocks options.stream.candidateMetadataEntries
        ⟨.idle, start⟩ ∧
      1 ≤ options.stream.candidateCacheBlocks ∧ 1 ≤ options.stream.candidateMetadataEntries := by
  obtain ⟨loaded, starts, rfl⟩ := Publisher.startService_eq_some.mp started
  obtain ⟨cache, metadata, _⟩ := StreamConfig.validate_limits starts.config
  have known := chained.latest _ _ starts.read
  have room : 1 ≤ options.stream.candidateCacheBlocks ∧
      1 ≤ options.stream.candidateMetadataEntries := by omega
  exact ⟨⟨contents_initial env options watchSet ⟨rfl, known⟩, trivial⟩,
    ⟨rfl, rfl, Store.wellFormed_newConfigured _ _ _ known, .working trivial ⟨room.1, room.2⟩⟩, room⟩

theorem stored_steps {env : Env} {options : Publisher.ServiceOptions} {watchSet : WatchSet}
    {start : Publisher} {state : State}
    (numbered : ∀ p input, offers p input → Numbered chain p input) (chained : Chained chain env)
    (started : Publisher.startService env options watchSet = some start)
    (run : Steps (Chained chain) offers ⟨.idle, start⟩ state) :
    Identified chain state ∧
      Stored chain options.stream.candidateCacheBlocks options.stream.candidateMetadataEntries
        state := by
  obtain ⟨identified, stored, room⟩ := stored_initial chained started
  exact @steps_invariant _ _ (fun state => Identified chain state ∧
      Stored chain options.stream.candidateCacheBlocks options.stream.candidateMetadataEntries state)
    _ _ run ⟨identified, stored⟩ fun state after holds step =>
      ⟨filled_step (spreads_chained numbered) holds.1 step,
        stored_step numbered room holds.1 holds.2 step⟩

theorem stored_reaches {env : Env} {options : Publisher.ServiceOptions} {watchSet : WatchSet}
    {start : Publisher} {loop : Loop}
    (numbered : ∀ p input, offers p input → Numbered chain p input) (chained : Chained chain env)
    (started : Publisher.startService env options watchSet = some start)
    (reached : Loop.Reaches (Allowed (Chained chain) offers) start loop) :
    Identified chain (.ofLoop loop) ∧
      Stored chain options.stream.candidateCacheBlocks options.stream.candidateMetadataEntries
        (.ofLoop loop) :=
  stored_steps numbered chained started (reaches_steps reached)

end Machine

/-- Whenever an operation has ended, after any recovery it needed, the candidate store is well
formed and within its configured sizes. -/
theorem candidate_store_represented {chain : B256 → BlockMeta} {env : Env}
    {options : Publisher.ServiceOptions} {watchSet : WatchSet} {start : Publisher} {loop : Loop}
    (chained : Chained chain env)
    (started : Publisher.startService env options watchSet = some start)
    (reached : Loop.Reaches (Machine.Allowed (Chained chain) (Numbered chain)) start loop)
    (ended : loop.control = .idle) :
    Store.WellFormed chain (fun _ => False) loop.publisher.store ∧
      loop.publisher.store.projectionCount ≤ options.stream.candidateCacheBlocks ∧
      loop.publisher.store.metadataLen ≤ options.stream.candidateMetadataEntries ∧
      loop.publisher.store.metadataLimit = options.stream.candidateMetadataEntries := by
  have stored := (Machine.stored_reaches (fun _ _ => id) chained started reached).2
  have phase : (Machine.State.ofLoop loop).phase = .idle := by
    change Machine.Phase.ofControl loop.control = .idle
    rw [ended]
    rfl
  have situated := stored.situated
  rw [phase] at situated
  have fits := situated.fits trivial
  exact ⟨stored.formed, fits.cached, fits.kept, stored.metadataLimit⟩

theorem sample_chained (head : B256) (anchoredAt : Instant) :
    Chained Sample.block (Sample.env head anchoredAt) where
  latest watchSet loaded read := by cases read; rfl
  found watchSet hash projection read := by cases read; rfl

theorem Sample.forked_chained : Chained Sample.forked Sample.forkedEnv where
  latest watchSet loaded read := by cases read; rfl
  found watchSet hash projection read := by cases read

theorem sample_foretold_executed (hash : B256) (observedAt : Instant) :
    Foretold Sample.block (.event (Sample.executed hash observedAt)) := by
  rintro event block changes ⟨rfl⟩ ⟨rfl⟩
  rfl

theorem sample_foretold_fallback (hash : B256) (observedAt : Instant) :
    Foretold Sample.block (.event (Sample.fallback hash observedAt)) := by
  rintro event block changes ⟨rfl⟩ ⟨rfl⟩
  rfl

theorem foretold_of_no_delta {chain : B256 → BlockMeta} {input : Input}
    (bare : ∀ event, input = .event event → event.delta = none) : Foretold chain input := by
  intro event block changes taken carried
  rw [bare event taken] at carried
  cases carried

theorem candidate_store_represented_sample :
    ∃ loop, Loop.Reaches (Machine.Allowed (Chained Sample.block) (Numbered Sample.block))
        Sample.start loop ∧
      loop.publisher.store.metadataLen = 2 ∧
      Store.WellFormed Sample.block (fun _ => False) loop.publisher.store := by
  have numbered : Numbered Sample.block Sample.start (.event (Sample.executed 2 1)) :=
    ⟨by decide, sample_foretold_executed 2 1⟩
  have reached : Loop.Reaches (Machine.Allowed (Chained Sample.block) (Numbered Sample.block))
      Sample.start (.settle "publisher_error"
        (Publisher.handle (Sample.env 1 0) (Sample.executed 2 1) Sample.start)) :=
    .single ⟨Sample.env 1 0, .event (Sample.executed 2 1), ⟨sample_chained 1 0, numbered⟩, rfl⟩
  refine ⟨_, reached, by decide +kernel, ?_⟩
  exact (candidate_store_represented (sample_chained 1 0) Sample.started reached
    (by decide +kernel)).1

end Statefeed
