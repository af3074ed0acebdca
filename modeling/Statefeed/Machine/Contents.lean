import Statefeed.Machine.Simulation
import Statefeed.Store.Records

set_option autoImplicit false

namespace Statefeed

open Effect Effect.Op

theorem WatchSet.ext_keys {left right : WatchSet} (generation : left.generation = right.generation)
    (keys : left.keys = right.keys) : left = right := by
  obtain ⟨leftGeneration, leftConfigured⟩ := left
  obtain ⟨rightGeneration, rightConfigured⟩ := right
  have configured (watchSet : WatchSet) : watchSet.configured =
      watchSet.keys.map fun key => { id := key.id, address := key.address, slot := key.slot } := by
    apply List.ext_getElem?
    intro index
    simp only [WatchSet.keys, List.getElem?_map, List.getElem?_mapIdx, Option.map_map]
    cases watchSet.configured[index]? <;> rfl
  have same := configured ⟨leftGeneration, leftConfigured⟩
  rw [keys, ← configured ⟨rightGeneration, rightConfigured⟩] at same
  dsimp only at generation same
  rw [generation, same]

theorem watchSet_of_dictionary {projection : Projection} {expected : WatchSet}
    (accepted : validateProjectionDictionary projection expected = .ok ()) :
    projection.watchSet = expected :=
  WatchSet.ext_keys (Machine.validateProjectionDictionary_ok accepted).1
    (Machine.validateProjectionDictionary_ok accepted).2

namespace Machine

def Phase.Carries (holds : Projection → Prop) : Phase → Prop
  | .placed projection next => holds projection ∧ next.Carries holds
  | .trimming _ next | .retiring _ _ _ next => next.Carries holds
  | .heading projection _ _ => holds projection
  | _ => True

variable (holds : WatchSet → Projection → Prop)
  (sound : WatchSet → BlockMeta → BlockChanges → Prop)

structure Contents (p : Publisher) : Prop where
  canonical : holds p.active p.shared.published.canonical
  cached : ∀ hash projection, p.store.projectionAt hash = some projection →
    projection.block.hash = hash ∧ holds p.active projection
  deferred : ∀ hash delta, p.store.deltaAt hash = some delta → sound p.active delta.1 delta.2

def Filled (state : State) : Prop :=
  Contents holds sound state.publisher ∧ state.phase.Carries (holds state.publisher.active)

structure Spreads (world : Env → Prop) (offers : Publisher → Input → Prop) : Prop where
  typed : ∀ watchSet projection, holds watchSet projection → projection.watchSet = watchSet
  latest : ∀ env, world env → ∀ watchSet loaded, env.loadLatest watchSet = some loaded →
    loaded.projection.watchSet = watchSet → holds watchSet loaded.projection
  found : ∀ env, world env → ∀ watchSet hash projection,
    env.loadAt watchSet hash = some projection → projection.watchSet = watchSet →
    holds watchSet projection
  delta : ∀ p event block changes, offers p (.event event) →
    event.delta = some (block, changes) → event.generation = p.active.generation →
    sound p.active block changes
  applies : ∀ watchSet parent block changes applied, holds watchSet parent →
    parent.block.hash = block.parentHash → sound watchSet block changes →
    applyChanges changes parent.values (List.replicate (bitmapLen watchSet.len) 0) = .ok applied →
    holds watchSet (Publisher.assembled watchSet block applied)

structure Feeds (world : Env → Prop) (offers : Publisher → Input → Prop) : Prop where
  typed : ∀ watchSet projection, holds watchSet projection → projection.watchSet = watchSet
  loads : ∀ env p watchSet loaded, world env → Loads env p watchSet loaded →
    holds watchSet loaded.projection
  delta : ∀ p event block changes, offers p (.event event) →
    event.delta = some (block, changes) → event.generation = p.active.generation →
    sound p.active block changes
  assembles : ∀ env p stage block changes inherited applied, world env →
    Contents holds sound p → sound p.active block changes → Inherits env p block stage inherited →
    applyChanges changes inherited (List.replicate (bitmapLen p.active.len) 0) = .ok applied →
    holds p.active (Publisher.assembled p.active block applied)
  adopts : ∀ env p generation hash projection, world env → Contents holds sound p →
    Publisher.canonicalProjection env p generation hash = .ok projection →
    validateProjectionDictionary projection p.active = .ok () →
    validateProjectionShape projection = .ok () → holds p.active projection

variable {holds sound} {world : Env → Prop} {offers : Publisher → Input → Prop} {p : Publisher}

theorem Spreads.narrow {world' : Env → Prop} (spreads : Spreads holds sound world offers)
    (lawful : ∀ env, world' env → world env) : Spreads holds sound world' offers where
  typed := spreads.typed
  latest env allowed := spreads.latest env (lawful env allowed)
  found env allowed := spreads.found env (lawful env allowed)
  delta := spreads.delta
  applies := spreads.applies

theorem Contents.shrink {store : Store} (contents : Contents holds sound p)
    (shrinks : Store.Shrinks p.store store) : Contents holds sound (p.withStore store) where
  canonical := contents.canonical
  cached hash projection found := contents.cached hash projection (shrinks.projections _ _ found)
  deferred hash delta found := contents.deferred hash delta (shrinks.deltas _ _ found)

theorem Contents.sendPlain (contents : Contents holds sound p) (env : Env)
    (generation : Generation) (event : Wire.Event) :
    Contents holds sound (p.send env generation event none) :=
  ⟨contents.canonical, contents.cached, contents.deferred⟩

theorem Contents.sendState (contents : Contents holds sound p) (env : Env)
    (generation : Generation) (event : Wire.Event) {projection : Projection}
    (forkchoice : Option ForkchoiceMeta) (recovering : Bool)
    (watchSet : projection.watchSet = p.active) (good : holds p.active projection) :
    Contents holds sound (p.send env generation event (some (projection, forkchoice, recovering))) := by
  have active : (p.send env generation event (some (projection, forkchoice, recovering))).active =
      p.active := watchSet
  refine ⟨?_, ?_, ?_⟩
  · rw [active]
    exact good
  · rw [active]
    exact contents.cached
  · rw [active]
    exact contents.deferred

theorem Contents.place {now : Instant} {projection : Projection}
    {stage : CandidateStage} {tracked : Bool} {firstSequence : Nat}
    (contents : Contents holds sound p) (good : holds p.active projection) :
    Contents holds sound
      (p.withStore (p.store.placeCandidate now projection stage tracked firstSequence)) := by
  refine ⟨contents.canonical, fun hash other found => ?_, fun hash delta found => ?_⟩
  · change ((p.store.placeCandidate _ _ _ _ _).candidates.get hash).bind _ = _ at found
    rw [Store.candidates_placeCandidate, Table.get_insert] at found
    split at found
    · next same =>
      change (p.store.placedEntry _ _ _ _ _).projection = _ at found
      rw [Store.placedEntry_projection] at found
      cases found
      exact ⟨same.symm, good⟩
    · exact contents.cached hash other found
  · change ((p.store.placeCandidate _ _ _ _ _).deferredExecuted.get hash).map _ = _ at found
    rw [Store.deferredExecuted_placeCandidate, Table.get_erase] at found
    split at found
    · cases found
    · exact contents.deferred hash delta found

theorem Contents.placeDeferred {now : Instant} {block : BlockMeta} {changes : BlockChanges}
    (contents : Contents holds sound p) (good : sound p.active block changes) :
    Contents holds sound (p.withStore (p.store.placeDeferred now block changes)) := by
  refine ⟨contents.canonical, fun hash other found => ?_, fun hash delta found => ?_⟩
  · change ((p.store.placeDeferred _ _ _).candidates.get hash).bind _ = _ at found
    rw [Store.candidates_placeDeferred] at found
    exact contents.cached hash other found
  · change ((p.store.placeDeferred _ _ _).deferredExecuted.get hash).map _ = _ at found
    rw [Store.deferredExecuted_placeDeferred, Table.get_insert] at found
    split at found
    · cases found
      exact good
    · exact contents.deferred hash delta found

theorem thins_commitCanonical (now : Instant) (hash : B256) (sequence : Nat) (store : Store) :
    Store.Thins store (Publisher.commitCanonical now hash sequence store) := by
  have moved : Store.Thins store { store with canonicalHash := hash } := Store.thins_of_eq rfl rfl
  refine (moved.trans (Store.thins_scheduleExpiry now store.canonicalHash _)).trans ?_
  refine Store.thins_modify hash _ fun entry => ?_
  split <;> exact ⟨rfl, rfl, rfl, .inl rfl⟩

theorem thins_afterFence (view : ForkchoiceMeta) (store : Store) :
    Store.Thins store (afterFence view store).2 := by
  obtain ⟨finalized, sweep, same⟩ := afterFence_store view store
  rw [same]
  exact Store.thins_of_eq rfl rfl

theorem carries_afterFence (good : Projection → Prop) (view : ForkchoiceMeta) (store : Store) :
    (afterFence view store).1.Carries good := by
  unfold afterFence
  split
  · split <;> trivial
  · trivial

theorem contents_reset {env : Env} {loaded : CanonicalSnapshot} {shared : Shared}
    {watchSet : WatchSet} (good : holds shared.published.canonical.watchSet loaded.projection)
    (canonical : shared.published.canonical = loaded.projection) :
    Contents holds sound
      { p.installSnapshot env loaded with shared := shared, activeWatchSet := watchSet } := by
  refine ⟨?_, fun hash other found => ?_, fun hash delta found => ?_⟩
  · change holds shared.published.canonical.watchSet shared.published.canonical
    rw [canonical] at good ⊢
    exact good
  · change (((∅ : Table B256 CandidateEntry).insert _ _).get hash).bind _ = _ at found
    rw [Table.get_insert] at found
    split at found
    · next same =>
      cases found
      exact ⟨same.symm, good⟩
    · cases found
  · cases found

theorem contents_initial (env : Env) (options : Publisher.ServiceOptions) (watchSet : WatchSet)
    {loaded : CanonicalSnapshot} (good : holds loaded.projection.watchSet loaded.projection) :
    Contents holds sound (Publisher.initial env options watchSet loaded) := by
  refine ⟨good, fun hash projection found => ?_, fun hash delta found => ?_⟩
  · change (((∅ : Table B256 CandidateEntry).insert _ _).get hash).bind _ = _ at found
    rw [Table.get_insert] at found
    split at found
    · next same =>
      cases found
      exact ⟨same.symm, good⟩
    · cases found
  · cases found

theorem Feeds.soundDelta {stage : CandidateStage} {block : BlockMeta} {changes : BlockChanges}
    (feeds : Feeds holds sound world offers) (contents : Contents holds sound p)
    (delta : Delta offers p stage block changes) : sound p.active block changes := by
  cases delta with
  | executed admitted _ current => exact feeds.delta p _ _ _ admitted rfl current
  | fallback admitted _ current => exact feeds.delta p _ _ _ admitted rfl current
  | deferred _ _ stored =>
    exact contents.deferred _ _ (by rw [Store.deltaAt, stored]; rfl)

theorem inheritedValues_ok {watchSet : WatchSet} {generation : Generation} {block : BlockMeta}
    {parent : Projection} {values : Bytes}
    (inherited : Publisher.inheritedValues watchSet generation block parent = .ok values) :
    values = parent.values ∧ block.number = parent.block.number + 1 := by
  unfold Publisher.inheritedValues at inherited
  split_ifs at inherited with overflow ancestry mismatch
  cases inherited
  exact ⟨rfl, not_not.mp ancestry⟩

theorem loadedValues_ok {watchSet : WatchSet} {block : BlockMeta} {parent : Projection}
    {values : Bytes} (inherited : Publisher.loadedValues watchSet block parent = .ok values) :
    values = parent.values ∧ parent.watchSet = watchSet ∧
      (parent.block.hash = block.parentHash ∧ parent.block.number + 1 = block.number) ∧
      validateProjectionShape parent = .ok () := by
  unfold Publisher.loadedValues at inherited
  cases dictionary : validateProjectionDictionary parent watchSet with
  | error _ => rw [dictionary] at inherited; cases inherited
  | ok _ =>
    rw [dictionary] at inherited
    change (if _ then _ else _) = _ at inherited
    split_ifs at inherited with overflow mismatch
    cases shape : validateProjectionShape parent with
    | error _ => rw [shape] at inherited; cases inherited
    | ok _ =>
      rw [shape] at inherited
      cases inherited
      rw [not_or, not_not, not_not] at mismatch
      exact ⟨rfl, watchSet_of_dictionary dictionary, mismatch, rfl⟩

theorem Inherits.parent {env : Env} {block : BlockMeta} {stage : CandidateStage} {values : Bytes}
    (spreads : Spreads holds sound world offers) (lawful : world env)
    (contents : Contents holds sound p) (inherits : Inherits env p block stage values) :
    ∃ parent, holds p.active parent ∧ parent.block.hash = block.parentHash ∧
      values = parent.values := by
  cases inherits with
  | cached stored inherited =>
    obtain ⟨keyed, good⟩ := contents.cached _ _ stored
    exact ⟨_, good, keyed, (inheritedValues_ok inherited).1⟩
  | loaded _ read inherited =>
    obtain ⟨same, watchSet, ⟨keyed, _⟩, _⟩ := loadedValues_ok inherited
    exact ⟨_, spreads.found env lawful _ _ _ read watchSet, keyed, same⟩

theorem canonicalProjection_holds {env : Env} {generation : Generation} {hash : B256}
    {projection : Projection} (spreads : Spreads holds sound world offers) (lawful : world env)
    (contents : Contents holds sound p)
    (found : Publisher.canonicalProjection env p generation hash = .ok projection)
    (watchSet : projection.watchSet = p.active) : holds p.active projection := by
  unfold Publisher.canonicalProjection at found
  dsimp only at found
  split at found
  · next cached =>
    cases found
    split_ifs at cached
    exact (contents.cached _ _ cached).2
  · split at found
    · next read =>
      cases found
      exact spreads.found env lawful _ _ _ read watchSet
    · cases found

theorem Spreads.feeds (spreads : Spreads holds sound world offers) :
    Feeds holds sound world offers where
  typed := spreads.typed
  loads env _ _ _ lawful loads :=
    spreads.latest env lawful _ _ loads.read (watchSet_of_dictionary loads.dictionary)
  delta := spreads.delta
  assembles env p stage block changes inherited applied lawful contents good inherits changed := by
    obtain ⟨parent, holding, keyed, rfl⟩ := inherits.parent spreads lawful contents
    exact spreads.applies _ _ _ _ _ holding keyed good changed
  adopts env p generation hash projection lawful contents found dictionary _ :=
    canonicalProjection_holds spreads lawful contents found (watchSet_of_dictionary dictionary)

theorem Delta.isSound {stage : CandidateStage} {block : BlockMeta} {changes : BlockChanges}
    (spreads : Spreads holds sound world offers) (contents : Contents holds sound p)
    (delta : Delta offers p stage block changes) : sound p.active block changes :=
  spreads.feeds.soundDelta contents delta

theorem filled_of_feeds (feeds : Feeds holds sound world offers) {state after : State}
    (filled : Filled holds sound state) (step : Step world offers state after) :
    Filled holds sound after := by
  obtain ⟨contents, carries⟩ := filled
  cases step with
  | promote => exact ⟨contents.shrink (Store.shrinks_modify _ _ fun _ => rfl), trivial⟩
  | validate =>
    exact ⟨(contents.sendPlain _ _ _).shrink (Store.shrinks_modify _ _ fun _ => rfl), trivial⟩
  | @announce p env stage block changes inherited applied projection lawful delta fresh inherits
      changed assembled =>
    have child := feeds.assembles _ _ _ _ _ _ _ lawful contents (feeds.soundDelta contents delta)
      inherits changed
    rw [← assembled] at child
    exact ⟨(contents.sendPlain _ _ _).place child, child, trivial⟩
  | defer _ delta => exact ⟨contents.placeDeferred (feeds.soundDelta contents delta), trivial⟩
  | trimProjections trimmed =>
    have thins := Store.thins_of_projections trimmed
    exact ⟨contents.shrink thins.shrinks, carries.2⟩
  | trimProjectionsFails trimmed =>
    have thins := Store.thins_of_projections trimmed
    exact ⟨contents.shrink thins.shrinks, trivial⟩
  | trimMetadata trimmed =>
    have thins := Store.thins_of_metadata trimmed
    exact ⟨contents.shrink thins.shrinks, carries⟩
  | trimMetadataFails trimmed =>
    have thins := Store.thins_of_metadata trimmed
    exact ⟨contents.shrink thins.shrinks, trivial⟩
  | retire => exact ⟨contents.sendPlain _ _ _, carries⟩
  | retired => exact ⟨contents, carries⟩
  | reject =>
    exact ⟨(contents.sendPlain _ _ _).shrink (Store.thins_removeCandidateTree _ _ _).shrinks, trivial⟩
  | @adopt p env _ _ _ projection _ lawful _ _ _ _ found dictionary _ shape =>
    have good := feeds.adopts _ _ _ _ _ lawful contents found dictionary shape
    exact ⟨contents.place good, good, good⟩
  | head =>
    exact ⟨(contents.sendState _ _ _ none false (feeds.typed _ _ carries) carries).shrink
      (thins_commitCanonical _ _ _ _).shrinks, trivial⟩
  | reaffirm => exact ⟨contents, trivial⟩
  | fence =>
    exact ⟨(contents.sendState _ _ _ (some _) false rfl contents.canonical).shrink
      (thins_afterFence _ _).shrinks, carries_afterFence _ _ _⟩
  | sweep => exact ⟨contents.shrink (Store.thins_processFinalityBudget _ _).shrinks, trivial⟩
  | maintain => exact ⟨contents.shrink (Store.thins_processFinalityBudget _ _).shrinks, trivial⟩
  | expire => exact ⟨contents.shrink (Store.thins_removeEach _ _ _).shrinks, trivial⟩
  | gap => exact ⟨⟨contents.canonical, contents.cached, contents.deferred⟩, trivial⟩
  | retryGap => exact ⟨⟨contents.canonical, contents.cached, contents.deferred⟩, trivial⟩
  | retryBurns => exact ⟨⟨contents.canonical, contents.cached, contents.deferred⟩, trivial⟩
  | retryAnchor => exact ⟨contents, trivial⟩
  | @anchor p env _ loaded lawful loads =>
    have good := feeds.loads _ _ _ _ lawful loads
    rw [← watchSet_of_dictionary loads.dictionary] at good
    exact ⟨contents_reset good rfl, trivial⟩
  | anchorRefused => exact ⟨contents, trivial⟩
  | anchorFails => exact ⟨contents, trivial⟩
  | @activate p env _ loaded lawful _ _ loads =>
    have good := feeds.loads _ _ _ _ lawful loads
    rw [← watchSet_of_dictionary loads.dictionary] at good
    exact ⟨contents_reset good rfl, trivial⟩
  | refuse => exact ⟨contents, trivial⟩
  | burn => exact ⟨⟨contents.canonical, contents.cached, contents.deferred⟩, trivial⟩
  | recover => exact ⟨contents, trivial⟩
  | loss => exact ⟨contents, trivial⟩

theorem filled_step (spreads : Spreads holds sound world offers) {state after : State}
    (filled : Filled holds sound state) (step : Step world offers state after) :
    Filled holds sound after :=
  filled_of_feeds spreads.feeds filled step

end Machine

end Statefeed
