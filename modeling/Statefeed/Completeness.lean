import Statefeed.Finality
import Statefeed.Store.Examined
import Statefeed.Stream.Refinement

set_option autoImplicit false

namespace Statefeed

def Compatible (chain : B256 → BlockMeta) (finalized : Option CheckpointMeta) (head : B256) : Prop :=
  ∀ checkpoint, finalized = some checkpoint → ¬ Store.Misplaced chain checkpoint head

def AppliedForkchoiceMeta.finalizedAfter (chain : B256 → BlockMeta) (last : Option CheckpointMeta)
    (applied : AppliedForkchoiceMeta) : Option CheckpointMeta :=
  (applied.resolve (chain applied.headHash).number).finalized.or last

/-- Events are about blocks of `chain`, and each applied head is compatible with finality. -/
structure Agrees (chain : B256 → BlockMeta) (p : Publisher) (input : Input) : Prop where
  foretold : Foretold chain input
  compatible : ∀ observedAt generation applied,
    input = .event (.forkchoiceApplied observedAt generation applied) →
    p.snapshotAnchoredAt < observedAt →
    Compatible chain (applied.finalizedAfter chain p.store.lastFinalized) applied.headHash

/-- The snapshot source answers from `chain`, with heads compatible with finality. -/
structure Anchors (chain : B256 → BlockMeta) (env : Env) : Prop where
  chained : Chained chain env
  compatible : ∀ watchSet loaded, env.loadLatest watchSet = some loaded →
    Compatible chain loaded.forkchoice.finalized loaded.projection.block.hash

namespace Machine

def Phase.Leveled (chain : B256 → BlockMeta) (last : Option CheckpointMeta) (canonical : B256) :
    Phase → Prop
  | .placed _ next | .trimming _ next | .retiring _ _ _ next => next.Leveled chain last canonical
  | .heading projection _ applied => Compatible chain last canonical ∧
      projection.block.hash = applied.headHash ∧
      Compatible chain (applied.finalizedAfter chain last) applied.headHash
  | .fencing applied => canonical = applied.headHash →
      Compatible chain (applied.finalizedAfter chain last) canonical
  | .anchoring _ | .failed | .recovering _ => True
  | _ => Compatible chain last canonical

structure Complete (chain : B256 → BlockMeta) (phase : Phase) (p : Publisher) : Prop where
  examined : Store.Examined chain p.store
  leveled : phase.Leveled chain p.store.lastFinalized p.store.canonicalHash

variable {chain : B256 → BlockMeta} {phase next : Phase} {p q : Publisher}

theorem Complete.subside {store : Store} (complete : Complete chain phase p)
    (subsides : Store.Subsides (fun _ => True) p.store store)
    (leveled : next.Leveled chain p.store.lastFinalized p.store.canonicalHash) :
    Complete chain next (q.withStore store) := by
  have last : store.lastFinalized = p.store.lastFinalized :=
    congrArg Store.Settings.lastFinalized subsides.settings
  refine ⟨complete.examined.subside subsides, ?_⟩
  change next.Leveled chain store.lastFinalized store.canonicalHash
  rw [last, Store.canonicalHash_of_settings subsides.settings]
  exact leveled

theorem Complete.place {store : Store} {block : BlockMeta} {incarnation : Nat}
    (complete : Complete chain phase p) (known : block = chain block.hash)
    (places : Store.Places p.store store block incarnation)
    (leveled : next.Leveled chain p.store.lastFinalized p.store.canonicalHash) :
    Complete chain next (q.withStore store) := by
  have last : store.lastFinalized = p.store.lastFinalized :=
    congrArg Store.Settings.lastFinalized places.settings
  refine ⟨complete.examined.place known places, ?_⟩
  change next.Leveled chain store.lastFinalized store.canonicalHash
  rw [last, Store.canonicalHash_of_settings places.settings]
  exact leveled

theorem Complete.sweep (complete : Complete chain phase p) (budget : Nat)
    (leveled : next.Leveled chain p.store.lastFinalized p.store.canonicalHash) :
    Complete chain next (p.withStore (p.store.processFinalityBudget budget).2) := by
  have settings := Store.settings_processFinalityBudget budget p.store
  have last : (p.store.processFinalityBudget budget).2.lastFinalized = p.store.lastFinalized :=
    congrArg Store.Settings.lastFinalized settings
  refine ⟨complete.examined.processFinalityBudget budget, ?_⟩
  change next.Leveled chain (p.store.processFinalityBudget budget).2.lastFinalized
    (p.store.processFinalityBudget budget).2.canonicalHash
  rw [last, Store.canonicalHash_of_settings settings]
  exact leveled

theorem Complete.crown {projection : Projection} {changedBitmap : Bytes}
    {applied : AppliedForkchoiceMeta}
    (complete : Complete chain (.heading projection changedBitmap applied) p) (now : Instant)
    (sequence : Nat) :
    Complete chain (.fencing applied) (q.withStore
      (Publisher.commitCanonical now projection.block.hash sequence p.store)) := by
  obtain ⟨placed, named, compatible⟩ := complete.leveled
  have crowned := complete.examined.crown projection.block.hash placed
  have expiring : Store.Subsides (fun _ => True)
      { p.store with canonicalHash := projection.block.hash } _ :=
    Store.subsides_scheduleExpiry now p.store.canonicalHash _
  have committed := expiring.trans (Store.subsides_modify _ projection.block.hash
    (fun entry => if entry.firstSequence = 0 then { entry with firstSequence := sequence } else entry)
    fun entry => by split <;> exact ⟨rfl, rfl⟩)
  have last : (Publisher.commitCanonical now projection.block.hash sequence p.store).lastFinalized =
      p.store.lastFinalized := congrArg Store.Settings.lastFinalized committed.settings
  have head : (Publisher.commitCanonical now projection.block.hash sequence p.store).canonicalHash =
      projection.block.hash := Store.canonicalHash_of_settings committed.settings
  refine ⟨crowned.subside committed, ?_⟩
  intro _
  change Compatible chain (applied.finalizedAfter chain
    (Publisher.commitCanonical now projection.block.hash sequence p.store).lastFinalized)
    (Publisher.commitCanonical now projection.block.hash sequence p.store).canonicalHash
  rw [last, head, named]
  exact compatible

theorem Complete.fence {applied : AppliedForkchoiceMeta} {view : ForkchoiceMeta}
    (complete : Complete chain (.fencing applied) p)
    (same : p.store.canonicalHash = applied.headHash)
    (resolved : view = applied.resolve (chain applied.headHash).number) :
    Complete chain (afterFence view p.store).1 (q.withStore (afterFence view p.store).2) := by
  have compatible := complete.leveled same
  unfold AppliedForkchoiceMeta.finalizedAfter at compatible
  rw [← resolved] at compatible
  unfold afterFence
  cases newest : view.finalized with
  | none =>
    rw [newest] at compatible
    exact ⟨complete.examined, compatible⟩
  | some finalized =>
    rw [newest] at compatible
    dsimp only
    by_cases changed : some finalized ≠ p.store.lastFinalized
    · rw [if_pos changed]
      exact ⟨complete.examined.beginFinalitySweep finalized, compatible⟩
    · rw [if_neg changed]
      refine ⟨complete.examined, ?_⟩
      change Compatible chain p.store.lastFinalized p.store.canonicalHash
      rw [← not_not.mp changed]
      exact compatible

variable {offers : Publisher → Input → Prop}

theorem spreads_anchors (foretold : ∀ p input, offers p input → Foretold chain input) :
    Spreads (fun watchSet projection => projection.watchSet = watchSet ∧
        projection.block = chain projection.block.hash)
      (fun _ block _ => block = chain block.hash) (Anchors chain) offers :=
  (spreads_foretold foretold).narrow fun _ anchors => anchors.chained

theorem complete_reset {now : Instant} {loaded : CanonicalSnapshot}
    (known : loaded.projection.block = chain loaded.projection.block.hash)
    (compatible : Compatible chain loaded.forkchoice.finalized loaded.projection.block.hash)
    (reset : q.store = p.store.resetCandidates now loaded.projection loaded.forkchoice) :
    Complete chain .idle q := by
  refine ⟨?_, ?_⟩
  · rw [reset]
    exact Store.examined_anchored rfl ⟨known, rfl⟩ rfl rfl rfl rfl
  · rw [reset]
    exact compatible

theorem complete_step {state later : State} (step : Step (Anchors chain) offers state later)
    (agrees : ∀ p input, offers p input → Agrees chain p input)
    (identified : Identified chain state)
    (crowned : state.publisher.store.canonicalHash =
      state.publisher.shared.published.canonical.block.hash)
    (complete : Complete chain state.phase state.publisher) :
    Complete chain later.phase later.publisher := by
  have spreads := spreads_anchors fun p input offered => (agrees p input offered).foretold
  cases step with
  | promote =>
    exact complete.subside (Store.subsides_modify _ _ _ fun _ => ⟨rfl, rfl⟩) complete.leveled
  | validate =>
    exact complete.subside (Store.subsides_modify _ _ _ fun _ => ⟨rfl, rfl⟩) complete.leveled
  | @announce p env stage block changes inherited applied projection lawful delta fresh inherits
      changed assembled =>
    have known := delta.isSound spreads identified.1
    have same : projection.block = block := by rw [assembled]; rfl
    rw [← same] at known
    exact complete.place known (Store.places_placeCandidate _ _ _ _ _) complete.leveled
  | defer _ delta _ unknown =>
    exact complete.place (delta.isSound spreads identified.1)
      (Store.places_placeDeferred _ _ _ unknown) complete.leveled
  | trimProjections trimmed =>
    exact complete.subside (Store.subsides_of_projections trimmed) complete.leveled
  | trimProjectionsFails trimmed =>
    exact complete.subside (Store.subsides_of_projections trimmed) trivial
  | trimMetadata trimmed =>
    exact complete.subside (Store.subsides_of_metadata trimmed) complete.leveled
  | trimMetadataFails trimmed =>
    exact complete.subside (Store.subsides_of_metadata trimmed) trivial
  | retire => exact ⟨complete.examined, complete.leveled⟩
  | retired => exact ⟨complete.examined, complete.leveled⟩
  | reject =>
    exact complete.subside
      (Store.subsides_removeCandidateTree _ _ trivial fun _ _ _ _ => trivial) complete.leveled
  | adopt lawful admitted later _ _ found dictionary identity =>
    have good := canonicalProjection_holds spreads lawful identified.1 found
      (watchSet_of_dictionary dictionary)
    have compatible := (agrees _ _ admitted).compatible _ _ _ rfl later
    exact complete.place good.2 (Store.places_placeCandidate _ _ _ _ _)
      ⟨complete.leveled, identity, compatible⟩
  | head => exact complete.crown _ _
  | reaffirm admitted later =>
    refine ⟨complete.examined, fun same => ?_⟩
    rw [same]
    exact (agrees _ _ admitted).compatible _ _ _ rfl later
  | @fence p env applied view _ same resolved =>
    have known : p.shared.published.canonical.block = chain applied.headHash := by
      rw [← same]
      exact identified.1.canonical.2
    refine complete.fence (crowned.trans same) ?_
    rw [resolved, known]
  | sweep => exact complete.sweep _ complete.leveled
  | maintain => exact complete.sweep _ complete.leveled
  | expire => exact complete.subside (Store.subsides_removeEach _ _ _) complete.leveled
  | anchor lawful loads =>
    exact complete_reset (lawful.chained.latest _ _ loads.read)
      (lawful.compatible _ _ loads.read) rfl
  | activate lawful _ _ loads =>
    exact complete_reset (lawful.chained.latest _ _ loads.read)
      (lawful.compatible _ _ loads.read) rfl
  | _ => exact ⟨complete.examined, trivial⟩

theorem complete_initial {env : Env} {options : Publisher.ServiceOptions} {watchSet : WatchSet}
    {start : Publisher} (anchors : Anchors chain env)
    (started : Publisher.startService env options watchSet = some start) :
    Complete chain .idle start := by
  obtain ⟨loaded, starts, rfl⟩ := Publisher.startService_eq_some.mp started
  refine ⟨?_, anchors.compatible _ _ starts.read⟩
  exact Store.examined_anchored rfl ⟨anchors.chained.latest _ _ starts.read, rfl⟩ rfl rfl rfl rfl

end Machine

def Store.Retraces (store : Store) : B256 → B256 → Prop :=
  Relation.ReflTransGen fun child parent =>
    ∃ block, store.blockMeta child = some block ∧ parent = block.parentHash ∧
      (store.blockMeta parent).isSome

/-- When no sweep is under way, no record but the canonical one is another block of the finalized
height. Between operations, retained parents that lead to this height lead to the finalized block. -/
theorem finality_retirement_complete {chain : B256 → BlockMeta} {env : Env}
    {options : Publisher.ServiceOptions} {watchSet : WatchSet} {start : Publisher} {loop : Loop}
    {finalized : CheckpointMeta} (anchors : Anchors chain env)
    (started : Publisher.startService env options watchSet = some start)
    (reached : Loop.Reaches (Machine.Allowed (Anchors chain) (Agrees chain)) start loop)
    (last : loop.publisher.store.lastFinalized = some finalized)
    (swept : loop.publisher.store.finalitySweep = none) :
    let store := loop.publisher.store
    (∀ hash block, store.blockMeta hash = some block → hash ≠ store.canonicalHash →
      block.number = finalized.number → hash = finalized.hash) ∧
    (loop.control = .idle → ∀ hash above block, store.Retraces hash above →
      store.blockMeta above = some block → block.number = finalized.number →
      store.Retraces hash finalized.hash) := by
  have invariant := @Machine.reaches_invariant _ _ (fun state =>
      (Machine.Identified chain state ∧
        Machine.Streaming options.bootId (Monitor.initial start) state) ∧
      Machine.Complete chain state.phase state.publisher) start loop reached
    ⟨⟨(Machine.stored_initial anchors.chained started).1, Machine.streaming_initial started⟩,
      Machine.complete_initial anchors started⟩ ?_
  · obtain ⟨_, complete⟩ := invariant
    have examined : Store.Examined chain loop.publisher.store := complete.examined
    have known : ∀ hash block, loop.publisher.store.blockMeta hash = some block →
        block.number = (chain hash).number ∧
          ∃ live, loop.publisher.store.record hash = some live := by
      intro hash block stored
      rw [Store.blockMeta_eq, Option.map_eq_some_iff] at stored
      obtain ⟨live, found, rfl⟩ := stored
      exact ⟨by rw [(examined.known hash live found).1], live, found⟩
    have others : ∀ hash block, loop.publisher.store.blockMeta hash = some block →
        hash ≠ loop.publisher.store.canonicalHash → block.number = finalized.number →
        hash = finalized.hash := by
      intro hash block stored foreign level
      obtain ⟨same, live, found⟩ := known hash block stored
      by_contra differs
      obtain ⟨sweep, pending, _⟩ := examined.awaited finalized hash live last found foreign
        ⟨same.symm.trans level, differs⟩
      rw [swept] at pending
      cases pending
    refine ⟨others, fun idle hash above block path stored level => ?_⟩
    suffices same : above = finalized.hash by
      rw [← same]
      exact path
    by_cases foreign : above = loop.publisher.store.canonicalHash
    · have leveled := complete.leveled
      change (Machine.Phase.ofControl loop.control).Leveled _ _ _ at leveled
      rw [idle] at leveled
      have compatible : ¬ Store.Misplaced chain finalized loop.publisher.store.canonicalHash :=
        leveled finalized last
      by_contra differs
      rw [← foreign] at compatible
      exact compatible ⟨(known above block stored).1.symm.trans level, differs⟩
    · exact others above block stored foreign level
  · rintro state later ⟨⟨identified, streaming⟩, complete⟩ step
    obtain ⟨monitor, stream, tracks⟩ := streaming
    refine ⟨⟨Machine.filled_step (Machine.spreads_anchors fun _ _ offered => offered.foretold)
      identified step, ?_⟩, ?_⟩
    · exact Machine.streaming_step (Monitor.coherent_initial started) ⟨monitor, stream, tracks⟩ step
    · exact Machine.complete_step step (fun _ _ => id) identified tracks.canonical complete

namespace Sample

def finalizedSibling : List Input :=
  [.event (executedSibling 2), .event (executedSibling 3),
    .event (.forkchoiceApplied 1 1 { headHash := 2, safe := none, finalized := some ⟨2, 2⟩ })]

theorem forked_anchors : Anchors forked forkedEnv where
  chained := forked_chained
  compatible watchSet loaded read := by
    cases read
    exact nofun

theorem agrees_finalizedSibling (p : Publisher) (input : Input)
    (member : input ∈ finalizedSibling) :
    Machine.Allowed (Anchors forked) (Agrees forked) p forkedEnv input := by
  refine ⟨forked_anchors, ?_⟩
  have executed (hash : B256) (known : sibling hash = forked hash) :
      Agrees forked p (.event (executedSibling hash)) := by
    refine ⟨?_, nofun⟩
    rintro event block changes ⟨rfl⟩ ⟨rfl⟩
    exact known
  simp only [finalizedSibling, List.mem_cons, List.not_mem_nil, or_false] at member
  rcases member with rfl | rfl | rfl
  · exact executed 2 rfl
  · exact executed 3 rfl
  · refine ⟨foretold_of_no_delta (by rintro event ⟨rfl⟩; rfl), ?_⟩
    rintro observedAt generation applied ⟨rfl⟩ _ checkpoint ⟨rfl⟩ ⟨_, differs⟩
    exact differs rfl

theorem sibling_started : Publisher.startService forkedEnv options watchSet = some start := by
  refine Publisher.startService_eq_some.mpr ⟨loaded 1, ?_, rfl⟩
  exact ⟨by decide, by decide, rfl, by decide, by decide, by decide +kernel⟩

end Sample

theorem finality_retirement_complete_sample :
    ∃ loop, Loop.Reaches (Machine.Allowed (Anchors Sample.forked) (Agrees Sample.forked))
        Sample.start loop ∧ loop.publisher.store.lastFinalized = some ⟨2, 2⟩ ∧
      (∀ hash block, loop.publisher.store.blockMeta hash = some block →
        hash ≠ loop.publisher.store.canonicalHash → block.number = 2 → hash = 2) ∧
      loop.publisher.store.Retraces 2 2 := by
  obtain ⟨loop, reached, last, swept, idle, level⟩ := Sample.exists_of_run Sample.start
    (fun loop => loop.publisher.store.lastFinalized = some ⟨2, 2⟩ ∧
      loop.publisher.store.finalitySweep.isNone = true ∧ loop.control = .idle ∧
      (loop.publisher.store.blockMeta 2).any (·.number = 2) = true)
    Sample.agrees_finalizedSibling (by decide +kernel)
  have complete := finality_retirement_complete Sample.forked_anchors Sample.sibling_started reached
    last (Option.isNone_iff_eq_none.mp swept)
  obtain ⟨block, stored, number⟩ := (Option.any_eq_true _ _).mp level
  exact ⟨loop, reached, last, complete.1,
    complete.2 idle 2 2 block .refl stored (of_decide_eq_true number)⟩

end Statefeed
