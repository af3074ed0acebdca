import Statefeed.FrameSize
import Statefeed.Machine.Representation
import Statefeed.Store.Eviction

set_option autoImplicit false

namespace Statefeed

open Effect Effect.Op

namespace Shared

def retirement (reason : Wire.RetirementReason) (batch : List B256) : Wire.Event :=
  .candidatesRetired { blockHashes := batch.map B256.toVec, reason := reason.code }

/-- Every batch that `publish_retired` cuts encodes. -/
def RetirementsEncode (env : Env) (generation : Generation) (shared : Shared) : Prop :=
  ∀ sequence reason batch, batch ≠ [] → batch.length ≤ shared.batchSize →
    ∃ frame, Wire.encodeFrame (shared.envelope env sequence generation (retirement reason batch))
      shared.maxFrameBytes = .ok frame

/-- Frames were added that carry these events and no handshake state. -/
structure Announces (before : Shared) (events : List Wire.Event) (after : Shared) : Prop where
  frames : ∃ added, after.frames = before.frames ++ added ∧
    added.map (·.envelope.event) = events.map some
  published : after.published = before.published
  boot : after.bootId = before.bootId
  limit : after.maxFrameBytes = before.maxFrameBytes

theorem Announces.trans {first second third : Shared} {earlier later : List Wire.Event}
    (left : Announces first earlier second) (right : Announces second later third) :
    Announces first (earlier ++ later) third := by
  obtain ⟨added, frames, events⟩ := left.frames
  obtain ⟨more, moreFrames, moreEvents⟩ := right.frames
  refine ⟨⟨added ++ more, ?_, ?_⟩, right.published.trans left.published,
    right.boot.trans left.boot, right.limit.trans left.limit⟩
  · rw [moreFrames, frames, List.append_assoc]
  · rw [List.map_append, List.map_append, events, moreEvents]

theorem RetirementsEncode.announces {env : Env} {generation : Generation} {before after : Shared}
    {events : List Wire.Event} (encode : before.RetirementsEncode env generation)
    (announces : Announces before events after) : after.RetirementsEncode env generation := by
  intro sequence reason batch nonempty fits
  unfold batchSize at fits
  rw [announces.limit] at fits ⊢
  have encodes := encode sequence reason batch nonempty fits
  simpa only [envelope, announces.boot] using encodes

theorem publishRetired_announces {env : Env} {generation : Generation} {shared : Shared}
    (encode : shared.RetirementsEncode env generation) (hashes : List B256)
    (reason : Wire.RetirementReason) :
    (publishRetired env generation hashes reason).Ensures shared
      (fun _ after => Announces shared
        ((Chunks.chunks shared.batchSize hashes).map (retirement reason)) after)
      (fun _ _ => False) := by
  have cut (batch : List B256) (member : batch ∈ Chunks.chunks shared.batchSize hashes) :
      batch ≠ [] ∧ batch.length ≤ shared.batchSize :=
    Chunks.mem_chunks shared.batchSize_pos member
  unfold publishRetired
  rw [ensures_bind, ensures_get]
  generalize Chunks.chunks shared.batchSize hashes = batches at cut ⊢
  -- Each batch appends one frame; the batch size stays, so the rest still encodes.
  have loop : ∀ (batches done : List (List B256)) (current : Shared),
      (∀ batch ∈ batches, batch ≠ [] ∧ batch.length ≤ shared.batchSize) →
      Announces shared (done.map (retirement reason)) current →
      (Op.forEach batches fun batch => do
          let _ ← publish env generation (.candidatesRetired
            { blockHashes := batch.map B256.toVec, reason := reason.code })).Ensures current
        (fun _ after => Announces shared ((done ++ batches).map (retirement reason)) after)
        (fun _ _ => False) := by
    intro batches
    induction batches with
    | nil =>
      intro done current _ announced
      rw [List.append_nil]
      exact announced
    | cons batch rest ih =>
      intro done current fits announced
      obtain ⟨first, later⟩ := List.forall_mem_cons.mp fits
      have sameSize : current.batchSize = shared.batchSize := by
        unfold batchSize
        rw [announced.limit]
      change (_ >>= fun _ => Op.forEach rest _).Ensures current _ _
      rw [ensures_bind, ensures_bind]
      refine (publishInner_ensures env generation (retirement reason batch) none current).mono ?_ ?_
      · rintro sequence after ⟨-, rfl⟩
        have sent : Announces current [retirement reason batch]
            (current.sent env generation (retirement reason batch) none) :=
          ⟨⟨_, rfl, rfl⟩, rfl, rfl, rfl⟩
        have next := ih (done ++ [batch]) _ later (by
          rw [List.map_append]
          exact announced.trans sent)
        rw [List.append_assoc] at next
        exact next
      · rintro failure after ⟨-, overflow, -, overflows⟩
        obtain ⟨frame, encoded⟩ := (encode.announces announced) (current.sequence + 1) reason batch
          first.1 (first.2.trans_eq sameSize.symm)
        cases encoded.symm.trans overflows
  exact loop batches [] shared cut ⟨⟨[], by simp, rfl⟩, rfl, rfl, rfl⟩

end Shared

/-- An insertion returns: the projection cache is trimmed, then all records, and what either
step drops is published as evicted. -/
def Inserted (placed : Store) (inserted : B256) (p after : Publisher) : Prop :=
  ∃ evicted store removed, Store.trimProjectionCache inserted placed = (.ok evicted, store) ∧
    Store.Evicts p.store placed inserted evicted store ∧
    Store.trimMetadata store = (.ok removed, after.store) ∧
    Shared.Announces p.shared
      ((Chunks.chunks p.shared.batchSize evicted).map (Shared.retirement .cacheEvicted) ++
        (Chunks.chunks p.shared.batchSize removed).map (Shared.retirement .cacheEvicted))
      after.shared

theorem insertCandidate_returns {chain : B256 → BlockMeta} {p : Publisher} {env : Env}
    {projection : Projection} (stage : CandidateStage) (firstSequence : Nat)
    (formed : Store.WellFormed chain (fun _ => False) p.store)
    (known : projection.block = chain projection.block.hash)
    (unwrapped : p.store.nextIncarnation + 1 < 2 ^ 64)
    (room : 2 ≤ p.store.cacheLimit) (kept : 1 ≤ p.store.metadataLimit)
    (fits : p.store.projectionCount ≤ p.store.cacheLimit)
    (scannable : p.store.Overflows projection.block.hash → p.store.Scannable)
    (encode : p.shared.RetirementsEncode env projection.watchSet.generation) :
    (Publisher.insertCandidate env projection stage true firstSequence).Ensures p
      (fun _ after => Inserted (p.store.placeCandidate (env.now .insertCandidate) projection stage
        true firstSequence) projection.block.hash p after)
      (fun _ _ => False) := by
  obtain ⟨evicted, store, trimmed, evicts⟩ := formed.trimProjectionCache_placed
    (env.now .insertCandidate) projection stage firstSequence room fits scannable
  have placed := formed.placeCandidate known unwrapped (env.now .insertCandidate) stage firstSequence
  have left := placed.trimProjectionCache projection.block.hash
  rw [trimmed] at left
  have same := (Store.settings_of_projections trimmed).trans (Store.settings_placeCandidate (env.now .insertCandidate) projection
    stage true firstSequence p.store)
  obtain ⟨removed, final, cleaned⟩ := left.1.trimMetadata_returns
    (kept.trans_eq (congrArg Store.Settings.metadataLimit same).symm)
  unfold Publisher.insertCandidate Publisher.enforceLimits
  rw [ensures_bind]
  refine (ensures_focus _ _ _).mpr ?_
  rw [ensures_modify, ensures_bind]
  refine (ensures_focus _ _ _).mpr ((ensures_of_returns trimmed).mpr ?_)
  rw [ensures_bind]
  refine (ensures_focus _ _ _).mpr
    ((Shared.publishRetired_announces encode evicted .cacheEvicted).mono ?_ fun _ _ => id)
  intro _ between first
  rw [ensures_bind]
  refine (ensures_focus _ _ _).mpr ((ensures_of_returns cleaned).mpr ?_)
  refine (ensures_focus _ _ _).mpr
    ((Shared.publishRetired_announces (encode.announces first) removed .cacheEvicted).mono ?_
      fun _ _ => id)
  intro _ after second
  have size : between.batchSize = p.shared.batchSize := by
    unfold Shared.batchSize
    rw [first.limit]
  rw [size] at second
  exact ⟨evicted, store, removed, trimmed, evicts, cleaned, first.trans second⟩

theorem insertCandidate_fails {chain : B256 → BlockMeta} {p : Publisher} {env : Env}
    {projection : Projection} (stage : CandidateStage) (firstSequence : Nat)
    (formed : Store.WellFormed chain (fun _ => False) p.store) (room : 2 ≤ p.store.cacheLimit)
    (overflows : p.store.Overflows projection.block.hash) (unscannable : ¬ p.store.Scannable) :
    (Publisher.insertCandidate env projection stage true firstSequence).Ensures p
      (fun _ _ => False) (fun failure _ => failure = .cannotEvict projection.block.hash) := by
  obtain ⟨incarnation, victim, rest, overfull⟩ := formed.overfull (env.now .insertCandidate)
    projection stage firstSequence room overflows
  have fails := overfull.fails unscannable
  unfold Publisher.insertCandidate Publisher.enforceLimits
  rw [ensures_bind]
  refine (ensures_focus _ _ _).mpr ?_
  rw [ensures_modify, ensures_bind]
  refine (ensures_focus _ _ _).mpr ?_
  unfold Ensures
  split
  · next returned => cases (congrArg Prod.fst returned).symm.trans fails
  · next raised =>
    cases (congrArg Prod.fst raised).symm.trans fails
    rfl

/-- In every store that a run has reached, an insertion returns, keeps the canonical and the
inserted projection and evicts exactly the oldest one beyond the limit, if and only if the queue
can be scanned where a full cache has to make room for a projection it does not hold. -/
theorem projection_eviction_succeeds {chain : B256 → BlockMeta} {env now : Env}
    {options : Publisher.ServiceOptions} {watchSet : WatchSet} {start : Publisher} {loop : Loop}
    {projection : Projection} (stage : CandidateStage) (firstSequence : Nat)
    (chained : Chained chain env)
    (started : Publisher.startService env options watchSet = some start)
    (reached : Loop.Reaches (Machine.Allowed (Chained chain) (Numbered chain)) start loop)
    (idle : loop.control = .idle) (known : projection.block = chain projection.block.hash)
    (unwrapped : loop.publisher.store.nextIncarnation + 1 < 2 ^ 64)
    (encode : loop.publisher.shared.RetirementsEncode now projection.watchSet.generation) :
    ((Publisher.insertCandidate now projection stage true firstSequence loop.publisher).1 = .ok () ∧
      Inserted (loop.publisher.store.placeCandidate (now.now .insertCandidate) projection stage true
        firstSequence) projection.block.hash loop.publisher
        (Publisher.insertCandidate now projection stage true firstSequence loop.publisher).2) ↔
      (loop.publisher.store.Overflows projection.block.hash → loop.publisher.store.Scannable) := by
  obtain ⟨_, stored⟩ := Machine.stored_reaches (fun _ _ => id) chained started reached
  obtain ⟨loaded, starts, _⟩ := Publisher.startService_eq_some.mp started
  obtain ⟨cache, metadata, _⟩ := StreamConfig.validate_limits starts.config
  obtain ⟨p, control⟩ := loop
  cases idle
  have cacheLimit : p.store.cacheLimit = _ := stored.cacheLimit
  have metadataLimit : p.store.metadataLimit = _ := stored.metadataLimit
  have fits := stored.situated.fits trivial
  have counted : p.store.projectionCount ≤ options.stream.candidateCacheBlocks := fits.cached
  have room : 2 ≤ p.store.cacheLimit := by omega
  constructor
  · intro returned overflows
    by_contra unscannable
    have fails := @insertCandidate_fails chain p now projection stage firstSequence stored.formed room
      overflows unscannable
    unfold Ensures at fails
    dsimp only [Machine.State.ofLoop] at returned
    split at fails
    · exact fails
    · next raised => cases (congrArg Prod.fst raised).symm.trans returned.1
  · intro scannable
    have returns := insertCandidate_returns stage firstSequence stored.formed known unwrapped
      room (by change 1 ≤ p.store.metadataLimit; omega)
      (by change p.store.projectionCount ≤ p.store.cacheLimit; omega) scannable encode
    unfold Ensures at returns
    dsimp only [Machine.State.ofLoop] at returns ⊢
    rcases outcome : Publisher.insertCandidate now projection stage true firstSequence p
      with ⟨result, after⟩
    rw [outcome] at returns
    cases result with
    | ok _ => exact ⟨rfl, returns⟩
    | error _ => exact returns.elim

namespace Sample

def rejectedSiblings : List Input :=
  [.event (executedSibling 2), .event (.rejected 1 1 2 rejectionReason),
    .event (executedSibling 3), .event (.rejected 1 1 3 rejectionReason),
    .event (executedSibling 4), .event (.rejected 1 1 4 rejectionReason),
    .event (executedSibling 5)]

theorem forked_started :
    Publisher.startService forkedEnv narrowOptions watchSet = some narrowStart := by
  refine Publisher.startService_eq_some.mpr ⟨loaded 1, ?_, rfl⟩
  exact ⟨by decide, by decide, rfl, by decide, by decide, by decide +kernel⟩

theorem foretold_rejectedSiblings (p : Publisher) (input : Input)
    (member : input ∈ rejectedSiblings) :
    Machine.Allowed (Chained forked) (fun _ => Foretold forked) p forkedEnv input := by
  refine ⟨forked_chained, ?_⟩
  have executed (hash : B256) (known : sibling hash = forked hash) :
      Foretold forked (.event (executedSibling hash)) := by
    rintro event block changes ⟨rfl⟩ ⟨rfl⟩
    exact known
  simp only [rejectedSiblings, List.mem_cons, List.not_mem_nil, or_false] at member
  rcases member with rfl | rfl | rfl | rfl | rfl | rfl | rfl
  · exact executed 2 rfl
  · exact foretold_of_no_delta (by rintro event ⟨rfl⟩; rfl)
  · exact executed 3 rfl
  · exact foretold_of_no_delta (by rintro event ⟨rfl⟩; rfl)
  · exact executed 4 rfl
  · exact foretold_of_no_delta (by rintro event ⟨rfl⟩; rfl)
  · exact executed 5 rfl

def fullLoop : Loop := handled (executed 2 1) (.start narrowStart)

theorem full_idle : fullLoop.control = .idle := by decide +kernel

theorem full_scannable : fullLoop.publisher.store.Scannable := by decide +kernel

end Sample

theorem projection_eviction_gives_up :
    Publisher.startService Sample.forkedEnv Sample.narrowOptions Sample.watchSet =
        some Sample.narrowStart ∧
    ∃ loop, Loop.Reaches (Machine.Allowed (Chained Sample.forked) (fun _ => Foretold Sample.forked))
        Sample.narrowStart loop ∧ loop.control = .idle ∧
      loop.failure Sample.forkedEnv (.event (Sample.executedSibling 6)) =
        some (.cannotEvict 6) := by
  refine ⟨Sample.forked_started, ?_⟩
  exact Sample.exists_of_run Sample.narrowStart _ Sample.foretold_rejectedSiblings
    (by decide +kernel)

theorem Config.Valid.retirementsEncode {config : Config} {shared : Shared} (valid : config.Valid)
    (bounded : config.stream.maxFrameBytes < 2 ^ 32)
    (limit : shared.maxFrameBytes = config.stream.maxFrameBytes)
    (boot : shared.bootId.length ≤ 16) (env : Env) (generation : Generation) :
    shared.RetirementsEncode env generation := by
  intro sequence reason batch nonempty fits
  have cut : batch ∈ Chunks.chunks shared.batchSize batch := by
    rw [Chunks.chunks_short nonempty fits]
    exact List.mem_cons_self
  exact (built_fits _ valid bounded limit (.candidatesRetired reason cut) boot rfl).2

theorem projection_eviction_succeeds_sample :
    Sample.fullLoop.publisher.store.Overflows (Sample.projection Sample.watchSet 3).block.hash ∧
    (Publisher.insertCandidate (Sample.env 1 0) (Sample.projection Sample.watchSet 3) .executed true
      7 Sample.fullLoop.publisher).1 = .ok () := by
  have numbered : Numbered Sample.block Sample.narrowStart (.event (Sample.executed 2 1)) :=
    ⟨by decide, sample_foretold_executed 2 1⟩
  have reached : Loop.Reaches (Machine.Allowed (Chained Sample.block) (Numbered Sample.block))
      Sample.narrowStart Sample.fullLoop :=
    .single (Sample.round_handled rfl ⟨sample_chained 1 0, numbered⟩)
  have valid : (Config.mk Sample.narrowOptions.stream Sample.watchSet.configured).Valid :=
    Config.valid_of_validate (by decide)
  have encode : Sample.fullLoop.publisher.shared.RetirementsEncode (Sample.env 1 0)
      (Sample.projection Sample.watchSet 3).watchSet.generation :=
    valid.retirementsEncode (by decide) (by decide +kernel) (by decide +kernel) _ _
  have inserted := (projection_eviction_succeeds .executed 7 (sample_chained 1 0)
    Sample.narrow_started reached Sample.full_idle rfl (by decide +kernel) encode).mpr
    fun _ => Sample.full_scannable
  exact ⟨⟨by decide +kernel, by decide +kernel⟩, inserted.1⟩

end Statefeed
