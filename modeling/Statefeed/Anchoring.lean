import Statefeed.Machine.Simulation
import Statefeed.Model.Sample

set_option autoImplicit false

namespace Statefeed

open Effect Effect.Op

namespace Store

structure Anchored (projection : Projection) (store : Store) : Prop where
  head : store.canonicalHash = projection.block.hash
  record : ∃ entry, store.candidates.get projection.block.hash = some entry ∧
    entry.block = projection.block ∧ entry.projection = some projection ∧ entry.stage = .validated
  alone : ∀ hash, hash ≠ projection.block.hash → store.candidates.get hash = none
  undeferred : ∀ hash, store.deferredExecuted.get hash = none
  childless : ∀ hash, store.childrenByParent.get hash = none
  cleared : store.tombstones = ∅
  unswept : store.finalitySweep = none
  counted : store.projectionCount = 1

theorem anchored_resetCandidates (now : Instant) (projection : Projection) (view : ForkchoiceMeta)
    (store : Store) : (store.resetCandidates now projection view).Anchored projection where
  head := rfl
  record := by
    unfold resetCandidates
    simp [allocateIncarnation]
  alone := by
    intro hash other
    unfold resetCandidates
    simp [other]
  undeferred _ := rfl
  childless _ := rfl
  cleared := rfl
  unswept := rfl
  counted := rfl

end Store

/-- What a successful activation of `watchSet` leaves behind. -/
structure Activated (watchSet : WatchSet) (loaded : CanonicalSnapshot) (before after : Publisher) :
    Prop where
  announced : ∃ config anchor, after.shared.frames = before.shared.frames ++ [config, anchor] ∧
    config.envelope.event = some (.configActivated (configActivated watchSet)) ∧
    config.envelope.sequence = before.shared.sequence + 1 ∧
    config.envelope.configGeneration = watchSet.generation ∧
    anchor.envelope.event = some (.snapshot (snapshot loaded.projection loaded.forkchoice)) ∧
    anchor.envelope.sequence = before.shared.sequence + 2 ∧
    anchor.envelope.configGeneration = watchSet.generation
  sequence : after.shared.sequence = before.shared.sequence + 2
  publishedSequence : after.shared.publishedSequence = before.shared.sequence + 2
  published : after.shared.published.canonical = loaded.projection ∧
    after.shared.published.forkchoice = some loaded.forkchoice ∧
    after.shared.published.effectiveSequence = before.shared.sequence + 1 ∧
    after.shared.published.recovering = false
  store : after.store.Anchored loaded.projection
  finalized : after.store.lastFinalized = loaded.forkchoice.finalized
  anchoredAt : after.snapshotAnchoredAt = loaded.anchoredAt
  switched : after.activeWatchSet = watchSet

namespace Publisher

theorem activate_unchanged {env : Env} {watchSet : WatchSet} {p : Publisher} {failure : Error}
    (failed : (activate env watchSet p).1 = .error failure) : (activate env watchSet p).2 = p :=
  (Machine.activate_ensures env watchSet (fun _ _ => True) (fun _ after => after = p)
    (fun _ _ _ => rfl) (fun _ => trivial) (fun _ _ _ _ => trivial)).of_error failed

theorem reanchor_unchanged {env : Env} {p : Publisher} {failure : Error}
    (failed : (reanchor env p).1 = .error failure) : (reanchor env p).2 = p :=
  (Machine.reanchor_ensures env (fun _ _ => True) (fun _ after => after = p)
    (fun _ _ => rfl) (fun _ _ => trivial)).of_error failed

theorem activate_stale {env : Env} {watchSet : WatchSet} {p : Publisher}
    (older : watchSet.generation ≤ p.active.generation) : activate env watchSet p = (.ok (), p) := by
  change (if watchSet.generation ≤ p.active.generation then Pure.pure () else _ : Op _ _ Unit) p = _
  rw [if_pos older]
  rfl

theorem activate_newer {env : Env} {watchSet : WatchSet} {p : Publisher}
    (newer : p.active.generation < watchSet.generation)
    (returned : (activate env watchSet p).1 = .ok ()) :
    ∃ loaded, env.loadLatest watchSet = some loaded ∧
      Activated watchSet loaded p (activate env watchSet p).2 := by
  refine (Machine.activate_ensures env watchSet
    (fun _ after => ∃ loaded, env.loadLatest watchSet = some loaded ∧
      Activated watchSet loaded p after)
    (fun _ _ => True) (fun _ _ _ => trivial) (fun older => absurd older (not_le.mpr newer))
    fun loaded _ loads _ => ⟨loaded, loads.read, ?_⟩).of_ok returned
  constructor
  case announced =>
    refine ⟨_, _, List.append_assoc _ _ _, rfl, rfl, rfl, rfl, rfl, rfl⟩
  case store => exact Store.anchored_resetCandidates _ _ _ _
  case published => exact ⟨rfl, rfl, rfl, rfl⟩
  all_goals rfl

end Publisher

/-- `activate` and `reanchor` change nothing unless they succeed, and a frame that passed its
preflight is published at every sequence and every time. -/
theorem anchoring_transactional (env : Env) (watchSet : WatchSet) (p : Publisher) :
    (∀ failure, (Publisher.activate env watchSet p).1 = .error failure →
      (Publisher.activate env watchSet p).2 = p) ∧
    (∀ failure, (Publisher.reanchor env p).1 = .error failure →
      (Publisher.reanchor env p).2 = p) ∧
    (watchSet.generation ≤ p.active.generation →
      Publisher.activate env watchSet p = (.ok (), p)) ∧
    (p.active.generation < watchSet.generation →
      (Publisher.activate env watchSet p).1 = .ok () →
      ∃ loaded, env.loadLatest watchSet = some loaded ∧
        Activated watchSet loaded p (Publisher.activate env watchSet p).2) ∧
    (∀ (projection : Projection) (forkchoice : ForkchoiceMeta),
      validateProjectionFrames p.shared projection forkchoice = .ok () →
      p.shared.validateEventFrame projection.watchSet.generation
        (.snapshot (snapshot projection forkchoice)) = .ok ()) ∧
    ∀ (generation : Generation) (event : Wire.Event) (current : Shared)
      (nextState : Option (Projection × Option ForkchoiceMeta × Bool)),
      current.bootId = p.shared.bootId → current.maxFrameBytes = p.shared.maxFrameBytes →
      p.shared.validateEventFrame generation event = .ok () →
      (Shared.publishInner env generation event nextState current).1 =
        .ok (current.sequence + 1) := by
  refine ⟨fun _ => Publisher.activate_unchanged, fun _ => Publisher.reanchor_unchanged,
    Publisher.activate_stale, Publisher.activate_newer,
    fun _ _ => Machine.validateProjectionFrames_snapshot, ?_⟩
  intro generation event current nextState sameBoot sameLimit validated
  rw [Shared.publishInner_of_validated env current sameBoot sameLimit validated nextState]

namespace Sample

def laterWatchSet : WatchSet :=
  .compile 2 [{ id := "value", address := 0, slot := 0 }, { id := "other", address := 0, slot := 1 }]

def brokenEnv : Env := { env 1 0 with loadLatest := fun _ => none }

end Sample

theorem anchoring_transactional_sample :
    (Publisher.activate Sample.brokenEnv Sample.laterWatchSet Sample.start).2 = Sample.start ∧
      (Publisher.reanchor Sample.brokenEnv Sample.start).2 = Sample.start ∧
      Publisher.activate (Sample.env 2 5) Sample.watchSet Sample.start = (.ok (), Sample.start) ∧
      ∃ loaded, (Sample.env 2 5).loadLatest Sample.laterWatchSet = some loaded ∧
        Activated Sample.laterWatchSet loaded Sample.start
          (Publisher.activate (Sample.env 2 5) Sample.laterWatchSet Sample.start).2 := by
  have broken := anchoring_transactional Sample.brokenEnv Sample.laterWatchSet Sample.start
  refine ⟨broken.1 .source rfl, broken.2.1 .source rfl, ?_, ?_⟩
  · exact (anchoring_transactional (Sample.env 2 5) Sample.watchSet Sample.start).2.2.1 (by decide)
  · exact (anchoring_transactional (Sample.env 2 5) Sample.laterWatchSet Sample.start).2.2.2.1
      (by decide) (by decide +kernel)

end Statefeed
