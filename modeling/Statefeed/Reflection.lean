import Statefeed.Machine.Simulation
import Statefeed.Model.Node

set_option autoImplicit false

namespace Statefeed

open Effect Effect.Op

def Wire.Event.Silent : Wire.Event → Prop
  | .snapshot _ | .canonicalHead _ | .forkchoiceApplied _ => False
  | _ => True

def Wire.Event.Unanchored : Wire.Event → Prop
  | .snapshot _ => False
  | _ => True

theorem Wire.Event.Silent.unanchored {event : Wire.Event} (silent : event.Silent) :
    event.Unanchored := by
  cases event <;> first | exact silent | trivial

structure Sent (allowed : Wire.Event → Prop) (before after : Publisher) : Prop where
  anchoredAt : after.snapshotAnchoredAt = before.snapshotAnchoredAt
  frames : ∃ added, after.shared.frames = before.shared.frames ++ added ∧
    ∀ frame ∈ added, ∃ event, frame.envelope.event = some event ∧ allowed event

section

variable {allowed : Wire.Event → Prop} {env : Env}

theorem Sent.of_frames {before after : Publisher}
    (anchoredAt : after.snapshotAnchoredAt = before.snapshotAnchoredAt)
    (frames : after.shared.frames = before.shared.frames) : Sent allowed before after :=
  ⟨anchoredAt, [], by rw [frames, List.append_nil], fun _ member => absurd member List.not_mem_nil⟩

theorem Sent.trans {before middle after : Publisher} (first : Sent allowed before middle)
    (second : Sent allowed middle after) : Sent allowed before after := by
  obtain ⟨added, frames, events⟩ := first.frames
  obtain ⟨more, later, others⟩ := second.frames
  refine ⟨second.anchoredAt.trans first.anchoredAt, added ++ more, ?_, fun frame member => ?_⟩
  · rw [later, frames, List.append_assoc]
  · rcases List.mem_append.mp member with early | late
    · exact events frame early
    · exact others frame late

instance : IsPreorder Publisher (Sent allowed) where
  refl _ := .of_frames rfl rfl
  trans _ _ _ := Sent.trans

theorem Sent.mono {weaker : Wire.Event → Prop} {before after : Publisher}
    (sent : Sent allowed before after) (weakens : ∀ event, allowed event → weaker event) :
    Sent weaker before after := by
  obtain ⟨added, frames, events⟩ := sent.frames
  refine ⟨sent.anchoredAt, added, frames, fun frame member => ?_⟩
  obtain ⟨event, carried, fine⟩ := events frame member
  exact ⟨event, carried, weakens event fine⟩

theorem within_onStore {α : Type} (op : Op Store Error α) :
    (Publisher.onStore op).Within (Sent allowed) := by
  intro p
  refine (ensures_focus _ _ _).mpr ?_
  exact (ensures_any op p.store).mono (fun _ _ _ => .of_frames rfl rfl)
    (fun _ _ _ => .of_frames rfl rfl)

theorem within_publishInner {event : Wire.Event} (fine : allowed event) (generation : Generation)
    (nextState : Option (Projection × Option ForkchoiceMeta × Bool)) :
    (Publisher.onShared (Shared.publishInner env generation event nextState)).Within
      (Sent allowed) := by
  intro p
  refine (ensures_focus _ _ _).mpr ?_
  refine (Shared.publishInner_ensures env generation event nextState p.shared).mono ?_ ?_
  · rintro _ _ ⟨_, rfl⟩
    refine ⟨rfl, [_], rfl, fun frame member => ?_⟩
    rw [List.mem_singleton.mp member]
    exact ⟨event, rfl, fine⟩
  · rintro _ _ ⟨rfl, _⟩
    exact .of_frames rfl rfl

section

variable (retires : ∀ retired, allowed (.candidatesRetired retired))

include retires

theorem within_publishRetired (generation : Generation) (hashes : List B256)
    (reason : Wire.RetirementReason) :
    (Publisher.onShared (Shared.publishRetired env generation hashes reason)).Within
      (Sent allowed) := by
  intro p
  refine (ensures_focus _ _ _).mpr ?_
  unfold Shared.publishRetired
  rw [ensures_bind, ensures_get]
  refine Ensures.forEach
    (show (fun shared => Sent allowed p { p with shared }) p.shared from
      .of_frames rfl rfl) fun batch _ shared sent => ?_
  rw [ensures_bind]
  have published : (Publisher.onShared (Shared.publish env generation
      (.candidatesRetired { blockHashes := batch.map B256.toVec, reason := reason.code }))).Within
        (Sent allowed) := within_publishInner (retires _) generation none
  have inner := (ensures_focus _ _ _).mp (published { p with shared })
  exact inner.mono (fun _ _ => sent.trans) (fun _ _ => sent.trans)

namespace Publisher

theorem within_enforceLimits (projection : Projection) :
    (enforceLimits env projection).Within (Sent allowed) := by
  refine (within_onStore _).bind fun evicted => ?_
  refine (within_publishRetired retires _ _ _).bind fun _ => ?_
  exact (within_onStore _).bind fun removed => within_publishRetired retires _ _ _

theorem within_insertCandidate (projection : Projection) (stage : CandidateStage) (tracked : Bool)
    (firstSequence : Nat) :
    (insertCandidate env projection stage tracked firstSequence).Within (Sent allowed) :=
  (within_onStore _).bind fun _ => within_enforceLimits retires projection

theorem within_insertDeferredExecuted (block : BlockMeta) (changes : BlockChanges) :
    (insertDeferredExecuted env block changes).Within (Sent allowed) := by
  refine within_get.bind fun publisher => ?_
  split
  · exact within_pure ()
  split
  · exact within_pure ()
  refine (within_onStore _).bind fun _ => ?_
  exact (within_onStore _).bind fun removed => within_publishRetired retires _ _ _

theorem within_processFinalityBudget (generation : Generation) (budget : Nat) :
    (processFinalityBudget env generation budget).Within (Sent allowed) := by
  refine (within_onStore _).bind fun swept => ?_
  exact (within_publishRetired retires _ _ _).bind fun _ => within_pure _

theorem within_maintain : (maintain env).Within (Sent allowed) := by
  refine within_get.bind fun publisher => ?_
  refine (within_processFinalityBudget retires _ _).bind fun work => ?_
  refine within_get.bind fun swept => ?_
  exact (within_onStore _).bind fun expired => within_publishRetired retires _ _ _

end Publisher

end

end

namespace Publisher

section

variable {allowed : Wire.Event → Prop} {env : Env}

theorem within_promoteCandidate {blockHash : B256}
    (validates : allowed (.blockValidated { blockHash := B256.toVec blockHash }))
    (generation : Generation) (candidate : CandidateEntry) :
    (promoteCandidate env generation blockHash candidate).Within (Sent allowed) := by
  unfold promoteCandidate
  split
  · exact within_pure _
  split
  · exact (within_onStore _).bind fun _ => within_pure _
  split
  · exact within_pure _
  refine (within_publishInner validates _ _).bind fun _ => ?_
  exact (within_onStore _).bind fun _ => within_pure _

section

variable (retires : ∀ retired, allowed (.candidatesRetired retired)) {block : BlockMeta}
  {stage : CandidateStage}
  (shows : ∀ projection, projection.block = block →
    allowed (.blockState (blockState projection stage.wire)))

include retires shows

theorem within_publishProjection (generation : Generation) (changes : BlockChanges)
    (inherited : Bytes) :
    (publishProjection env generation block changes stage inherited).Within (Sent allowed) := by
  refine within_get.bind fun publisher => ?_
  refine (within_ofExcept _).bind fun applied => ?_
  refine (within_publishInner (shows _ rfl) _ _).bind fun firstSequence => ?_
  exact (within_insertCandidate retires _ _ _ _).bind fun _ => within_pure _

theorem within_projectNew (generation : Generation) (changes : BlockChanges) :
    (projectNew env generation block changes stage).Within (Sent allowed) := by
  refine within_get.bind fun publisher => ?_
  split
  · exact within_pure _
  split
  · exact (within_ofExcept _).bind fun values => within_publishProjection retires shows _ _ _
  split
  · exact (within_insertDeferredExecuted retires _ _).bind fun _ => within_pure _
  split
  · exact within_pure _
  · exact (within_ofExcept _).bind fun values => within_publishProjection retires shows _ _ _

theorem within_projectCandidate (validates : stage = .validated →
      allowed (.blockValidated { blockHash := B256.toVec block.hash })) (generation : Generation)
    (changes : BlockChanges) :
    (projectCandidate env generation block changes stage).Within (Sent allowed) := by
  refine within_get.bind fun publisher => ?_
  split
  · exact within_pure _
  split
  · exact within_throw _
  split
  · exact within_pure _
  split
  · exact within_projectNew retires shows _ _
  split
  · exact within_throw _
  split
  · split
    · next late => exact within_promoteCandidate (validates late.1) _ _
    · exact within_pure _
  · exact within_projectNew retires shows _ _

end

theorem within_rejected {blockHash : B256} {reason : String}
    (rejects : allowed (.blockRejected { blockHash := B256.toVec blockHash, reason }))
    (generation : Generation) :
    (rejected env generation blockHash reason).Within (Sent allowed) := by
  refine within_get.bind fun publisher => ?_
  split
  · exact within_pure _
  split
  · exact within_throw _
  split
  · refine (within_publishInner rejects _ _).bind fun _ => ?_
    exact (within_onStore _).bind fun _ => within_pure _
  · exact within_pure _

theorem within_canonical (retires : ∀ retired, allowed (.candidatesRetired retired))
    {blockHash : B256}
    (heads : ∀ head, head.block.map Wire.BlockRef.hash = some (B256.toVec blockHash) →
      allowed (.canonicalHead head)) (generation : Generation) (observedAt : Instant)
    (expectedBlockNumber : Option Nat) :
    (canonical env generation observedAt expectedBlockNumber blockHash).Within (Sent allowed) := by
  refine within_get.bind fun publisher => ?_
  split
  · exact within_throw _
  split
  · exact within_pure _
  split
  · exact within_pure _
  refine (within_ofExcept _).bind fun projection => ?_
  refine (within_ofExcept _).bind fun _ => ?_
  split
  · exact within_throw _
  next identity =>
  rw [not_or, not_not] at identity
  refine (within_ofExcept _).bind fun _ => ?_
  refine (within_ofExcept _).bind fun changedBitmap => ?_
  refine within_get.bind fun before => ?_
  refine (within_insertCandidate retires _ _ _ _).bind fun _ => ?_
  refine (within_publishInner (heads _ ?_) _ _).bind fun sequence => ?_
  · rw [← identity.1]
    rfl
  · exact (within_onStore _).bind fun _ => within_pure _

theorem within_announceGap (gaps : ∀ gap, allowed (.gap gap)) (reason : String) :
    (announceGap env reason).Within (Sent allowed) := by
  refine within_get.bind fun publisher => ?_
  exact (within_publishInner (gaps _) _ _).bind fun _ => within_pure _

end

variable {env : Env}

theorem within_promoteValidated (generation : Generation) (blockHash : B256) :
    (promoteValidated env generation blockHash).Within (Sent Wire.Event.Silent) := by
  refine within_get.bind fun publisher => ?_
  split
  · exact within_pure _
  split
  · exact within_throw _
  split
  · exact within_promoteCandidate trivial _ _
  split
  · exact within_pure _
  · exact within_projectCandidate (fun _ => trivial) (fun _ _ => trivial) (fun _ => trivial) _ _

theorem within_handle_plain {event : FeedEvent} (plain : event.isLifecycle = false) :
    (handle env event).Within (Sent Wire.Event.Silent) := by
  refine within_get.bind fun publisher => ?_
  cases event with
  | executed | validatedFallback =>
    dsimp only
    split
    · exact within_pure _
    refine Within.bind ?_ fun _ => within_pure _
    exact within_projectCandidate (fun _ => trivial) (fun _ _ => trivial) (fun _ => trivial) _ _
  | validated => exact (within_promoteValidated _ _).bind fun _ => within_pure _
  | rejected => exact (within_rejected trivial _).bind fun _ => within_pure _
  | canonicalStateReset => cases plain
  | forkchoiceApplied => cases plain

def Fenced (before after : Publisher) : Prop :=
  ∃ frame ∈ sent before after, ∃ applied, frame.envelope.event = some (.forkchoiceApplied applied)

theorem sent_of_frames {before after : Publisher} {added : List PublishedFrame}
    (frames : after.shared.frames = before.shared.frames ++ added) : sent before after = added := by
  unfold sent
  rw [frames, List.drop_left]

theorem Fenced.later {allowed : Wire.Event → Prop} {before middle after : Publisher}
    (fenced : Fenced before middle) (first : Sent allowed before middle)
    (second : Sent allowed middle after) : Fenced before after := by
  obtain ⟨frame, member, applied⟩ := fenced
  obtain ⟨added, frames, _⟩ := first.frames
  obtain ⟨more, later, _⟩ := second.frames
  rw [sent_of_frames frames] at member
  rw [frames, List.append_assoc] at later
  refine ⟨frame, ?_, applied⟩
  rw [sent_of_frames later]
  exact List.mem_append_left _ member

theorem Fenced.earlier {allowed : Wire.Event → Prop} {before middle after : Publisher}
    (first : Sent allowed before middle) (second : Sent allowed middle after)
    (fenced : Fenced middle after) : Fenced before after := by
  obtain ⟨frame, member, applied⟩ := fenced
  obtain ⟨added, frames, _⟩ := first.frames
  obtain ⟨more, later, _⟩ := second.frames
  rw [sent_of_frames later] at member
  rw [frames, List.append_assoc] at later
  refine ⟨frame, ?_, applied⟩
  rw [sent_of_frames later]
  exact List.mem_append_right _ member

theorem exists_frame_send (p : Publisher) (generation : Generation) (event : Wire.Event)
    (nextState : Option (Projection × Option ForkchoiceMeta × Bool)) :
    ∃ frame, (p.send env generation event nextState).shared.frames = p.shared.frames ++ [frame] ∧
      frame.envelope.event = some event :=
  ⟨_, rfl, rfl⟩

theorem fenced_send (p : Publisher) (generation : Generation) (applied : Wire.ForkchoiceApplied)
    (nextState : Option (Projection × Option ForkchoiceMeta × Bool)) :
    Sent Wire.Event.Unanchored p (p.send env generation (.forkchoiceApplied applied) nextState) ∧
      Fenced p (p.send env generation (.forkchoiceApplied applied) nextState) := by
  obtain ⟨frame, frames, carried⟩ :=
    exists_frame_send p generation (.forkchoiceApplied applied) nextState
  constructor
  · refine ⟨rfl, [frame], frames, fun other member => ?_⟩
    rw [List.mem_singleton.mp member]
    exact ⟨_, carried, trivial⟩
  · refine ⟨frame, ?_, applied, carried⟩
    rw [sent_of_frames frames]
    exact List.mem_cons_self

theorem publishView_ensures (view : ForkchoiceMeta) (p : Publisher) :
    (publishView env view).Ensures p
      (fun _ after => Sent Wire.Event.Unanchored p after ∧ Fenced p after)
      (fun _ => Sent Wire.Event.Unanchored p) := by
  unfold publishView
  rw [ensures_bind, ensures_get, ensures_bind, ensures_ofExcept]
  refine ⟨fun _ _ => ?_, fun _ _ => .of_frames rfl rfl⟩
  rw [ensures_bind]
  refine (ensures_focus _ _ _).mpr ?_
  refine (Shared.publishInner_ensures env _ _ _ p.shared).mono ?_ ?_
  · rintro _ _ ⟨_, rfl⟩
    -- Whatever follows the fence sends retirements only.
    have ends {op : Op Publisher Error Bool} {middle : Publisher}
        (fence : Sent Wire.Event.Unanchored p middle ∧ Fenced p middle)
        (within : op.Within (Sent Wire.Event.Unanchored)) :
        op.Ensures middle (fun _ after => Sent Wire.Event.Unanchored p after ∧ Fenced p after)
          (fun _ => Sent Wire.Event.Unanchored p) :=
      (within middle).mono (fun _ _ later => ⟨fence.1.trans later, fence.2.later fence.1 later⟩)
        (fun _ _ later => fence.1.trans later)
    split
    · split
      · refine ends (fenced_send p _ _ _) ((within_onStore _).bind fun _ => ?_)
        exact (within_processFinalityBudget (fun _ => trivial) _ _).bind fun _ => within_pure _
      · exact ends (fenced_send p _ _ _) (within_pure _)
    · exact ends (fenced_send p _ _ _) (within_pure _)
  · rintro _ _ ⟨rfl, _⟩
    exact .of_frames rfl rfl

theorem publishForkchoice_ensures (applied : AppliedForkchoiceMeta) (p : Publisher) :
    (publishForkchoice env applied).Ensures p
      (fun _ after => Sent Wire.Event.Unanchored p after ∧ Fenced p after)
      (fun _ => Sent Wire.Event.Unanchored p) := by
  unfold publishForkchoice
  rw [ensures_bind, ensures_get]
  split
  · exact .of_frames rfl rfl
  · exact publishView_ensures _ p

theorem handle_forkchoiceApplied_ensures (observedAt : Instant) (generation : Generation)
    (view : AppliedForkchoiceMeta) (p : Publisher) :
    (handle env (.forkchoiceApplied observedAt generation view)).Ensures p
      (fun _ after => observedAt ≤ p.snapshotAnchoredAt ∧ after = p ∨
        p.snapshotAnchoredAt < observedAt ∧ Sent Wire.Event.Unanchored p after ∧ Fenced p after)
      (fun _ after => after = p ∨
        p.snapshotAnchoredAt < observedAt ∧ Sent Wire.Event.Unanchored p after) := by
  unfold handle
  rw [ensures_bind, ensures_get]
  dsimp only
  rw [ensures_bind]
  unfold forkchoiceApplied
  rw [ensures_bind, ensures_get]
  split
  · exact .inl rfl
  split
  · next early => exact .inl ⟨early, rfl⟩
  next late =>
  replace late := not_le.mp late
  split
  · rw [ensures_bind]
    refine (within_canonical (fun _ => trivial) (fun _ _ => trivial) _ _ _ p).mono
      (fun _ middle moved => ?_) (fun _ _ sent => .inr ⟨late, sent⟩)
    refine (publishForkchoice_ensures view middle).mono (fun _ after fence => .inr ?_)
      (fun _ _ later => .inr ⟨late, moved.trans later⟩)
    exact ⟨late, moved.trans fence.1, fence.2.earlier moved fence.1⟩
  · exact (publishForkchoice_ensures view p).mono (fun _ _ fence => .inr ⟨late, fence⟩)
      (fun _ _ sent => .inr ⟨late, sent⟩)

structure Reanchored (loaded : CanonicalSnapshot) (before after : Publisher) : Prop where
  anchoredAt : after.snapshotAnchoredAt = loaded.anchoredAt
  frames : ∃ silent anchor, sent before after = silent ++ [anchor] ∧
    (∀ frame ∈ silent, ∃ event, frame.envelope.event = some event ∧ event.Silent) ∧
    anchor.envelope.event = some (.snapshot (snapshot loaded.projection loaded.forkchoice))

theorem reanchored_send (loaded : CanonicalSnapshot) (p : Publisher) {before : Publisher}
    (gapped : Sent Wire.Event.Silent before p) :
    Reanchored loaded before ((p.installSnapshot env loaded).send env
      loaded.projection.watchSet.generation (.snapshot (snapshot loaded.projection loaded.forkchoice))
      (some (loaded.projection, some loaded.forkchoice, false))) := by
  obtain ⟨added, frames, silent⟩ := gapped.frames
  obtain ⟨anchor, last, carried⟩ := exists_frame_send (p.installSnapshot env loaded)
    loaded.projection.watchSet.generation (.snapshot (snapshot loaded.projection loaded.forkchoice))
    (some (loaded.projection, some loaded.forkchoice, false))
  refine ⟨rfl, added, anchor, sent_of_frames ?_, silent, carried⟩
  rw [← List.append_assoc, ← frames]
  exact last

theorem reanchor_reanchored {result : Option CanonicalSnapshot}
    (answer : ∀ watchSet, env.loadLatest watchSet = result) {before p : Publisher}
    (gapped : Sent Wire.Event.Silent before p) :
    (reanchor env).Ensures p (fun _ after => ∃ loaded, result = some loaded ∧
      Reanchored loaded before after) (fun _ => Sent Wire.Event.Silent before) := by
  refine Machine.reanchor_ensures env _ _ (fun _ _ => gapped) fun loaded loads => ?_
  exact ⟨loaded, (answer _).symm.trans loads.read, reanchored_send loaded p gapped⟩

theorem handle_canonicalStateReset_ensures {result : Option CanonicalSnapshot}
    (answer : ∀ watchSet, env.loadLatest watchSet = result) (observedAt : Instant)
    (generation : Generation) (head : CheckpointMeta) (p : Publisher) :
    (handle env (.canonicalStateReset observedAt generation head)).Ensures p
      (fun _ after => observedAt ≤ p.snapshotAnchoredAt ∧ after = p ∨
        ∃ loaded, result = some loaded ∧ Reanchored loaded p after)
      (fun _ => Sent Wire.Event.Silent p) := by
  unfold handle
  rw [ensures_bind, ensures_get]
  dsimp only
  unfold canonicalStateReset
  rw [ensures_bind, ensures_get]
  split
  · exact .of_frames rfl rfl
  split
  · next early => exact .inl ⟨early, rfl⟩
  rw [ensures_bind]
  refine (within_announceGap (fun _ => trivial) _ p).mono (fun _ middle gapped => ?_) (fun _ _ => id)
  exact (reanchor_reanchored answer gapped).mono (fun _ _ => .inr) (fun _ _ => id)

theorem activate_reanchored {result : Option CanonicalSnapshot}
    (answer : ∀ watchSet, env.loadLatest watchSet = result) (watchSet : WatchSet) (p : Publisher) :
    (activate env watchSet).Ensures p
      (fun _ after => after = p ∨ ∃ loaded, result = some loaded ∧ Reanchored loaded p after)
      (fun _ after => after = p) := by
  refine Machine.activate_ensures env watchSet _ _ (fun _ _ _ => rfl) (fun _ => .inl rfl) ?_
  intro loaded _ loads _
  obtain ⟨config, first, carried⟩ := exists_frame_send (p.installSnapshot env loaded)
    watchSet.generation (.configActivated (configActivated watchSet))
    (some (loaded.projection, some loaded.forkchoice, false))
  obtain ⟨anchor, last, carriedLast⟩ := exists_frame_send
    ((p.installSnapshot env loaded).send env watchSet.generation
      (.configActivated (configActivated watchSet))
      (some (loaded.projection, some loaded.forkchoice, false)))
    watchSet.generation (.snapshot (snapshot loaded.projection loaded.forkchoice)) none
  rw [first, List.append_assoc] at last
  refine .inr ⟨loaded, (answer _).symm.trans loads.read, rfl, [config], anchor,
    sent_of_frames last, fun frame member => ?_, carriedLast⟩
  rw [List.mem_singleton.mp member]
  exact ⟨_, carried, trivial⟩

end Publisher

section

variable {callback revision : Nat} {before after : Publisher} {frame : PublishedFrame}
  {event : Wire.Event}

theorem reflects_of_silent (carried : frame.envelope.event = some event) (silent : event.Silent) :
    frame.reflects callback revision = none := by
  unfold PublishedFrame.reflects
  rw [carried]
  cases event <;> first | exact silent.elim | rfl

theorem reflects_of_unanchored (carried : frame.envelope.event = some event)
    (unanchored : event.Unanchored) :
    ∀ number ∈ frame.reflects callback revision, number = callback := by
  unfold PublishedFrame.reflects
  rw [carried]
  cases event <;> first | exact unanchored.elim | simp

theorem anchors_of_unanchored (carried : frame.envelope.event = some event)
    (unanchored : event.Unanchored) : frame.anchors = false := by
  unfold PublishedFrame.anchors
  rw [carried]
  cases event <;> first | exact unanchored.elim | rfl

theorem filterMap_silent {frames : List PublishedFrame} (silent : ∀ frame ∈ frames,
    ∃ event, frame.envelope.event = some event ∧ event.Silent) :
    frames.filterMap (PublishedFrame.reflects callback revision) = [] := by
  apply List.filterMap_eq_nil_iff.mpr
  intro frame member
  obtain ⟨event, carried, quiet⟩ := silent frame member
  exact reflects_of_silent carried quiet

theorem Sent.reflected_nil (sent : Sent Wire.Event.Silent before after) :
    (Publisher.sent before after).filterMap (PublishedFrame.reflects callback revision) = [] := by
  obtain ⟨added, frames, silent⟩ := sent.frames
  rw [Publisher.sent_of_frames frames]
  exact filterMap_silent silent

theorem Sent.unanchored_any (sent : Sent Wire.Event.Unanchored before after) :
    (Publisher.sent before after).any PublishedFrame.anchors = false := by
  obtain ⟨added, frames, events⟩ := sent.frames
  rw [Publisher.sent_of_frames frames, List.any_eq_false]
  intro frame member
  obtain ⟨event, carried, unanchored⟩ := events frame member
  simp [anchors_of_unanchored carried unanchored]

theorem Sent.reflected_eq (sent : Sent Wire.Event.Unanchored before after) :
    ∀ number ∈ (Publisher.sent before after).filterMap (PublishedFrame.reflects callback revision),
      number = callback := by
  obtain ⟨added, frames, events⟩ := sent.frames
  rw [Publisher.sent_of_frames frames]
  intro number member
  obtain ⟨frame, inside, reflects⟩ := List.mem_filterMap.mp member
  obtain ⟨event, carried, unanchored⟩ := events frame inside
  exact reflects_of_unanchored carried unanchored number reflects

theorem Publisher.Fenced.reflected_ne_nil (fenced : Publisher.Fenced before after) :
    (Publisher.sent before after).filterMap (PublishedFrame.reflects callback revision) ≠ [] := by
  obtain ⟨frame, member, applied, carried⟩ := fenced
  apply List.ne_nil_of_mem (a := callback)
  refine List.mem_filterMap.mpr ⟨frame, member, ?_⟩
  unfold PublishedFrame.reflects
  rw [carried]

theorem Publisher.Reanchored.reflected_eq {loaded : CanonicalSnapshot}
    (reanchored : Publisher.Reanchored loaded before after) :
    (Publisher.sent before after).filterMap (PublishedFrame.reflects callback revision) =
      [revision] ∧ (Publisher.sent before after).any PublishedFrame.anchors = true := by
  obtain ⟨silent, anchor, split, quiet, carried⟩ := reanchored.frames
  rw [split]
  constructor
  · rw [List.filterMap_append, filterMap_silent quiet]
    simp [PublishedFrame.reflects, carried]
  · simp [PublishedFrame.anchors, carried]

end

def Input.demands : Input → Bool
  | .event taken => taken.isLifecycle
  | .retry => true
  | _ => false

inductive Outcome (result : Option CanonicalSnapshot) (input : Input) (before : Publisher)
    (after : Loop) : Prop
  | silent (sent : Sent Wire.Event.Silent before after.publisher)
      (settled : after.control = .idle → input.demands = false)
  | skipped {event : FeedEvent} (taken : input = .event event) (lifecycle : event.isLifecycle = true)
      (early : event.observedAt ≤ before.snapshotAnchoredAt) (same : after = .start before)
  | applied {event : FeedEvent} (taken : input = .event event) (lifecycle : event.isLifecycle = true)
      (late : before.snapshotAnchoredAt < event.observedAt)
      (sent : Sent Wire.Event.Unanchored before after.publisher)
      (fenced : after.control = .idle → Publisher.Fenced before after.publisher)
  | anchored {loaded : CanonicalSnapshot} (read : result = some loaded)
      (idle : after.control = .idle) (reanchored : Publisher.Reanchored loaded before after.publisher)

namespace Loop

variable {env : Env} {result : Option CanonicalSnapshot}

theorem settle_cases {α : Type} {op : Op Publisher Error α} {p : Publisher} {reason : String}
    {goal : Loop → Prop}
    (ensures : op.Ensures p (fun _ after => goal (.start after))
      (fun _ after => goal (beginRecovery reason after))) : goal (settle reason (op p)) := by
  unfold Ensures at ensures
  split at ensures
  · next eq =>
    rw [eq]
    exact ensures
  · next eq =>
    rw [eq]
    exact ensures

theorem outcome_silent {op : Op Publisher Error Unit} {p : Publisher} {reason : String}
    {input : Input} (within : op.Within (Sent Wire.Event.Silent)) (free : input.demands = false) :
    Outcome result input p (settle reason (op p)) :=
  settle_cases ((within p).mono (fun _ _ sent => .silent sent fun _ => free)
    (fun _ _ sent => .silent sent fun _ => free))

theorem outcome_handle (answer : ∀ watchSet, env.loadLatest watchSet = result) (event : FeedEvent)
    (p : Publisher) :
    Outcome result (.event event) p (settle "publisher_error" (Publisher.handle env event p)) := by
  cases kind : event.isLifecycle with
  | false => exact outcome_silent (Publisher.within_handle_plain kind) kind
  | true =>
    apply settle_cases
    cases event with
    | forkchoiceApplied observedAt generation view =>
      refine (Publisher.handle_forkchoiceApplied_ensures observedAt generation view p).mono ?_ ?_
      · rintro _ after (⟨early, rfl⟩ | ⟨late, sent, fenced⟩)
        · exact .skipped rfl kind early rfl
        · exact .applied rfl kind late sent fun _ => fenced
      · rintro _ after (rfl | ⟨late, sent⟩)
        · exact .silent (.of_frames rfl rfl) nofun
        · exact .applied rfl kind late sent nofun
    | canonicalStateReset observedAt generation head =>
      refine (Publisher.handle_canonicalStateReset_ensures answer observedAt generation head p).mono
        ?_ (fun _ _ sent => .silent sent nofun)
      rintro _ after (⟨early, rfl⟩ | ⟨loaded, read, reanchored⟩)
      · exact .skipped rfl kind early rfl
      · exact .anchored read rfl reanchored
    | executed => cases kind
    | validated => cases kind
    | validatedFallback => cases kind
    | rejected => cases kind

theorem outcome_handleControl (answer : ∀ watchSet, env.loadLatest watchSet = result)
    (watchSet : WatchSet) (p : Publisher) :
    Outcome result (.activation watchSet) p
      (settle "publisher_error" (Publisher.handleControl env watchSet p)) := by
  have activated := Publisher.activate_reanchored answer watchSet p
  unfold Publisher.handleControl
  unfold Ensures at activated
  split at activated
  · next eq =>
    rw [eq]
    rcases activated with rfl | ⟨loaded, read, reanchored⟩
    · exact .silent (.of_frames rfl rfl) fun _ => rfl
    · exact .anchored read rfl reanchored
  · next eq =>
    rw [eq, activated]
    exact .silent (.of_frames rfl rfl) fun _ => rfl

theorem outcome_retryReanchor (answer : ∀ watchSet, env.loadLatest watchSet = result)
    {before p : Publisher} (gapped : Sent Wire.Event.Silent before p) (reason : String) :
    Outcome result .retry before (retryReanchor env reason p) := by
  have anchored := Publisher.reanchor_reanchored answer gapped
  unfold retryReanchor
  unfold Ensures at anchored
  split at anchored
  · next eq =>
    rw [eq]
    obtain ⟨loaded, read, reanchored⟩ := anchored
    exact .anchored read rfl reanchored
  · next eq =>
    rw [eq]
    exact .silent anchored nofun

theorem outcome_retry (answer : ∀ watchSet, env.loadLatest watchSet = result) (gapAnnounced : Bool)
    (reason : String) (p : Publisher) :
    Outcome result .retry p (retry env gapAnnounced reason p) := by
  unfold retry
  split
  · exact outcome_retryReanchor answer (.of_frames rfl rfl) reason
  · have announced : (Publisher.announceGap env reason).Within (Sent Wire.Event.Silent) :=
      Publisher.within_announceGap (fun _ => trivial) reason
    have gapped := announced p
    unfold Ensures at gapped
    split at gapped
    · next eq =>
      rw [eq]
      exact outcome_retryReanchor answer gapped reason
    · next eq =>
      rw [eq]
      exact .silent gapped nofun

theorem outcome_next (answer : ∀ watchSet, env.loadLatest watchSet = result) {input : Input}
    {loop after : Loop} (next : Loop.next env input loop = some after) :
    Outcome result input loop.publisher after := by
  unfold Loop.next at next
  split at next
  · cases next
    exact outcome_handle answer _ _
  · cases next
    exact outcome_handleControl answer _ _
  · cases next
    exact outcome_silent (Publisher.within_maintain fun _ => trivial) rfl
  · cases next
    exact .silent (.of_frames rfl rfl) nofun
  · cases next
    exact outcome_retry answer _ _ _
  · cases next

end Loop

end Statefeed
