import Statefeed.FrameSize
import Statefeed.Stream.Cursor

set_option autoImplicit false

namespace Statefeed

open Effect Effect.Op Dump Machine

structure ForkchoiceMeta.Ordered (view : ForkchoiceMeta) : Prop where
  safe : ∀ checkpoint, view.safe = some checkpoint → checkpoint.number ≤ view.head.number
  finalized : ∀ checkpoint, view.finalized = some checkpoint → checkpoint.number ≤ view.head.number
  apart : ∀ safe finalized, view.safe = some safe → view.finalized = some finalized →
    finalized.number ≤ safe.number

theorem validateForkchoiceCheckpoints_ok {view : ForkchoiceMeta} :
    validateForkchoiceCheckpoints view = .ok () ↔ view.Ordered := by
  obtain ⟨head, safe, finalized⟩ := view
  constructor
  · intro accepted
    unfold validateForkchoiceCheckpoints at accepted
    split at accepted
    · cases accepted
    · next within =>
      rw [not_or] at within
      refine ⟨?_, ?_, ?_⟩
      · rintro checkpoint ⟨rfl⟩
        simpa using within.1
      · rintro checkpoint ⟨rfl⟩
        simpa using within.2
      · rintro first second ⟨rfl⟩ ⟨rfl⟩
        dsimp only at accepted
        split at accepted
        · cases accepted
        · next behind => exact Nat.le_of_not_lt behind
  · rintro ⟨below, under, apart⟩
    unfold validateForkchoiceCheckpoints
    rw [if_neg]
    · cases safe with
      | none => rfl
      | some first =>
        cases finalized with
        | none => rfl
        | some second => exact if_neg (Nat.not_lt.mpr (apart first second rfl rfl))
    · rintro (ahead | ahead)
      · obtain ⟨checkpoint, known, past⟩ := (Option.any_eq_true _ _).mp ahead
        exact absurd (below checkpoint known) (Nat.not_le.mpr (of_decide_eq_true past))
      · obtain ⟨checkpoint, known, past⟩ := (Option.any_eq_true _ _).mp ahead
        exact absurd (under checkpoint known) (Nat.not_le.mpr (of_decide_eq_true past))

namespace Dump

theorem ensure_true {condition : Bool} {failure : ContentError} (holds : condition = true) :
    ensure condition failure = .ok () := by
  unfold ensure
  rw [if_pos holds]

theorem ensure_bind {α : Type} {condition : Bool} {failure : ContentError}
    {next : Unit → Except ContentError α} (holds : condition = true) :
    (ensure condition failure >>= next) = next () := by
  rw [ensure_true holds]
  rfl

theorem ok_bind {α β : Type} (value : α) (next : α → Except ContentError β) :
    (Except.ok value >>= next) = next value := rfl

theorem validateBlockRef_blockRef (block : BlockMeta) :
    validateBlockRef (some (blockRef block)) = .ok (blockRef block) := by
  dsimp only [validateBlockRef]
  rw [ensure_bind (by simp [blockRef]), ensure_bind (by simp [blockRef])]

theorem validateCheckpoint_ref {head : CheckpointMeta} {checkpoint : Option CheckpointMeta}
    (within : ∀ known, checkpoint = some known → known.number ≤ head.number) :
    validateCheckpoint (checkpointRef head) (checkpoint.map checkpointRef) = .ok () := by
  cases checkpoint with
  | none => rfl
  | some known =>
    have below := within known rfl
    exact (ensure_bind (by simp [checkpointRef])).trans (ensure_true (decide_eq_true below))

theorem validateForkchoiceView_view {view : ForkchoiceMeta}
    (ordered : validateForkchoiceCheckpoints view = .ok ()) :
    validateForkchoiceView (some (forkchoiceView view)) = .ok (checkpointRef view.head) := by
  obtain ⟨safe, finalized, apart⟩ := validateForkchoiceCheckpoints_ok.mp ordered
  have last : validateFinalized (view.safe.map checkpointRef) (view.finalized.map checkpointRef) =
      .ok () := by
    cases first : view.safe with
    | none => rfl
    | some safe =>
      cases second : view.finalized with
      | none => rfl
      | some finalized =>
        exact ensure_true (decide_eq_true (apart safe finalized first second))
  simp only [validateForkchoiceView, forkchoiceView]
  rw [ensure_bind (by simp [checkpointRef]), validateCheckpoint_ref safe,
    validateCheckpoint_ref finalized, last]
  rfl

namespace Consumer

/-- The consumer of a stream whose active dictionary is `watchSet`. -/
def following (capabilities : Nat) (watchSet : WatchSet) : Consumer where
  activeGeneration := some watchSet.generation
  keyCount := watchSet.len
  capabilities := capabilities

end Consumer

end Dump

def Wire.Event.changedBitmap : Wire.Event → Option Bytes
  | .blockState state => some state.changedBitmap
  | .canonicalHead head => some head.changedBitmap
  | _ => none

inductive Proper (publishExecuted : Bool) (watchSet : WatchSet) : Wire.Event → Prop
  | snapshot {projection : Projection} {view : ForkchoiceMeta} (whole : projection.Whole watchSet)
      (matched : Monitor.Matches view projection.block)
      (ordered : validateForkchoiceCheckpoints view = .ok ()) :
      Proper publishExecuted watchSet (.snapshot (snapshot projection view))
  | blockState {projection : Projection} {stage : CandidateStage} (whole : projection.Whole watchSet)
      (bits : projection.changedBitmap.length = bitmapLen watchSet.len)
      (early : stage = .executed → publishExecuted = true) :
      Proper publishExecuted watchSet (.blockState (blockState projection stage.wire))
  | canonicalHead {projection : Projection} {changedBitmap : Bytes} (previous : B256)
      (whole : projection.Whole watchSet) (bits : changedBitmap.length = bitmapLen watchSet.len) :
      Proper publishExecuted watchSet (.canonicalHead
        { previousBlockHash := B256.toVec previous
          block := some (blockRef projection.block)
          values := projection.values
          changedBitmap })
  | blockValidated (hash : B256) :
      Proper publishExecuted watchSet (.blockValidated { blockHash := B256.toVec hash })
  | blockRejected (hash : B256) :
      Proper publishExecuted watchSet
        (.blockRejected { blockHash := B256.toVec hash, reason := rejectionReason })
  | forkchoiceApplied {view : ForkchoiceMeta}
      (ordered : validateForkchoiceCheckpoints view = .ok ()) :
      Proper publishExecuted watchSet (.forkchoiceApplied { view := some (forkchoiceView view) })
  | candidatesRetired {batch : List B256} {reason : Wire.RetirementReason} (nonempty : batch ≠ [])
      (specified : reason ≠ .unspecified) :
      Proper publishExecuted watchSet
        (.candidatesRetired { blockHashes := batch.map B256.toVec, reason := reason.code })
  | gap (lastContiguousSequence : Nat) (reason : String) :
      Proper publishExecuted watchSet (.gap { lastContiguousSequence, reason })

theorem advertised_lifecycle (publishExecuted : Bool) :
    advertises (advertisedCapabilities publishExecuted) Wire.capForkchoiceApplied = true ∧
      advertises (advertisedCapabilities publishExecuted) Wire.capCandidateRetirement = true ∧
      (publishExecuted = true →
        advertises (advertisedCapabilities publishExecuted) Wire.capExecuted = true) := by
  cases publishExecuted <;> decide

theorem checkReason_code {reason : Wire.RetirementReason} (specified : reason ≠ .unspecified) :
    Consumer.checkReason reason.code = .ok () := by
  cases reason with
  | unspecified => exact absurd rfl specified
  | _ => rfl

section

variable {publishExecuted : Bool} {watchSet : WatchSet} {event : Wire.Event}

theorem checkLive_proper (proper : Proper publishExecuted watchSet event)
    (named : ∀ gap, event = .gap gap → gap.reason ≠ "") :
    (Consumer.following (advertisedCapabilities publishExecuted) watchSet).checkLive event =
      .ok () := by
  obtain ⟨forkchoices, retirements, executions⟩ := advertised_lifecycle publishExecuted
  have packed {projection : Projection} (whole : projection.Whole watchSet) :
      packedValues projection.values watchSet.len = .ok () :=
    ensure_true (decide_eq_true whole.values)
  cases proper with
  | snapshot whole matched ordered =>
    simp only [Consumer.checkLive, Consumer.checkSnapshot, snapshot, validateBlockRef_blockRef,
      validateForkchoiceView_view ordered, ok_bind]
    rw [ensure_bind (by simp [checkpointRef, blockRef, matched.1, matched.2])]
    exact packed whole
  | @blockState projection stage whole bits early =>
    have staged : (Consumer.following (advertisedCapabilities publishExecuted) watchSet).checkStage
        stage.wire.code = .ok () := by
      -- The stage `executed` passes because the capability was advertised.
      cases stage with
      | executed => exact ensure_true (executions (early rfl))
      | validated => rfl
    simp only [Consumer.checkLive, Consumer.checkBlockState, blockState, validateBlockRef_blockRef,
      staged, ok_bind]
    exact (ensure_bind (decide_eq_true bits)).trans (packed whole)
  | canonicalHead previous whole bits =>
    simp only [Consumer.checkLive, Consumer.checkCanonicalHead, validateBlockRef_blockRef, ok_bind]
    rw [ensure_bind (by simp), ensure_bind]
    · exact packed whole
    · rw [Bool.or_eq_true]
      exact .inr (decide_eq_true bits)
  | blockValidated => exact ensure_true (by simp)
  | blockRejected =>
    have stated : decide (rejectionReason ≠ "") = true := by decide
    exact (ensure_bind (by simp)).trans (ensure_true stated)
  | forkchoiceApplied ordered =>
    simp only [Consumer.checkLive, Consumer.checkForkchoice, validateForkchoiceView_view ordered]
    exact ensure_bind forkchoices
  | candidatesRetired nonempty specified =>
    simp only [Consumer.checkLive, Consumer.checkRetired, Consumer.following,
      checkReason_code specified, ok_bind]
    rw [ensure_bind retirements, ensure_bind (by simpa using nonempty)]
    exact ensure_true (by simp)
  | gap lastContiguousSequence reason => exact ensure_true (decide_eq_true (named _ rfl))

theorem check_proper (proper : Proper publishExecuted watchSet event)
    (named : ∀ gap, event = .gap gap → gap.reason ≠ "") :
    (Consumer.following (advertisedCapabilities publishExecuted) watchSet).check
        watchSet.generation event =
      .ok (.following (advertisedCapabilities publishExecuted) watchSet) := by
  have passed := checkLive_proper proper named
  have current : validateGeneration (some watchSet.generation) watchSet.generation = .ok () :=
    ensure_true (decide_eq_true rfl)
  cases proper with
  | _ =>
    simp only [Consumer.check, passed]
    exact congrArg (· >>= _) current

theorem configActivated_key {keyId : Nat} {key : Wire.WatchKey}
    (present : (configActivated watchSet).keys[keyId]? = some key) :
    key.keyId = keyId % 2 ^ 32 ∧ key.address.length = 20 ∧ key.slot.length = 32 := by
  simp only [configActivated, WatchSet.keys, List.getElem?_map, List.getElem?_mapIdx,
    Option.map_map, Option.map_eq_some_iff] at present
  obtain ⟨watched, _, rfl⟩ := present
  simp [Address.toVec]

theorem dense_configActivated (indexed : watchSet.configured.length < 2 ^ 32) :
    (configActivated watchSet).keys.zipIdx.all (fun (key, index) => key.keyId = index) = true := by
  rw [List.all_eq_true]
  rintro ⟨key, index⟩ member
  have present := List.mem_zipIdx_iff_getElem?.mp member
  have inside := (List.getElem?_eq_some_iff.mp present).1
  simp only [configActivated, List.length_map, WatchSet.length_keys] at inside
  have small := Nat.mod_eq_of_lt (inside.trans indexed)
  exact decide_eq_true ((configActivated_key present).1.trans small)

theorem checkConfig_activated {consumer : Consumer} (indexed : watchSet.configured.length < 2 ^ 32)
    (newer : ∀ active, consumer.activeGeneration = some active → active ≤ watchSet.generation) :
    consumer.check watchSet.generation (.configActivated (configActivated watchSet)) =
      .ok (.following consumer.capabilities watchSet) := by
  have dense := dense_configActivated indexed
  have sized : (configActivated watchSet).keys.all
      (fun key => key.address.length = 20 && key.slot.length = 32) = true := by
    rw [List.all_eq_true]
    intro key member
    obtain ⟨index, present⟩ := List.getElem?_of_mem member
    simp [(configActivated_key present).2]
  have count : (configActivated watchSet).keys.length = watchSet.len := by
    simp [configActivated, WatchSet.len]
  simp only [Consumer.check, Consumer.checkConfig, count]
  cases known : consumer.activeGeneration with
  | none =>
    dsimp only
    rw [ok_bind, ensure_bind dense, ensure_bind sized]
    rfl
  | some active =>
    dsimp only
    rw [ensure_bind (decide_eq_true (newer active known)), ensure_bind dense, ensure_bind sized]
    rfl

end

namespace Machine

variable {world : Env → Prop} {stream : StreamConfig} {start p : Publisher} {env : Env}
  {generation : Generation} {event : Wire.Event}
  {nextState : Option (Projection × Option ForkchoiceMeta × Bool)}

def Phase.Specified : Phase → Prop
  | .placed _ next | .trimming _ next => next.Specified
  | .retiring _ _ reason next => reason ≠ .unspecified ∧ next.Specified
  | _ => True

theorem specified_step {offers : Publisher → Input → Prop} {state after : State}
    (specified : state.phase.Specified) (step : Step world offers state after) :
    after.phase.Specified := by
  cases step with
  | trimProjections | trimMetadata => exact ⟨by decide, specified⟩
  | retire => exact specified
  | retired => exact specified.2
  | fence =>
    rcases afterFence_phase _ _ with idle | sweeping
    · rw [idle]
      trivial
    · rw [sweeping]
      trivial
  | sweep | maintain | expire => exact ⟨by decide, trivial⟩
  | _ => trivial

/-- The inputs of a service that was configured with `stream`. -/
def Engine (stream : StreamConfig) (p : Publisher) (input : Input) : Prop :=
  Configured stream p input ∧ ∀ observedAt generation block changes,
    input = .event (.executed observedAt generation block changes) → stream.publishExecuted = true

inductive Suits (stream : StreamConfig) (start : Publisher) (before : List PublishedFrame)
    (frame : PublishedFrame) : Prop
  | live {watchSet : WatchSet} {event : Wire.Event}
      (active : (publishedAfter start before).canonical.watchSet = watchSet)
      (read : frame.envelope.event = some event)
      (stamped : frame.envelope.configGeneration = watchSet.generation)
      (proper : Proper stream.publishExecuted watchSet event)
      (kept : (publishedAfter start (before ++ [frame])).canonical.watchSet = watchSet) :
      Suits stream start before frame
  | config {watchSet : WatchSet}
      (newer : (publishedAfter start before).canonical.watchSet.generation < watchSet.generation)
      (read : frame.envelope.event = some (.configActivated (configActivated watchSet)))
      (stamped : frame.envelope.configGeneration = watchSet.generation)
      (fits : Fits stream watchSet)
      (activated : (publishedAfter start (before ++ [frame])).canonical.watchSet = watchSet) :
      Suits stream start before frame

def Views (frames : List PublishedFrame) : Prop :=
  ∀ frame ∈ frames, ∀ stored view, frame.stored = some stored → stored.forkchoice = some view →
    validateForkchoiceCheckpoints view = .ok ()

theorem views_send (views : Views p.shared.frames)
    (ordered : ∀ projection view recovering, nextState = some (projection, some view, recovering) →
      validateForkchoiceCheckpoints view = .ok ()) :
    Views (p.send env generation event nextState).shared.frames := by
  intro frame member stored view found known
  rcases List.mem_append.mp member with earlier | last
  · exact views frame earlier stored view found known
  · cases List.mem_singleton.mp last
    obtain ⟨⟨projection, forkchoice, recovering⟩, next, rfl⟩ := Option.map_eq_some_iff.mp found
    dsimp only at known
    rw [known] at next
    exact ordered _ _ _ next

theorem publishedAfter_send
    (latest : publishedAfter start p.shared.frames = p.shared.published) :
    publishedAfter start (p.send env generation event nextState).shared.frames =
      (p.send env generation event nextState).shared.published := by
  unfold publishedAfter at *
  change Publication.latest _ _ (p.shared.frames ++ [_]) = _
  rw [Publication.latest_concat, latest]
  rfl

theorem suits_send (each : History.Each (Suits stream start) p.shared.frames)
    (latest : publishedAfter start p.shared.frames = p.shared.published)
    (proper : Proper stream.publishExecuted p.active event)
    (current : generation = p.active.generation)
    (kept : (p.send env generation event nextState).active = p.active) :
    History.Each (Suits stream start) (p.send env generation event nextState).shared.frames := by
  refine History.each_concat.mpr ⟨each, .live ?_ rfl current proper ?_⟩
  · rw [latest]
    rfl
  · exact (congrArg (·.canonical.watchSet) (publishedAfter_send latest)).trans kept

theorem suits_config {watchSet : WatchSet} {projection : Projection}
    {forkchoice : Option ForkchoiceMeta} {recovering : Bool}
    (each : History.Each (Suits stream start) p.shared.frames)
    (latest : publishedAfter start p.shared.frames = p.shared.published)
    (newer : p.active.generation < watchSet.generation) (fits : Fits stream watchSet)
    (typed : projection.watchSet = watchSet) :
    History.Each (Suits stream start) (p.send env watchSet.generation
      (.configActivated (configActivated watchSet))
      (some (projection, forkchoice, recovering))).shared.frames := by
  have sent := @publishedAfter_send start p env watchSet.generation
    (.configActivated (configActivated watchSet)) (some (projection, forkchoice, recovering)) latest
  refine History.each_concat.mpr ⟨each, .config ?_ rfl rfl fits ?_⟩
  · rw [latest]
    exact newer
  · exact (congrArg (·.canonical.watchSet) sent).trans typed

theorem ordered_of_view {loaded : CanonicalSnapshot}
    (accepted : validateSnapshotView loaded = .ok ()) :
    validateForkchoiceCheckpoints loaded.forkchoice = .ok () := by
  unfold validateSnapshotView at accepted
  split at accepted
  · cases accepted
  · exact accepted

theorem Loads.proper {watchSet : WatchSet} {loaded : CanonicalSnapshot}
    (loads : Loads env p watchSet loaded) (publishExecuted : Bool) :
    Proper publishExecuted watchSet (.snapshot (snapshot loaded.projection loaded.forkchoice)) :=
  .snapshot loads.whole (Monitor.matches_of_view loads.view) (ordered_of_view loads.view)

theorem suits_step {state after : State} (step : Step world (Engine stream) state after)
    (shaped : Shaped (Fits stream) state)
    (generations : state.phase.AtGeneration state.publisher.active.generation)
    (specified : state.phase.Specified)
    (latest : publishedAfter start state.publisher.shared.frames = state.publisher.shared.published)
    (each : History.Each (Suits stream start) state.publisher.shared.frames) :
    History.Each (Suits stream start) after.publisher.shared.frames := by
  cases step with
  | validate => exact suits_send each latest (.blockValidated _) rfl rfl
  | @announce p env stage block changes inherited applied projection _ delta _ inherits changed
      assembled =>
    obtain ⟨values, bits⟩ := applyChanges_lengths changed
    rw [inherits.whole] at values
    rw [List.length_replicate] at bits
    subst assembled
    -- An executed block is sent only where the stream publishes them.
    refine suits_send each latest (.blockState ⟨rfl, values⟩ bits fun early => ?_) rfl rfl
    cases delta with
    | executed admitted => exact admitted.2 _ _ _ _ rfl
    | fallback | deferred => cases early
  | retire _ nonempty =>
    exact suits_send each latest (.candidatesRetired nonempty specified.1) generations.1 rfl
  | reject _ admitted =>
    cases admitted.1
    exact suits_send each latest (.blockRejected _) rfl rfl
  | head =>
    obtain ⟨whole, bits⟩ := shaped.heading
    exact suits_send each latest (.canonicalHead _ whole bits) generations whole.typed
  | fence _ _ _ ordered => exact suits_send each latest (.forkchoiceApplied ordered) rfl rfl
  | gap => exact suits_send each latest (.gap _ _) rfl rfl
  | retryGap => exact suits_send each latest (.gap _ _) rfl rfl
  | @anchor p env _ loaded _ loads =>
    have typed := loads.whole.typed
    refine suits_send (p := p.installSnapshot env loaded) each latest (loads.proper _) ?_ typed
    exact congrArg WatchSet.generation typed
  | @activate p env watchSet loaded _ admitted newer loads =>
    have typed := loads.whole.typed
    -- The dictionary is announced first, and the snapshot behind it is checked against the new one.
    have installed : publishedAfter start (p.installSnapshot env loaded).shared.frames =
        (p.installSnapshot env loaded).shared.published := latest
    have fits := Config.valid_of_validate admitted.1
    refine suits_send (suits_config each installed newer fits typed) (publishedAfter_send installed)
      ?_ ?_ rfl
    · change Proper stream.publishExecuted loaded.projection.watchSet _
      rw [typed]
      exact loads.proper _
    · exact congrArg WatchSet.generation typed.symm
  | _ => exact each

theorem views_step {state after : State} (step : Step world (Engine stream) state after)
    (views : Views state.publisher.shared.frames) : Views after.publisher.shared.frames := by
  have plain {p : Publisher} {env : Env} {generation : Generation} {event : Wire.Event}
      (views : Views p.shared.frames) : Views (p.send env generation event none).shared.frames :=
    views_send views nofun
  cases step with
  | validate | announce | retire | reject => exact plain views
  | head | gap | retryGap =>
    refine views_send views ?_
    rintro _ _ _ ⟨⟩
  | fence _ _ _ ordered =>
    refine views_send views ?_
    rintro _ _ _ ⟨⟩
    exact ordered
  | @anchor p env _ loaded _ loads =>
    refine views_send (p := p.installSnapshot env loaded) views ?_
    rintro _ _ _ ⟨⟩
    exact ordered_of_view loads.view
  | @activate p env _ loaded _ _ _ loads =>
    refine plain (views_send (p := p.installSnapshot env loaded) views ?_)
    rintro _ _ _ ⟨⟩
    exact ordered_of_view loads.view
  | _ => exact views

structure Fitting (stream : StreamConfig) (start : Publisher) (shared : Shared) : Prop where
  each : History.Each (Suits stream start) shared.frames
  views : Views shared.frames
  archived : Archived (Fits stream) shared

theorem fitting_reaches {options : Publisher.ServiceOptions} {watchSet : WatchSet} {state : State}
    (fits : Fits stream watchSet)
    (started : Publisher.startService env options watchSet = some start)
    (run : Steps world (Engine stream) ⟨.idle, start⟩ state) :
    Fitting stream start state.publisher.shared := by
  have activates (p : Publisher) (watchSet : WatchSet)
      (admitted : Engine stream p (.activation watchSet)) : Fits stream watchSet :=
    Config.valid_of_validate admitted.1
  have silent : start.shared.frames = [] := by
    obtain ⟨loaded, _, rfl⟩ := Publisher.startService_eq_some.mp started
    rfl
  have invariant := @steps_invariant world (Engine stream)
    (fun state => Streaming options.bootId (Monitor.initial start) state ∧
      Shaped (Fits stream) state ∧ state.phase.Specified ∧
      History.Each (Suits stream start) state.publisher.shared.frames ∧
      Views state.publisher.shared.frames) _ _ run
    ⟨streaming_initial started, shaped_initial fits started, trivial, by
      change History.Each _ start.shared.frames
      rw [silent]
      exact History.each_nil, by
      change Views start.shared.frames
      rw [silent]
      exact fun _ member => absurd member List.not_mem_nil⟩
    (fun state after holds step => by
      obtain ⟨streaming, shaped, specified, each, views⟩ := holds
      obtain ⟨monitor, stream, tracks⟩ := id streaming
      have latest : publishedAfter start state.publisher.shared.frames =
          state.publisher.shared.published := (Monitor.latest_stream stream).trans tracks.published
      exact ⟨streaming_step (Monitor.coherent_initial started) streaming step,
        shaped_step activates shaped step, specified_step specified step,
        suits_step step shaped tracks.generations specified latest each, views_step step views⟩)
  obtain ⟨_, _, _, each, views⟩ := invariant
  exact ⟨each, views, (shaped_reaches activates fits started run).2⟩

def NamedGaps (frames : List PublishedFrame) : Prop :=
  ∀ frame ∈ frames, ∀ gap, frame.envelope.event = some (.gap gap) → gap.reason ∈ gapReasons

theorem namedGaps_send (named : NamedGaps p.shared.frames)
    (known : ∀ gap, event = .gap gap → gap.reason ∈ gapReasons) :
    NamedGaps (p.send env generation event nextState).shared.frames := by
  intro frame member gap read
  rcases List.mem_append.mp member with earlier | last
  · exact named frame earlier gap read
  · cases List.mem_singleton.mp last
    exact known gap (Option.some.inj read)

theorem namedGaps_step {offers : Publisher → Input → Prop} {state after : State}
    (working : ∀ p, ¬ offers p .retry) (step : Step world offers state after)
    (named : NamedGaps state.publisher.shared.frames) :
    NamedGaps after.publisher.shared.frames := by
  cases step with
  | validate | announce | retire | reject | head | fence =>
    refine namedGaps_send named ?_
    rintro _ ⟨⟩
  | gap =>
    refine namedGaps_send named ?_
    rintro _ ⟨⟩
    exact (by decide : "canonical_state_reset" ∈ gapReasons)
  | retryGap _ admitted => exact absurd admitted (working _)
  | @anchor p env _ loaded =>
    refine namedGaps_send (p := p.installSnapshot env loaded) named ?_
    rintro _ ⟨⟩
  | @activate p env _ loaded =>
    refine namedGaps_send (namedGaps_send (p := p.installSnapshot env loaded) named ?_) ?_
    · rintro _ ⟨⟩
    · rintro _ ⟨⟩
  | _ => exact named

theorem namedGaps_retryReanchor (reason : String) (named : NamedGaps p.shared.frames) :
    NamedGaps (Loop.retryReanchor env reason p).publisher.shared.frames := by
  have left : NamedGaps (Publisher.reanchor env p).2.shared.frames := by
    refine (reanchor_ensures env (fun _ after => NamedGaps after.shared.frames)
      (fun _ after => NamedGaps after.shared.frames) (fun _ _ => named) fun loaded _ => ?_).elim
    refine namedGaps_send (p := p.installSnapshot env loaded) named ?_
    rintro _ ⟨⟩
  unfold Loop.retryReanchor
  split
  · next returned =>
    rw [returned] at left
    exact left
  · next returned =>
    rw [returned] at left
    exact left

theorem namedGaps_retry (announced : Bool) {reason : String} (known : reason ∈ gapReasons)
    (named : NamedGaps p.shared.frames) :
    NamedGaps (Loop.retry env announced reason p).publisher.shared.frames := by
  have left : NamedGaps (Publisher.announceGap env reason p).2.shared.frames := by
    refine (announceGap_ensures env reason (fun _ after => NamedGaps after.shared.frames)
      (fun _ after => NamedGaps after.shared.frames) (fun _ _ => named) ?_).elim
    refine namedGaps_send named ?_
    rintro _ ⟨⟩
    exact known
  unfold Loop.retry
  split
  · exact namedGaps_retryReanchor reason named
  · split
    · next returned =>
      rw [returned] at left
      exact namedGaps_retryReanchor reason left
    · next returned =>
      rw [returned] at left
      exact left

theorem namedGaps_reaches {allowed : Publisher → Env → Input → Prop} {loop : Loop}
    (silent : start.shared.frames = []) (reached : Loop.Reaches allowed start loop) :
    NamedGaps loop.publisher.shared.frames := by
  induction reached with
  | refl =>
    change NamedGaps start.shared.frames
    rw [silent]
    exact fun _ member => absurd member List.not_mem_nil
  | @tail before after earlier round ih =>
    have known := fun announced reason => @Loop.reason_reaches _ _ _ earlier announced reason
    obtain ⟨env, input, _, taken⟩ := round
    -- The machine may take this input and no other.
    have idle (working : input ≠ .retry) : NamedGaps after.publisher.shared.frames := by
      have steps : Steps (fun _ => True) (fun _ other => other = input) (.ofLoop before)
          (.ofLoop after) := round_steps ⟨env, input, ⟨trivial, rfl⟩, taken⟩
      exact @steps_invariant _ _ (fun state => NamedGaps state.publisher.shared.frames) _ _ steps ih
        (fun _ _ named step => namedGaps_step (fun _ same => working same.symm) step named)
    obtain ⟨publisher, control⟩ := before
    cases input with
    | retry =>
      cases control with
      | idle => cases taken
      | recovering announced reason =>
        cases taken
        exact namedGaps_retry announced (known announced reason rfl) ih
    | _ => exact idle (by simp)

end Machine

section

variable {stream : StreamConfig} {start : Publisher}

theorem checkEnvelope_suits {before : List PublishedFrame} {frame : PublishedFrame}
    (suits : Suits stream start before frame)
    (named : ∀ gap, frame.envelope.event = some (.gap gap) → gap.reason ≠ "") :
    (Consumer.following (advertisedCapabilities stream.publishExecuted)
        (publishedAfter start before).canonical.watchSet).checkEnvelope frame.envelope =
      .ok (.following (advertisedCapabilities stream.publishExecuted)
        (publishedAfter start (before ++ [frame])).canonical.watchSet) := by
  unfold Consumer.checkEnvelope
  cases suits with
  | live active read stamped proper kept =>
    rw [active, kept, read, stamped]
    refine check_proper proper fun gap same => named gap ?_
    rw [read, same]
  | config newer read stamped fits activated =>
    rw [activated, read, stamped]
    refine checkConfig_activated fits.indexed ?_
    rintro active ⟨⟩
    exact newer.le

theorem run_suits {joined more : List PublishedFrame}
    (each : History.Each (Suits stream start) (joined ++ more))
    (named : ∀ frame ∈ more, ∀ gap, frame.envelope.event = some (.gap gap) → gap.reason ≠ "") :
    Acceptor.run Consumer.checkEnvelope
        (.following (advertisedCapabilities stream.publishExecuted)
          (publishedAfter start joined).canonical.watchSet) (more.map PublishedFrame.envelope) =
      .ok (.following (advertisedCapabilities stream.publishExecuted)
        (publishedAfter start (joined ++ more)).canonical.watchSet) := by
  induction more generalizing joined with
  | nil =>
    rw [List.append_nil]
    rfl
  | cons frame more ih =>
    have taken := checkEnvelope_suits (each joined frame more rfl) (named frame List.mem_cons_self)
    have split : joined ++ frame :: more = joined ++ [frame] ++ more := by simp
    rw [split] at each ⊢
    rw [List.map_cons, Acceptor.run, taken]
    exact ih each fun other member => named other (List.mem_cons_of_mem _ member)

/-- A changed bitmap has one bit for each key of the active dictionary, in whole bytes. -/
def ExactBitmap (consumer : Consumer) (envelope : Wire.Envelope) : Prop :=
  ∀ event bitmap, envelope.event = some event → event.changedBitmap = some bitmap →
    bitmap.length = bitmapLen consumer.keyCount

theorem exactBitmap_suits {before : List PublishedFrame} {frame : PublishedFrame}
    (suits : Suits stream start before frame) (capabilities : Nat) :
    ExactBitmap (.following capabilities (publishedAfter start before).canonical.watchSet)
      frame.envelope := by
  intro event bitmap carried shown
  cases suits with
  | live active read _ proper _ =>
    cases read.symm.trans carried
    rw [active]
    cases proper with
    | blockState _ bits _ | canonicalHead _ _ bits =>
      cases shown
      exact bits
    | _ => cases shown
  | config _ read _ _ _ =>
    cases read.symm.trans carried
    cases shown

theorem along_suits {joined more : List PublishedFrame}
    (each : History.Each (Suits stream start) (joined ++ more))
    (named : ∀ frame ∈ more, ∀ gap, frame.envelope.event = some (.gap gap) → gap.reason ≠ "") :
    Acceptor.Along Consumer.checkEnvelope ExactBitmap
      (.following (advertisedCapabilities stream.publishExecuted)
        (publishedAfter start joined).canonical.watchSet) (more.map PublishedFrame.envelope) := by
  induction more generalizing joined with
  | nil => trivial
  | cons frame more ih =>
    have suits := each joined frame more rfl
    have taken := checkEnvelope_suits suits (named frame List.mem_cons_self)
    have split : joined ++ frame :: more = joined ++ [frame] ++ more := by simp
    rw [split] at each
    refine ⟨exactBitmap_suits suits _, fun after passed => ?_⟩
    cases taken.symm.trans passed
    exact ih each fun other member => named other (List.mem_cons_of_mem _ member)

theorem matches_of_accept {committedSequence : Nat} {published : PublishedState}
    {handshake : Handshake} (accepted : Handshake.accept committedSequence published = .ok handshake) :
    Monitor.Matches handshake.forkchoice handshake.canonical.block := by
  unfold Handshake.accept at accepted
  split at accepted
  · cases accepted
  split at accepted
  · cases accepted
  split at accepted
  · cases accepted
  · next same =>
    cases accepted
    rw [not_or, not_not, not_not] at same
    exact ⟨same.2, same.1⟩

theorem run_greeting {bootId : Bytes} {shared : Shared} {handshake : Handshake}
    {hello config shown : Wire.Envelope}
    (greets : Session.Greets bootId handshake [hello, config, shown] (handshake.events shared))
    (capabilities : shared.capabilities = advertisedCapabilities stream.publishExecuted)
    (fits : Fits stream handshake.canonical.watchSet)
    (proper : Proper stream.publishExecuted handshake.canonical.watchSet
      (.snapshot (snapshot handshake.canonical handshake.forkchoice))) (rest : List Wire.Envelope) :
    Consumer.checkAll (hello :: config :: shown :: rest) =
        Acceptor.run Consumer.checkEnvelope (.following
          (advertisedCapabilities stream.publishExecuted) handshake.canonical.watchSet) rest ∧
      (Acceptor.Along Consumer.checkEnvelope ExactBitmap (.following
          (advertisedCapabilities stream.publishExecuted) handshake.canonical.watchSet) rest →
        Acceptor.Along Consumer.checkEnvelope ExactBitmap .initial
          (hello :: config :: shown :: rest)) := by
  obtain ⟨helloStamped, configStamped, shownStamped⟩ := greets_events greets
  have lifecycle := advertised_lifecycle stream.publishExecuted
  have first : Consumer.initial.checkEnvelope hello =
      .ok { Consumer.initial with
        capabilities := advertisedCapabilities stream.publishExecuted } := by
    unfold Consumer.checkEnvelope
    rw [helloStamped.event]
    simp only [Consumer.check, Consumer.checkHello, Shared.hello, capabilities]
    rw [ensure_bind (by simp), ensure_bind (by simp [lifecycle.1, lifecycle.2.1])]
  have second : ({ Consumer.initial with
      capabilities := advertisedCapabilities stream.publishExecuted } : Consumer).checkEnvelope
        config = .ok (.following (advertisedCapabilities stream.publishExecuted)
          handshake.canonical.watchSet) := by
    unfold Consumer.checkEnvelope
    rw [configStamped.event, configStamped.generation]
    exact checkConfig_activated fits.indexed nofun
  have third : (Consumer.following (advertisedCapabilities stream.publishExecuted)
      handshake.canonical.watchSet).checkEnvelope shown =
        .ok (.following (advertisedCapabilities stream.publishExecuted)
          handshake.canonical.watchSet) := by
    unfold Consumer.checkEnvelope
    rw [shownStamped.event, shownStamped.generation]
    exact check_proper proper nofun
  -- The greeting carries no bitmap, so nothing is asked of it.
  have unmarked (consumer : Consumer) {envelope : Wire.Envelope} {event : Wire.Event}
      (carried : envelope.event = some event) (none : event.changedBitmap = none) :
      ExactBitmap consumer envelope := by
    intro other bitmap read shown
    cases carried.symm.trans read
    cases none.symm.trans shown
  refine ⟨by simp only [Consumer.checkAll, Acceptor.run, first, second, third], fun along => ?_⟩
  refine ⟨unmarked _ helloStamped.event rfl, fun after passed => ?_⟩
  cases first.symm.trans passed
  refine ⟨unmarked _ configStamped.event rfl, fun after passed => ?_⟩
  cases second.symm.trans passed
  refine ⟨unmarked _ shownStamped.event rfl, fun after passed => ?_⟩
  cases third.symm.trans passed
  exact along

end

/-- A snapshot that a consumer of `watchSet` can be shown. -/
structure CanonicalSnapshot.Presentable (watchSet : WatchSet) (loaded : CanonicalSnapshot) :
    Prop where
  whole : loaded.projection.Whole watchSet
  matched : Monitor.Matches loaded.forkchoice loaded.projection.block
  ordered : loaded.forkchoice.Ordered

theorem Machine.Loads.presentable {env : Env} {p : Publisher} {watchSet : WatchSet}
    {loaded : CanonicalSnapshot} (loads : Loads env p watchSet loaded) :
    loaded.Presentable watchSet :=
  ⟨loads.whole, Monitor.matches_of_view loads.view,
    validateForkchoiceCheckpoints_ok.mp (ordered_of_view loads.view)⟩

/-- What the source returns badly, and a view that is not ordered, ends the operation with an
error before anything of it is published. -/
structure Refuses (p : Publisher) : Prop where
  reanchor : ∀ env loaded, env.loadLatest p.active = some loaded → ¬ loaded.Presentable p.active →
    ∃ failure, Publisher.reanchor env p = (.error failure, p)
  activate : ∀ env watchSet loaded, p.active.generation < watchSet.generation →
    env.loadLatest watchSet = some loaded → ¬ loaded.Presentable watchSet →
    ∃ failure, Publisher.activate env watchSet p = (.error failure, p)
  parent : ∀ env observedAt block changes parent, p.snapshotAnchoredAt < observedAt →
    Fresh p block → Publisher.parentProjection p.store block = none →
    env.loadAt p.active block.parentHash = some parent →
    ¬ (parent.Whole p.active ∧ parent.block.hash = block.parentHash ∧
      parent.block.number + 1 = block.number) →
    ∃ failure, Publisher.handle env
      (.validatedFallback observedAt p.active.generation block changes) p = (.error failure, p)
  head : ∀ env observedAt generation applied projection, p.snapshotAnchoredAt < observedAt →
    generation ≤ p.active.generation →
    applied.headHash ≠ p.shared.published.canonical.block.hash →
    Publisher.canonicalProjection env p generation applied.headHash = .ok projection →
    ¬ (projection.Whole p.active ∧ projection.block.hash = applied.headHash) →
    ∃ failure, Publisher.handle env (.forkchoiceApplied observedAt generation applied) p =
      (.error failure, p)
  view : ∀ env observedAt generation applied moved after, p.snapshotAnchoredAt < observedAt →
    generation ≤ p.active.generation →
    Publisher.canonical env generation observedAt none applied.headHash p = (.ok moved, after) →
    ¬ (applied.resolve after.shared.published.canonical.block.number).Ordered →
    ∃ failure, Publisher.handle env (.forkchoiceApplied observedAt generation applied) p =
      (.error failure, after)

theorem publishForkchoice_refused {env : Env} {applied : AppliedForkchoiceMeta} {p : Publisher}
    (malformed : ¬ (applied.resolve p.shared.published.canonical.block.number).Ordered) :
    ∃ failure, Publisher.publishForkchoice env applied p = (.error failure, p) := by
  apply refused_of_ensures
  unfold Publisher.publishForkchoice
  rw [ensures_bind, ensures_get]
  split
  · rfl
  · unfold Publisher.publishView
    rw [ensures_bind, ensures_get, ensures_bind, ensures_ofExcept]
    refine ⟨fun _ accepted => ?_, fun _ _ => rfl⟩
    exact absurd (validateForkchoiceCheckpoints_ok.mp accepted) malformed

theorem canonical_refused {env : Env} {p : Publisher} {generation : Generation}
    {observedAt : Instant} {hash : B256} {projection : Projection}
    (known : generation ≤ p.active.generation) (later : p.snapshotAnchoredAt < observedAt)
    (moved : hash ≠ p.shared.published.canonical.block.hash)
    (found : Publisher.canonicalProjection env p generation hash = .ok projection)
    (malformed : ¬ (projection.Whole p.active ∧ projection.block.hash = hash)) :
    ∃ failure, Publisher.canonical env generation observedAt none hash p = (.error failure, p) := by
  apply refused_of_ensures
  unfold Publisher.canonical
  rw [ensures_bind, ensures_get, if_neg (Nat.not_lt.mpr known), if_neg (Nat.not_le.mpr later),
    if_neg moved, ensures_bind, found, ensures_ofExcept]
  refine ⟨?_, fun _ _ => rfl⟩
  rintro _ ⟨⟩
  rw [ensures_bind, ensures_ofExcept]
  refine ⟨fun _ dictionary => ?_, fun _ _ => rfl⟩
  split
  · rfl
  · next identity =>
    rw [ensures_bind, ensures_ofExcept]
    refine ⟨fun _ shape => ?_, fun _ _ => rfl⟩
    have whole := Projection.whole_of_shape (watchSet_of_dictionary dictionary) shape
    rw [not_or, not_not] at identity
    exact absurd ⟨whole, identity.1⟩ malformed

theorem projectNew_refused {env : Env} {p : Publisher} {block : BlockMeta} {changes : BlockChanges}
    {parent : Projection}
    (recent : ¬ (block.number ≤ p.shared.published.canonical.block.number ∧
      (p.store.candidates.get block.parentHash).isNone))
    (missing : Publisher.parentProjection p.store block = none)
    (read : env.loadAt p.active block.parentHash = some parent)
    (malformed : ¬ (parent.Whole p.active ∧ parent.block.hash = block.parentHash ∧
      parent.block.number + 1 = block.number)) :
    ∃ failure, Publisher.projectNew env p.active.generation block changes .validated p =
      (.error failure, p) := by
  apply refused_of_ensures
  unfold Publisher.projectNew
  rw [ensures_bind, ensures_get, if_neg recent, missing]
  dsimp only
  rw [read]
  dsimp only
  rw [ensures_bind, ensures_ofExcept]
  refine ⟨fun values inherited => ?_, fun _ _ => rfl⟩
  obtain ⟨_, typed, identity, shape⟩ := loadedValues_ok inherited
  exact absurd ⟨Projection.whole_of_shape typed shape, identity⟩ malformed

theorem projectCandidate_fresh {env : Env} {p : Publisher} {block : BlockMeta}
    {changes : BlockChanges} {stage : CandidateStage} (fresh : Fresh p block) :
    Publisher.projectCandidate env p.active.generation block changes stage p =
      Publisher.projectNew env p.active.generation block changes stage p := by
  change (if _ then _ else if _ then _ else if _ then _ else _ : Op Publisher Error Bool) p = _
  rw [if_neg (Nat.lt_irrefl _), if_neg (Nat.lt_irrefl _), if_neg fresh.live]
  cases stored : p.store.candidates.get block.hash with
  | none => rfl
  | some entry =>
    obtain ⟨same, bare⟩ := fresh.same entry stored
    dsimp only
    rw [if_neg (not_not.mpr same), bare]
    rfl

theorem forkchoiceApplied_eq {env : Env} {p : Publisher} {generation : Generation}
    {observedAt : Instant} {applied : AppliedForkchoiceMeta}
    (canonical : p.store.canonicalHash = p.shared.published.canonical.block.hash)
    (known : generation ≤ p.active.generation) (later : p.snapshotAnchoredAt < observedAt) :
    Publisher.forkchoiceApplied env generation observedAt applied p =
      (Publisher.canonical env generation observedAt none applied.headHash >>= fun _ =>
        Publisher.publishForkchoice env applied) p := by
  change (if _ then _ else if _ then _ else if _ then _ else _ : Op Publisher Error Bool) p = _
  rw [if_neg (Nat.not_lt.mpr known), if_neg (Nat.not_le.mpr later)]
  by_cases moved : p.store.canonicalHash = applied.headHash
  · -- The head is canonical already, and `canonical` has nothing to do.
    rw [if_neg (not_not.mpr moved)]
    have quiet : Publisher.canonical env generation observedAt none applied.headHash p =
        (.ok false, p) := by
      change (if _ then _ else if _ then _ else if _ then _ else _ : Op Publisher Error Bool) p = _
      rw [if_neg (Nat.not_lt.mpr known), if_neg (Nat.not_le.mpr later),
        if_pos (moved.symm.trans canonical)]
      rfl
    rw [bind_of_returns quiet]
  · rw [if_pos moved]

theorem refuses (p : Publisher)
    (canonical : p.store.canonicalHash = p.shared.published.canonical.block.hash) : Refuses p where
  reanchor env loaded read malformed := by
    apply refused_of_ensures
    refine reanchor_ensures env _ _ (fun _ _ => rfl) fun other loads => ?_
    cases read.symm.trans loads.read
    exact malformed loads.presentable
  activate env watchSet loaded newer read malformed := by
    apply refused_of_ensures
    refine activate_ensures env watchSet _ _ (fun _ _ _ => rfl)
      (fun stale => absurd newer (Nat.not_lt.mpr stale)) fun other _ loads _ => ?_
    cases read.symm.trans loads.read
    exact malformed loads.presentable
  parent env observedAt block changes parent later fresh missing read malformed := by
    have projected := @projectNew_refused env p block changes parent fresh.recent missing read
      malformed
    obtain ⟨failure, failed⟩ := projected
    refine ⟨failure, ?_⟩
    change (if _ then _ else _ : Op Publisher Error Unit) p = _
    rw [if_neg (Nat.not_le.mpr later)]
    exact bind_of_fails ((projectCandidate_fresh fresh).trans failed)
  head env observedAt generation applied projection later known moved found malformed := by
    obtain ⟨failure, failed⟩ := canonical_refused known later moved found malformed
    have applies : Publisher.forkchoiceApplied env generation observedAt applied p =
        (.error failure, p) := by
      rw [forkchoiceApplied_eq canonical known later]
      exact bind_of_fails failed
    exact ⟨failure, (bind_of_returns rfl).trans (bind_of_fails applies)⟩
  view env observedAt generation applied moved after later known adopted malformed := by
    obtain ⟨failure, failed⟩ := @publishForkchoice_refused env applied after malformed
    have applies : Publisher.forkchoiceApplied env generation observedAt applied p =
        (.error failure, after) := by
      rw [forkchoiceApplied_eq canonical known later, bind_of_returns adopted]
      exact failed
    exact ⟨failure, (bind_of_returns rfl).trans (bind_of_fails applies)⟩

section

variable {config : Config} {options : Publisher.ServiceOptions} {env : Env}
  {generation : Generation} {start : Publisher}

theorem proper_handshake {shared : Shared} {handshake : Handshake} {joined : List PublishedFrame}
    {watchSet : WatchSet} {stream : StreamConfig} (fits : Fits stream watchSet)
    (started : Publisher.startService env options watchSet = some start)
    (fitting : Fitting stream start shared) (within : joined <+: shared.frames)
    (joins : Session.Joins start handshake joined) :
    Fits stream handshake.canonical.watchSet ∧
      Proper stream.publishExecuted handshake.canonical.watchSet
        (.snapshot (snapshot handshake.canonical handshake.forkchoice)) := by
  obtain ⟨loaded, starts, made⟩ := Publisher.startService_eq_some.mp started
  obtain ⟨_, view, canonical, _, _⟩ := Session.accepted_of_accept joins.accepted
  have matched := matches_of_accept joins.accepted
  -- The state is the first one, or it was stored with a frame.
  rcases Publication.latest_cases PublishedFrame.stored start.shared.published joined with
    first | ⟨frame, member, stored⟩
  · rw [publishedAfter, first, made] at view canonical
    have whole := starts_whole starts
    have shown : loaded.projection = handshake.canonical := canonical
    have viewed : loaded.forkchoice = handshake.forkchoice := Option.some.inj view
    rw [shown] at whole
    have typed := whole.typed
    subst typed
    have ordered := ordered_of_view starts.view
    rw [viewed] at ordered
    exact ⟨fits, .snapshot whole matched ordered⟩
  · have archived := fitting.archived frame (within.subset member) _ stored
    have ordered := fitting.views frame (within.subset member) _ _ stored view
    obtain ⟨other, good, whole⟩ := archived
    change (publishedAfter start joined).canonical.Whole other at whole
    rw [canonical] at whole
    have typed := whole.typed
    subst typed
    exact ⟨good, .snapshot whole matched ordered⟩

theorem sent_passes (valid : config.Valid) (stream : options.stream = config.stream)
    (started : Publisher.startService env options (WatchSet.compile generation config.watch) =
      some start) {session : Session} {handshake : Handshake}
    (reached : Session.Reaches (Allowed (fun _ => True) (Engine config.stream)) start session)
    (joined : session.connection.handshake = some handshake) :
    (∃ consumer, Consumer.checkAll session.connection.sent = .ok consumer) ∧
      Acceptor.Along Consumer.checkEnvelope ExactBitmap .initial session.connection.sent := by
  have fits : Fits config.stream (WatchSet.compile generation config.watch) := valid
  obtain ⟨loopReached, exposes⟩ := Session.exposes_reaches started reached
  obtain ⟨pending, serves⟩ := Session.serves_reaches started reached joined
  obtain ⟨monitor, streaming, _⟩ := streaming_reaches started loopReached
  obtain ⟨hello, dictionary, shown, greets, sent⟩ := sent_prefix exposes serves
  obtain ⟨earlier, ⟨more, whole⟩, joins⟩ := serves.joined
  have live := Session.live_of_joins (Monitor.coherent_initial started) streaming joins whole
  have fitting : Fitting config.stream start session.shared :=
    fitting_reaches fits started (reaches_steps loopReached)
  obtain ⟨_, _, canonical, _, _⟩ := Session.accepted_of_accept joins.accepted
  obtain ⟨good, proper⟩ := proper_handshake fits started fitting ⟨more, whole⟩ joins
  have capabilities : session.shared.capabilities =
      advertisedCapabilities config.stream.publishExecuted := by
    have same := congrArg Wire.Hello.capabilities (grows_reaches loopReached).hello
    obtain ⟨_, _, rfl⟩ := Publisher.startService_eq_some.mp started
    rw [← stream]
    exact same
  have silent : start.shared.frames = [] := by
    obtain ⟨_, _, rfl⟩ := Publisher.startService_eq_some.mp started
    rfl
  -- The consumer refuses a gap without a reason; the publisher never sends one.
  have named : ∀ frame ∈ more, ∀ gap, frame.envelope.event = some (.gap gap) → gap.reason ≠ "" := by
    intro frame member gap read empty
    have known := namedGaps_reaches silent loopReached frame
      (whole ▸ List.mem_append_right earlier member) gap read
    rw [empty] at known
    exact absurd known (by decide)
  have each := fitting.each
  rw [← whole] at each
  obtain ⟨greeted, marked⟩ := run_greeting greets capabilities good proper (session.live handshake)
  rw [live, ← canonical] at greeted marked
  rw [run_suits each named, ← live] at greeted
  have along := marked (along_suits each named)
  rw [← live] at along
  exact ⟨Acceptor.run_of_prefix _ greeted sent, Acceptor.along_of_prefix _ along sent⟩

end

/-- Under an accepted configuration every frame sent on a connection passes the consumer's content
checks, whatever the source returns and whichever views are applied. Malformed source output and
unordered views end in an error instead. -/
theorem frames_pass_content_checks {config : Config} (accepted : config.validate = .ok ())
    {options : Publisher.ServiceOptions} {env : Env} {generation : Generation} {start : Publisher}
    (stream : options.stream = config.stream)
    (started : Publisher.startService env options (WatchSet.compile generation config.watch) =
      some start) :
    (∀ session handshake,
      Session.Reaches (Allowed (fun _ => True) (Engine config.stream)) start session →
      session.connection.handshake = some handshake →
      (∃ consumer, Consumer.checkAll session.connection.sent = .ok consumer) ∧
        Acceptor.Along Consumer.checkEnvelope ExactBitmap .initial session.connection.sent) ∧
    (∀ loop, Loop.Reaches (Allowed (fun _ => True) (Engine config.stream)) start loop →
      Refuses loop.publisher) ∧
    ∀ (env : Env) (options : Publisher.ServiceOptions) (watchSet : WatchSet)
      (loaded : CanonicalSnapshot), env.loadLatest watchSet = some loaded →
      ¬ loaded.Presentable watchSet → Publisher.startService env options watchSet = none := by
  have valid := Config.valid_of_validate accepted
  refine ⟨?_, ?_, ?_⟩
  · intro session handshake reached joined
    exact sent_passes valid stream started reached joined
  · intro loop reached
    obtain ⟨_, _, tracks⟩ := streaming_reaches started reached
    exact refuses loop.publisher tracks.canonical
  · intro env options watchSet loaded read malformed
    rw [Option.eq_none_iff_forall_not_mem]
    rintro other begun
    obtain ⟨_, passed, _⟩ := Publisher.startService_eq_some.mp begun
    cases read.symm.trans passed.read
    exact malformed ⟨starts_whole passed, Monitor.matches_of_view passed.view,
      validateForkchoiceCheckpoints_ok.mp (ordered_of_view passed.view)⟩

theorem frames_pass_content_checks_sample :
    (Config.mk .default Sample.watchSet.configured).validate = .ok () ∧
    (∃ session, Session.Reaches (Allowed (fun _ => True) (Engine .default)) Sample.start session ∧
      session.connection.sent.length = 4 ∧
      (∃ consumer, Consumer.checkAll session.connection.sent = .ok consumer) ∧
      Acceptor.Along Consumer.checkEnvelope ExactBitmap .initial session.connection.sent) ∧
    Refuses Sample.start := by
  have accepted : (Config.mk .default Sample.watchSet.configured).validate = .ok () := by decide
  obtain ⟨sent, refused, _⟩ := frames_pass_content_checks accepted rfl
    (show Publisher.startService (Sample.env 1 0) Sample.options
      (WatchSet.compile 1 Sample.watchSet.configured) = some Sample.start from Sample.started)
  have admitted : Allowed (fun _ => True) (Engine .default) Sample.start (Sample.env 1 0)
      (.event (Sample.fallback 2 1)) := ⟨trivial, trivial, nofun⟩
  obtain ⟨session, reached, joined, _, length⟩ := Sample.joins admitted
  exact ⟨accepted, ⟨session, reached, length, sent session _ reached joined⟩, refused _ .refl⟩

end Statefeed
