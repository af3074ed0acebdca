import Statefeed.Library.History
import Statefeed.Machine.Inversion
import Statefeed.Machine.Representation
import Statefeed.Store.Verdict

set_option autoImplicit false

namespace Statefeed

def recordCheckpoint (recorded : List Wire.CheckpointRef) (frame : PublishedFrame) :
    List Wire.CheckpointRef :=
  match frame.envelope.event with
  | some (.snapshot snapshot) => (snapshot.forkchoice.bind (·.finalized)).toList
  | some (.forkchoiceApplied applied) => recorded ++ (applied.view.bind (·.finalized)).toList
  | _ => recorded

def Recorded (anchor : Option CheckpointMeta) (frames : List PublishedFrame)
    (checkpoint : CheckpointMeta) : Prop :=
  checkpointRef checkpoint ∈ frames.foldl recordCheckpoint (anchor.map checkpointRef).toList

def Rejected (frames : List PublishedFrame) (hash : B256) : Prop :=
  ∃ frame ∈ frames, ∃ reason,
    frame.envelope.event = some (.blockRejected { blockHash := B256.toVec hash, reason })

section

variable (chain : B256 → BlockMeta) (anchor : Option CheckpointMeta) (frames : List PublishedFrame)

def Forked (hash : B256) : Prop :=
  ∃ above checkpoint, Store.Ascends chain hash above ∧ Recorded anchor frames checkpoint ∧
    (chain above).number = checkpoint.number ∧ above ≠ checkpoint.hash

def Tainted (hash : B256) : Prop :=
  ∃ above, Relation.ReflTransGen (fun child parent => parent = (chain child).parentHash) hash above ∧
    Rejected frames above

def Doomed (hash : B256) : Prop := Forked chain anchor frames hash ∨ Tainted chain frames hash

theorem dooms_doomed :
    Store.Dooms chain (Recorded anchor frames) (Doomed chain anchor frames) where
  conflicts checkpoint hash recorded level differs :=
    .inl ⟨hash, checkpoint, .refl, recorded, level, differs⟩
  inherits hash positive doomed := by
    rcases doomed with ⟨above, checkpoint, ascends, fork⟩ | ⟨above, ascends, rejected⟩
    · exact .inl ⟨above, checkpoint, .head ⟨positive, rfl⟩ ascends, fork⟩
    · exact .inr ⟨above, .head rfl ascends, rejected⟩

end

section

variable {chain : B256 → BlockMeta} {anchor : Option CheckpointMeta} {frames : List PublishedFrame}
  {frame : PublishedFrame}

theorem recorded_concat {checkpoint : CheckpointMeta} :
    Recorded anchor (frames ++ [frame]) checkpoint ↔ checkpointRef checkpoint ∈
      recordCheckpoint (frames.foldl recordCheckpoint (anchor.map checkpointRef).toList) frame := by
  unfold Recorded
  rw [List.foldl_append]
  rfl

theorem Recorded.concat {checkpoint : CheckpointMeta} (recorded : Recorded anchor frames checkpoint)
    (plain : frame.isSnapshot = false) : Recorded anchor (frames ++ [frame]) checkpoint := by
  rw [recorded_concat]
  unfold recordCheckpoint
  unfold PublishedFrame.isSnapshot at plain
  split
  · next snapshot shown =>
    rw [shown] at plain
    cases plain
  · exact List.mem_append_left _ recorded
  · exact recorded

theorem Rejected.concat {hash : B256} (rejected : Rejected frames hash) :
    Rejected (frames ++ [frame]) hash := by
  obtain ⟨earlier, member, told⟩ := rejected
  exact ⟨earlier, List.mem_append_left _ member, told⟩

theorem Doomed.concat {hash : B256} (doomed : Doomed chain anchor frames hash)
    (plain : frame.isSnapshot = false) : Doomed chain anchor (frames ++ [frame]) hash := by
  rcases doomed with ⟨above, checkpoint, ascends, recorded, fork⟩ | ⟨above, ascends, rejected⟩
  · exact .inl ⟨above, checkpoint, ascends, recorded.concat plain, fork⟩
  · exact .inr ⟨above, ascends, rejected.concat⟩

theorem not_forked {finalized hash : B256}
    (consecutive : Lineage.Consecutive (fun hash => (chain hash).parentHash)
      fun hash => (chain hash).number)
    (one : ∀ checkpoint, Recorded anchor frames checkpoint →
      (chain checkpoint.hash).number = checkpoint.number ∧
        Store.Ascends chain finalized checkpoint.hash)
    (comparable : Store.Ascends chain finalized hash ∨ Store.Ascends chain hash finalized) :
    ¬ Forked chain anchor frames hash := by
  rintro ⟨above, checkpoint, ascends, recorded, level, differs⟩
  obtain ⟨height, below⟩ := one checkpoint recorded
  apply differs
  rcases comparable with ancestor | descendant
  · exact Lineage.ancestor_unique consecutive (ancestor.trans ascends) below (level.trans height.symm)
  · exact Lineage.ancestor_unique consecutive ascends (descendant.trans below)
      (level.trans height.symm)

end

def RetiresDoomed (chain : B256 → BlockMeta) (anchor : Option CheckpointMeta)
    (before : List PublishedFrame) (frame : PublishedFrame) : Prop :=
  ∀ batch, frame.envelope.event = some (.candidatesRetired batch) →
    batch.reason = Wire.RetirementReason.finalizedConflict.code →
    ∀ bytes ∈ batch.blockHashes, ∃ hash, bytes = B256.toVec hash ∧ Doomed chain anchor before hash

namespace Machine

def Phase.Condemns (doomed : B256 → Prop) : Phase → Prop
  | .placed _ next | .trimming _ next => next.Condemns doomed
  | .retiring _ hashes reason next =>
    (reason = .finalizedConflict → ∀ hash ∈ hashes, doomed hash) ∧ next.Condemns doomed
  | _ => True

theorem Phase.Condemns.mono {doomed doomed' : B256 → Prop} {phase : Phase}
    (condemns : phase.Condemns doomed) (worse : ∀ hash, doomed hash → doomed' hash) :
    phase.Condemns doomed' := by
  induction phase with
  | placed _ next ih => exact ih condemns
  | trimming _ next ih => exact ih condemns
  | retiring _ hashes reason next ih =>
    exact ⟨fun conflict hash member => worse hash (condemns.1 conflict hash member), ih condemns.2⟩
  | _ => trivial

variable {chain : B256 → BlockMeta} {anchor : Option CheckpointMeta}

structure Fair (chain : B256 → BlockMeta) (anchor : Option CheckpointMeta) (phase : Phase)
    (p : Publisher) : Prop where
  judged : Store.Judged chain (Recorded anchor p.shared.frames)
    (Doomed chain anchor p.shared.frames) p.store
  condemns : phase.Condemns (Doomed chain anchor p.shared.frames)
  published : History.Each (RetiresDoomed chain anchor) p.shared.frames

variable {phase next : Phase} {p : Publisher} {event : Wire.Event}

theorem Fair.send (fair : Fair chain anchor phase p) (env : Env) (generation : Generation)
    (stored : Option (Projection × Option ForkchoiceMeta × Bool))
    (plain : Dump.isSnapshot event = false)
    (retires : ∀ batch, event = .candidatesRetired batch →
      batch.reason = Wire.RetirementReason.finalizedConflict.code → ∀ bytes ∈ batch.blockHashes,
      ∃ hash, bytes = B256.toVec hash ∧ Doomed chain anchor p.shared.frames hash) :
    Fair chain anchor phase (p.send env generation event stored) where
  judged := fair.judged.mono (fun _ recorded => recorded.concat plain)
    fun _ doomed => doomed.concat plain
  condemns := fair.condemns.mono fun _ doomed => doomed.concat plain
  published := by
    refine History.each_concat.mpr ⟨fair.published, ?_⟩
    rintro batch ⟨rfl⟩
    exact retires batch rfl

theorem Fair.subside {store : Store} (fair : Fair chain anchor phase p)
    (subsides : Store.Subsides (Doomed chain anchor p.shared.frames) p.store store)
    (condemns : next.Condemns (Doomed chain anchor p.shared.frames)) :
    Fair chain anchor next (p.withStore store) :=
  ⟨fair.judged.subside subsides, condemns, fair.published⟩

theorem Fair.place {store : Store} {block : BlockMeta} {incarnation : Nat}
    (fair : Fair chain anchor phase p) (known : block = chain block.hash)
    (places : Store.Places p.store store block incarnation)
    (condemns : next.Condemns (Doomed chain anchor p.shared.frames)) :
    Fair chain anchor next (p.withStore store) :=
  ⟨fair.judged.place known places, condemns, fair.published⟩

theorem Fair.turn (fair : Fair chain anchor phase p)
    (condemns : next.Condemns (Doomed chain anchor p.shared.frames)) : Fair chain anchor next p :=
  ⟨fair.judged, condemns, fair.published⟩

theorem Fair.reanchor {q : Publisher} {now : Instant} {loaded : CanonicalSnapshot}
    {frame : PublishedFrame} (fair : Fair chain anchor phase p)
    (known : loaded.projection.block = chain loaded.projection.block.hash)
    (frames : q.shared.frames = p.shared.frames ++ [frame])
    (shown : frame.envelope.event = some (.snapshot (snapshot loaded.projection loaded.forkchoice)))
    (reset : q.store = p.store.resetCandidates now loaded.projection loaded.forkchoice) :
    Fair chain anchor .idle q where
  judged := by
    rw [reset]
    apply Store.judged_resetCandidates now p.store known
    intro checkpoint finalized
    rw [frames, recorded_concat]
    simp [recordCheckpoint, shown, snapshot, forkchoiceView, finalized]
  condemns := trivial
  published := by
    rw [frames]
    refine History.each_concat.mpr ⟨fair.published, fun batch told => ?_⟩
    rw [shown] at told
    cases told

theorem Fair.reject {hash : B256} {reason : String} (fair : Fair chain anchor phase p) (env : Env)
    (generation : Generation) :
    Fair chain anchor .idle ((p.send env generation
      (.blockRejected { blockHash := B256.toVec hash, reason }) none).withStore
        (p.store.removeCandidateTree hash true)) := by
  have sent := @Fair.send _ _ _ _ (.blockRejected { blockHash := B256.toVec hash, reason }) fair env
    generation none rfl nofun
  have told : Rejected (p.send env generation
      (.blockRejected { blockHash := B256.toVec hash, reason }) none).shared.frames hash :=
    ⟨_, List.mem_append_right _ List.mem_cons_self, reason, rfl⟩
  have removed := Store.subsides_removeCandidateTree hash p.store
    (show Tainted chain (p.send env generation
      (.blockRejected { blockHash := B256.toVec hash, reason }) none).shared.frames hash from
      ⟨hash, .refl, told⟩)
    fun parent child member => by
      rintro ⟨above, ascends, rejected⟩
      exact ⟨above, .head (fair.judged.children parent child member).symm ascends, rejected⟩
  exact sent.subside (removed.mono fun _ => .inr) trivial

theorem Fair.crown {hash : B256} (fair : Fair chain anchor phase p) (now : Instant) (sequence : Nat)
    (condemns : next.Condemns (Doomed chain anchor p.shared.frames)) :
    Fair chain anchor next
      (p.withStore (Publisher.commitCanonical now hash sequence p.store)) := by
  have moved : Fair chain anchor phase
      (p.withStore { p.store with canonicalHash := hash }) :=
    ⟨⟨fair.judged.known, fair.judged.children, fair.judged.buried, fair.judged.finalized,
      fair.judged.sweep⟩, fair.condemns, fair.published⟩
  have expiring : Store.Subsides (Doomed chain anchor p.shared.frames)
      { p.store with canonicalHash := hash } _ :=
    Store.subsides_scheduleExpiry now p.store.canonicalHash _
  refine moved.subside (expiring.trans (Store.subsides_modify _ hash _ fun entry => ?_)) condemns
  split <;> exact ⟨rfl, rfl⟩

theorem Fair.fence {applied : AppliedForkchoiceMeta} {view : ForkchoiceMeta}
    (fair : Fair chain anchor (.fencing applied) p) (env : Env) (generation : Generation)
    (stored : Option (Projection × Option ForkchoiceMeta × Bool)) :
    Fair chain anchor (afterFence view p.store).1
      ((p.send env generation (.forkchoiceApplied { view := some (forkchoiceView view) })
        stored).withStore (afterFence view p.store).2) := by
  have sent := @Fair.send _ _ _ _ (.forkchoiceApplied { view := some (forkchoiceView view) }) fair
    env generation stored rfl nofun
  have idle (doomed : B256 → Prop) : (afterFence view p.store).1.Condemns doomed := by
    rcases afterFence_phase view p.store with same | same <;> rw [same] <;> trivial
  refine ⟨?_, idle _, sent.published⟩
  unfold afterFence
  split
  · next finalized newest =>
    split
    · apply sent.judged.beginFinalitySweep
      refine recorded_concat.mpr ?_
      simp [recordCheckpoint, Shared.envelope, forkchoiceView, newest]
    · exact sent.judged
  · exact sent.judged

theorem Fair.sweep (fair : Fair chain anchor phase p) (generation : Generation) (budget : Nat)
    (condemns : next.Condemns (Doomed chain anchor p.shared.frames)) :
    Fair chain anchor
      (.retiring generation (p.store.processFinalityBudget budget).1.2 .finalizedConflict next)
      (p.withStore (p.store.processFinalityBudget budget).2) := by
  obtain ⟨judged, doomed⟩ :=
    fair.judged.processFinalityBudget (dooms_doomed chain anchor p.shared.frames) budget
  exact ⟨judged, ⟨fun _ => doomed, condemns⟩, fair.published⟩

variable {offers : Publisher → Input → Prop}

theorem fair_step {state later : State} (step : Step (Chained chain) offers state later)
    (foretold : ∀ p input, offers p input → Foretold chain input)
    (identified : Identified chain state) (fair : Fair chain anchor state.phase state.publisher) :
    Fair chain anchor later.phase later.publisher := by
  have spreads := spreads_foretold foretold
  cases step with
  | promote => exact fair.subside (Store.subsides_modify _ _ _ fun _ => ⟨rfl, rfl⟩) trivial
  | validate =>
    exact (fair.send _ _ _ (by rfl) (by exact nofun)).subside
      (Store.subsides_modify _ _ _ fun _ => ⟨rfl, rfl⟩) trivial
  | @announce p env stage block changes inherited applied projection lawful delta fresh inherits
      changed assembled =>
    have known := delta.isSound spreads identified.1
    have same : projection.block = block := by rw [assembled]; rfl
    rw [← same] at known
    exact (fair.send _ _ _ (by rfl) (by exact nofun)).place known
      (Store.places_placeCandidate _ _ _ _ _) trivial
  | defer _ delta _ unknown =>
    exact fair.place (delta.isSound spreads identified.1) (Store.places_placeDeferred _ _ _ unknown)
      trivial
  | trimProjections trimmed =>
    exact fair.subside (Store.subsides_of_projections trimmed) ⟨nofun, fair.condemns⟩
  | trimProjectionsFails trimmed =>
    exact fair.subside (Store.subsides_of_projections trimmed) trivial
  | trimMetadata trimmed =>
    exact fair.subside (Store.subsides_of_metadata trimmed) ⟨nofun, fair.condemns⟩
  | trimMetadataFails trimmed =>
    exact fair.subside (Store.subsides_of_metadata trimmed) trivial
  | @retire p env generation batch rest reason next lawful =>
    have sent := @Fair.send _ _ _ _ (.candidatesRetired
      { blockHashes := batch.map B256.toVec, reason := reason.code }) fair env generation none rfl ?_
    · refine sent.turn ⟨fun conflict hash member => ?_, sent.condemns.2⟩
      exact sent.condemns.1 conflict hash (List.mem_append_right _ member)
    · rintro told ⟨rfl⟩ code bytes member
      obtain ⟨hash, listed, rfl⟩ := List.mem_map.mp member
      have conflict : reason = .finalizedConflict := by
        cases reason <;> first | rfl | cases code
      exact ⟨hash, rfl, fair.condemns.1 conflict hash (List.mem_append_left _ listed)⟩
  | retired => exact fair.turn fair.condemns.2
  | reject => exact fair.reject _ _
  | adopt lawful _ _ _ _ found dictionary =>
    have good := canonicalProjection_holds spreads lawful identified.1 found
      (watchSet_of_dictionary dictionary)
    exact fair.place good.2 (Store.places_placeCandidate _ _ _ _ _) trivial
  | head => exact (fair.send _ _ _ (by rfl) (by exact nofun)).crown _ _ trivial
  | reaffirm => exact fair.turn trivial
  | fence => exact fair.fence _ _ _
  | sweep => exact fair.sweep _ _ trivial
  | maintain => exact fair.sweep _ _ trivial
  | expire => exact fair.subside (Store.subsides_removeEach _ _ _) ⟨nofun, trivial⟩
  | gap => exact (fair.send _ _ _ (by rfl) (by exact nofun)).turn trivial
  | retryGap => exact (fair.send _ _ _ (by rfl) (by exact nofun)).turn trivial
  | anchor lawful loads => exact fair.reanchor (lawful.latest _ _ loads.read) rfl rfl rfl
  | @activate p env watchSet loaded lawful _ _ loads =>
    have configured := @Fair.send _ _ _ _ (.configActivated (configActivated watchSet)) fair env
      watchSet.generation (some (loaded.projection, some loaded.forkchoice, false)) rfl nofun
    exact configured.reanchor (lawful.latest _ _ loads.read) rfl rfl rfl
  | retryBurns => exact ⟨fair.judged, trivial, fair.published⟩
  | retryAnchor => exact fair.turn trivial
  | anchorRefused => exact fair.turn trivial
  | anchorFails => exact fair.turn trivial
  | refuse => exact fair.turn trivial
  | burn => exact ⟨fair.judged, trivial, fair.published⟩
  | recover => exact fair.turn trivial
  | loss => exact fair.turn trivial

theorem fair_initial {env : Env} {options : Publisher.ServiceOptions} {watchSet : WatchSet}
    {start : Publisher} (chained : Chained chain env)
    (started : Publisher.startService env options watchSet = some start) :
    Fair chain (start.shared.published.forkchoice.bind (·.finalized)) .idle start := by
  obtain ⟨loaded, starts, rfl⟩ := Publisher.startService_eq_some.mp started
  refine ⟨?_, trivial, History.each_nil⟩
  apply Store.judged_newConfigured _ _ (chained.latest _ _ starts.read)
  intro checkpoint finalized
  simp [Recorded, Publisher.initial, finalized]

end Machine

/-- A hash published as conflicting with finality has an ancestor at the height of a checkpoint
recorded since the last anchor that is another block, or a rejected one. If the checkpoints lie
on one chain with it, it is the latter. -/
theorem finality_retirement_sound {chain : B256 → BlockMeta} {env : Env}
    {options : Publisher.ServiceOptions} {watchSet : WatchSet} {start : Publisher} {loop : Loop}
    (chained : Chained chain env)
    (started : Publisher.startService env options watchSet = some start)
    (reached : Loop.Reaches (Machine.Allowed (Chained chain) fun _ => Foretold chain) start loop)
    {before after : List PublishedFrame} {frame : PublishedFrame} {batch : Wire.CandidatesRetired}
    {bytes : Bytes} (published : loop.publisher.shared.frames = before ++ frame :: after)
    (retired : frame.envelope.event = some (.candidatesRetired batch))
    (conflict : batch.reason = Wire.RetirementReason.finalizedConflict.code)
    (named : bytes ∈ batch.blockHashes) :
    let anchor := start.shared.published.forkchoice.bind (·.finalized)
    ∃ hash, bytes = B256.toVec hash ∧
      (Forked chain anchor before hash ∨ Tainted chain before hash) ∧
      ∀ finalized,
        Lineage.Consecutive (fun hash => (chain hash).parentHash) (fun hash => (chain hash).number) →
        (∀ checkpoint, Recorded anchor before checkpoint →
          (chain checkpoint.hash).number = checkpoint.number ∧
            Store.Ascends chain finalized checkpoint.hash) →
        Store.Ascends chain finalized hash ∨ Store.Ascends chain hash finalized →
        Tainted chain before hash := by
  have identified := Machine.stored_initial chained started
  have fair := @Machine.reaches_invariant _ _ (fun state => Machine.Identified chain state ∧
      Machine.Fair chain (start.shared.published.forkchoice.bind (·.finalized)) state.phase
        state.publisher) start loop reached
    ⟨identified.1, Machine.fair_initial chained started⟩ fun state after holds step =>
      ⟨Machine.filled_step (Machine.spreads_foretold fun _ _ => id) holds.1 step,
        Machine.fair_step step (fun _ _ => id) holds.1 holds.2⟩
  obtain ⟨hash, rfl, doomed⟩ :=
    fair.2.published before frame after published batch retired conflict bytes named
  refine ⟨hash, rfl, doomed, fun finalized consecutive one comparable => ?_⟩
  exact doomed.resolve_left (not_forked consecutive one comparable)

namespace Sample

def taintedBranch : List Input :=
  [.event (executed 2 1), .event (.rejected 1 1 2 "block_validation_failed"),
    .event (fallback 3 1),
    .event (.forkchoiceApplied 1 1 { headHash := 1, safe := none, finalized := some ⟨1, 1⟩ })]

theorem foretold_taintedBranch (p : Publisher) (input : Input) (member : input ∈ taintedBranch) :
    Machine.Allowed (Chained block) (fun _ => Foretold block) p (env 1 0) input := by
  refine ⟨sample_chained 1 0, ?_⟩
  simp only [taintedBranch, List.mem_cons, List.not_mem_nil, or_false] at member
  rcases member with rfl | rfl | rfl | rfl
  · exact sample_foretold_executed 2 1
  · exact foretold_of_no_delta (by rintro event ⟨rfl⟩; rfl)
  · exact sample_foretold_fallback 3 1
  · exact foretold_of_no_delta (by rintro event ⟨rfl⟩; rfl)

theorem block_consecutive :
    Lineage.Consecutive (fun hash => (block hash).parentHash) fun hash => (block hash).number := by
  intro hash positive
  have above : 1#256 ≤ hash := by
    rw [BitVec.le_def]
    exact positive
  change (hash - 1#256).toNat + 1 = hash.toNat
  rw [BitVec.toNat_sub_of_le above]
  exact Nat.sub_add_cancel positive

def branchFinalized : Loop :=
  (run (env 1 0) taintedBranch (.start start)).getD (.start start)

theorem branchFinalized_reached :
    Loop.Reaches (Machine.Allowed (Chained block) fun _ => Foretold block) start
      branchFinalized := by
  apply reaches_run foretold_taintedBranch
  have ran : (run (env 1 0) taintedBranch (.start start)).isSome = true := by decide +kernel
  obtain ⟨loop, same⟩ := Option.isSome_iff_exists.mp ran
  unfold branchFinalized
  rw [same]
  rfl

theorem branchFinalized_frames :
    (branchFinalized.publisher.shared.frames.getLast?.bind fun frame => frame.envelope.event) =
        some (.candidatesRetired { blockHashes := [B256.toVec 3], reason := 1 }) ∧
      branchFinalized.publisher.shared.frames.dropLast.foldl recordCheckpoint [] =
        [checkpointRef ⟨1, 1⟩] := by
  decide +kernel

end Sample

theorem finality_retirement_sound_sample :
    ∃ loop, Loop.Reaches (Machine.Allowed (Chained Sample.block) fun _ => Foretold Sample.block)
        Sample.start loop ∧
      ∃ before frame, loop.publisher.shared.frames = before ++ [frame] ∧
        frame.envelope.event =
          some (.candidatesRetired { blockHashes := [B256.toVec 3], reason := 1 }) ∧
        Tainted Sample.block before 3 := by
  refine ⟨_, Sample.branchFinalized_reached, ?_⟩
  obtain ⟨event, recorded⟩ := Sample.branchFinalized_frames
  obtain ⟨frame, last, retired⟩ := Option.bind_eq_some_iff.mp event
  have published := (List.dropLast_append_getLast? frame last).symm
  refine ⟨_, frame, published, retired, ?_⟩
  obtain ⟨hash, same, _, sound⟩ := finality_retirement_sound (sample_chained 1 0) Sample.started
    Sample.branchFinalized_reached published retired rfl List.mem_cons_self
  cases B256.toVec_injective same
  apply sound 1 Sample.block_consecutive
  · intro checkpoint seen
    have only : checkpointRef checkpoint = checkpointRef ⟨1, 1⟩ := by
      have member : checkpointRef checkpoint ∈ _ := seen
      rw [show (Sample.start.shared.published.forkchoice.bind (·.finalized)) = none from rfl] at member
      exact List.mem_singleton.mp (recorded ▸ member)
    have number : checkpoint.number = 1 := congrArg Wire.CheckpointRef.number only
    have named : checkpoint.hash = 1 :=
      B256.toVec_injective (congrArg Wire.CheckpointRef.hash only)
    rw [number, named]
    exact ⟨rfl, .refl⟩
  · right
    exact .head ⟨by decide, rfl⟩ (.single ⟨by decide, rfl⟩)

end Statefeed
