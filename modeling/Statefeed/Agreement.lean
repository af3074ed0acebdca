import Statefeed.Machine.Heir
import Statefeed.Store.Tracked
import Statefeed.Stream.Session
import Statefeed.Stream.Tracker

set_option autoImplicit false

namespace Statefeed

open Dump Dump.CandidateTracker

structure Aligned (store : Store) (hash : B256) : Prop where
  foreign : hash ≠ store.canonicalHash
  bridged : ∀ parent child, store.Descends hash parent → parent ≠ hash →
    child ∈ store.treeChildren parent → store.isTracked child = true →
    store.isTracked parent = true
  linked : ∀ child entry, store.candidates.get child = some entry → entry.tracked = true →
    (entry.block.parentHash = hash ∨ store.Descends hash entry.block.parentHash ∧
      store.isTracked entry.block.parentHash = true) →
    child ∈ store.treeChildren entry.block.parentHash

/-- Blocks are numbered, and a rejection that is carried out is aligned. -/
structure Aligning (chain : B256 → BlockMeta) (p : Publisher) (input : Input) : Prop where
  numbered : Numbered chain p input
  aligned : ∀ observedAt hash reason,
    input = .event (.rejected observedAt p.active.generation hash reason) →
    (p.store.candidates.get hash).any (·.stage = .executed) ∨
      (p.store.deferredExecuted.get hash).isSome → Aligned p.store hash

section

variable {chain : B256 → BlockMeta} {loose : B256 → Prop} {store : Store} {root hash : B256}

theorem Aligned.descends (aligned : Aligned store root)
    (formed : Store.WellFormed chain loose store)
    (follows : CandidateTracker.Follows chain {other | store.isTracked other = true} root hash) :
    store.Descends root hash ∧ (hash = root ∨ store.isTracked hash = true) := by
  induction follows with
  | refl => exact ⟨.refl, .inl rfl⟩
  | @tail parent child _ link ih =>
    obtain ⟨descends, inside⟩ := ih
    obtain ⟨tracked, parented⟩ := link
    obtain ⟨entry, stored, live⟩ := Store.isTracked_iff.mp tracked
    have known := (formed.known child _ (Store.record_of_candidate stored)).1
    have above : entry.block.parentHash = parent := by
      rw [← parented, ← known]
      rfl
    have listed := aligned.linked child entry stored live
    rw [above] at listed
    refine ⟨descends.tail (listed ?_), .inr tracked⟩
    rcases inside with same | tracked
    · exact .inl same
    · exact .inr ⟨descends, tracked⟩

theorem Aligned.follows (aligned : Aligned store root)
    (formed : Store.WellFormed chain loose store) (descends : store.Descends root hash)
    (tracked : store.isTracked hash = true) :
    CandidateTracker.Follows chain {other | store.isTracked other = true} root hash := by
  induction descends with
  | refl => exact .refl
  | @tail parent child above edge ih =>
    have link : store.isTracked child = true ∧ (chain child).parentHash = parent :=
      ⟨tracked, formed.parentHash_of_mem edge⟩
    by_cases same : parent = root
    · subst same
      exact .single link
    · exact (ih (aligned.bridged parent child above same edge tracked)).tail link

end

namespace Machine

def Phase.waiting : Phase → List B256
  | .placed _ next | .trimming _ next => next.waiting
  | .retiring _ hashes _ next => hashes ++ next.waiting
  | _ => []

/-- The tracker lists what the publisher tracks and what waits to be retired. The record of a new
head is tracked before it is announced. -/
structure Agrees (chain : B256 → BlockMeta) (limit : Nat) (tracker : CandidateTracker)
    (state : State) : Prop where
  sized : tracker.limit = limit
  nodup : state.phase.waiting.Nodup
  untracked : ∀ hash ∈ state.phase.waiting, state.publisher.store.isTracked hash = false
  lists : state.phase.Keeps → ∃ listed, Lists chain limit listed tracker ∧
    ∀ hash, state.phase.heir ≠ some hash → (hash ∈ listed ↔
      state.publisher.store.isTracked hash = true ∨ hash ∈ state.phase.waiting)

section

variable {chain : B256 → BlockMeta} {limit : Nat} {tracker : CandidateTracker}
  {phase phase' : Phase} {p p' : Publisher}

theorem Agrees.exact (agrees : Agrees chain limit tracker ⟨phase, p⟩) (keeps : phase.Keeps)
    (none : phase.waiting = []) (heirless : phase.heir = .none) :
    Lists chain limit {hash | p.store.isTracked hash = true} tracker := by
  obtain ⟨listed, lists, members⟩ := agrees.lists keeps
  apply lists.congr
  intro hash
  have member := members hash (by rw [heirless]; nofun)
  rw [none] at member
  simpa using member

theorem agrees_of_lists (none : phase.waiting = [])
    (lists : Lists chain limit {hash | p.store.isTracked hash = true} tracker) :
    Agrees chain limit tracker ⟨phase, p⟩ := by
  refine ⟨lists.limit, ?_, ?_, fun _ => ⟨_, lists, fun hash _ => ?_⟩⟩
  · rw [none]
    exact List.nodup_nil
  · rw [none]
    exact fun _ member => absurd member List.not_mem_nil
  · rw [none]
    simp

theorem agrees_of_limit (same : tracker.limit = limit) (resets : ¬ phase.Keeps)
    (none : phase.waiting = []) : Agrees chain limit tracker ⟨phase, p⟩ := by
  refine ⟨same, ?_, ?_, fun keeps => absurd keeps resets⟩
  · rw [none]
    exact List.nodup_nil
  · rw [none]
    exact fun _ member => absurd member List.not_mem_nil

theorem Agrees.shed {retired : List B256} (agrees : Agrees chain limit tracker ⟨phase, p⟩)
    (sheds : Store.Sheds p.store retired p'.store)
    (waiting : phase'.waiting = retired ++ phase.waiting) (heir : phase'.heir = phase.heir)
    (keeps : phase'.Keeps → phase.Keeps) : Agrees chain limit tracker ⟨phase', p'⟩ := by
  have untracked := agrees.untracked
  have kept (hash : B256) (member : hash ∈ phase.waiting) : p'.store.isTracked hash = false := by
    have before := untracked hash member
    have split := sheds.split hash
    cases after : p'.store.isTracked hash with
    | false => rfl
    | true =>
      rw [split.mpr (.inl after)] at before
      cases before
  refine ⟨agrees.sized, ?_, ?_, fun still => ?_⟩
  · rw [waiting]
    apply sheds.nodup.append agrees.nodup
    intro hash new old
    have before := (sheds.split hash).mpr (.inr new)
    rw [untracked hash old] at before
    cases before
  · rw [waiting]
    intro hash member
    rcases List.mem_append.mp member with new | old
    · exact sheds.gone hash new
    · exact kept hash old
  · obtain ⟨listed, lists, members⟩ := agrees.lists (keeps still)
    refine ⟨listed, lists, fun hash other => ?_⟩
    have member := members hash (by rwa [← heir])
    rw [member, sheds.split hash, waiting, List.mem_append, or_assoc]

theorem Agrees.keep (agrees : Agrees chain limit tracker ⟨phase, p⟩)
    (same : ∀ hash, p'.store.isTracked hash = p.store.isTracked hash)
    (waiting : phase'.waiting = phase.waiting) (heir : phase'.heir = phase.heir)
    (keeps : phase'.Keeps → phase.Keeps) : Agrees chain limit tracker ⟨phase', p'⟩ :=
  agrees.shed ((Store.Sheds.refl p.store).keep same) waiting heir keeps

theorem waiting_afterFence (view : ForkchoiceMeta) (store : Store) :
    (afterFence view store).1.waiting = [] := by
  rcases afterFence_phase view store with same | same
  · rw [same]
    rfl
  · rw [same]
    rfl

theorem isTracked_setStage (hash : B256) (stage : CandidateStage) (store : Store) (other : B256) :
    (Publisher.setStage hash stage store).isTracked other = store.isTracked other :=
  Store.isTracked_modify store rfl (fun _ => by rfl) other

theorem isTracked_commitCanonical (now : Instant) (hash : B256) (sequence : Nat) (store : Store)
    (other : B256) :
    (Publisher.commitCanonical now hash sequence store).isTracked other = store.isTracked other := by
  have scheduled : (Store.scheduleExpiry now store.canonicalHash
      { store with canonicalHash := hash }).isTracked other = store.isTracked other :=
    Store.isTracked_scheduleExpiry now store.canonicalHash { store with canonicalHash := hash } other
  rw [← scheduled]
  refine Store.isTracked_modify _ rfl (fun entry => ?_) other
  split <;> rfl

theorem lists_snapshot {projection : Projection} {view : ForkchoiceMeta}
    (same : tracker.limit = limit) (room : 1 ≤ limit)
    (known : projection.block = chain projection.block.hash) :
    Lists chain limit {hash | hash = projection.block.hash}
      (tracker.observe (.snapshot (snapshot projection view))) := by
  subst same
  have inserted := (lists_clear chain tracker).insert projection.block.hash
    [projection.block.hash] (by simp) (by simp) room
  rw [← known] at inserted
  exact inserted.congr fun hash => by simp

def replayed (first : CandidateTracker) (p : Publisher) : CandidateTracker :=
  first.observeAll (p.shared.frames.filterMap (·.envelope.event))

theorem replayed_send (first : CandidateTracker) (env : Env) (generation : Generation)
    (event : Wire.Event) (nextState : Option (Projection × Option ForkchoiceMeta × Bool)) :
    replayed first (p.send env generation event nextState) = (replayed first p).observe event := by
  unfold replayed CandidateTracker.observeAll
  change List.foldl _ _ ((p.shared.frames ++ [_]).filterMap _) = _
  rw [List.filterMap_append, List.foldl_append]
  rfl

theorem replayed_withStore (first : CandidateTracker) (store : Store) :
    replayed first (p.withStore store) = replayed first p := rfl

end

section

variable {chain : B256 → BlockMeta} {offers : Publisher → Input → Prop} {cache metadata limit : Nat}
  {first : CandidateTracker} {p p' : Publisher}

theorem Stored.length_trackedKeys {phase : Phase} (stored : Stored chain cache metadata ⟨phase, p⟩)
    (keeps : phase.Keeps) : p.store.trackedKeys.length ≤ cache + phase.surplus.1 := by
  have formed := stored.formed
  rw [Store.WellFormed.length_trackedKeys formed]
  exact (stored.situated.fits keeps).cached

theorem lists_announce {projection : Projection} {tracker : CandidateTracker}
    (stored : Stored chain cache metadata ⟨.idle, p⟩) (room : cache < limit)
    (known : projection.block = chain projection.block.hash)
    (lists : Lists chain limit {hash | p.store.isTracked hash = true} tracker) :
    Lists chain limit {hash | hash = projection.block.hash ∨ p.store.isTracked hash = true}
      (tracker.insert (B256.toVec projection.block.hash) (B256.toVec projection.block.parentHash)) := by
  have few : p.store.trackedKeys.length ≤ cache := stored.length_trackedKeys trivial
  have inserted := lists.insert projection.block.hash (projection.block.hash :: p.store.trackedKeys)
    (fun hash tracked => List.mem_cons_of_mem _ (Store.mem_trackedKeys.mpr tracked))
    List.mem_cons_self (by rw [List.length_cons]; omega)
  rw [← known] at inserted
  exact inserted

theorem lists_head {projection : Projection} {changedBitmap : Bytes}
    {applied : AppliedForkchoiceMeta} {tracker : CandidateTracker}
    (stored : Stored chain cache metadata ⟨.heading projection changedBitmap applied, p⟩)
    (room : cache < limit) (known : projection.block = chain projection.block.hash)
    (awaited : Awaited ⟨.heading projection changedBitmap applied, p⟩)
    (agrees : Agrees chain limit tracker ⟨.heading projection changedBitmap applied, p⟩) :
    Lists chain limit {hash | p.store.isTracked hash = true}
      (tracker.insert (B256.toVec projection.block.hash) (B256.toVec projection.block.parentHash)) := by
  have few : p.store.trackedKeys.length ≤ cache := stored.length_trackedKeys trivial
  obtain ⟨entry, cached, _, _, live⟩ : Store.Seated projection.block.hash p.store := awaited _ rfl
  have tracked : p.store.isTracked projection.block.hash = true :=
    Store.isTracked_iff.mpr ⟨entry, cached, live⟩
  obtain ⟨listed, lists, members⟩ := agrees.lists trivial
  have other (hash : B256) (different : hash ≠ projection.block.hash) :
      hash ∈ listed ↔ p.store.isTracked hash = true := by
    have member := members hash (by rintro ⟨rfl⟩; exact different rfl)
    simpa [Phase.waiting] using member
  have inserted := lists.insert projection.block.hash p.store.trackedKeys (fun hash member => ?_)
    (Store.mem_trackedKeys.mpr tracked) (by omega)
  · rw [← known] at inserted
    apply inserted.congr
    intro hash
    by_cases same : hash = projection.block.hash
    · simp [same, tracked]
    · simp [same, other hash same]
  · by_cases same : hash = projection.block.hash
    · rw [same]
      exact Store.mem_trackedKeys.mpr tracked
    · exact Store.mem_trackedKeys.mpr ((other hash same).mp member)

theorem lists_reject {hash : B256} {tracker : CandidateTracker}
    (formed : Store.WellFormed chain (fun _ => False) p.store) (aligned : Aligned p.store hash)
    (lists : Lists chain limit {hash | p.store.isTracked hash = true} tracker) :
    Lists chain limit {other | (p.store.removeCandidateTree hash true).isTracked other = true}
      (tracker.removeTree (B256.toVec hash)) := by
  apply (lists.removeTree hash).congr
  intro other
  change _ ∧ _ ↔ (p.store.removeCandidateTree hash true).isTracked other = true
  rw [Store.isTracked_removeCandidateTree true aligned.foreign]
  constructor
  · rintro ⟨tracked, apart⟩
    exact ⟨tracked, fun descends => apart (aligned.follows formed descends tracked)⟩
  · rintro ⟨tracked, apart⟩
    exact ⟨tracked, fun follows => apart (aligned.descends formed follows).1⟩

theorem agrees_retire {generation : Generation} {batch rest : List B256}
    {reason : Wire.RetirementReason} {next : Phase} {tracker : CandidateTracker}
    (agrees : Agrees chain limit tracker ⟨.retiring generation (batch ++ rest) reason next, p⟩)
    (same : p'.store = p.store) :
    Agrees chain limit (tracker.observe (.candidatesRetired
        { blockHashes := batch.map B256.toVec, reason := reason.code }))
      ⟨.retiring generation rest reason next, p'⟩ := by
  have nodup : (batch ++ rest ++ next.waiting).Nodup := agrees.nodup
  have untracked : ∀ hash ∈ batch ++ rest ++ next.waiting, p.store.isTracked hash = false :=
    agrees.untracked
  rw [List.append_assoc] at nodup untracked
  refine ⟨?_, nodup.of_append_right, ?_, fun keeps => ?_⟩
  · exact (limit_removeAll _ _).trans agrees.sized
  · intro hash member
    change p'.store.isTracked hash = false
    rw [same]
    exact untracked hash (List.mem_append_right _ member)
  · obtain ⟨listed, lists, members⟩ := agrees.lists keeps
    refine ⟨_, lists.removeAll batch, fun hash other => ?_⟩
    have member := members hash other
    change hash ∈ listed ↔ p.store.isTracked hash = true ∨ hash ∈ batch ++ rest ++ next.waiting at member
    change hash ∈ listed ∧ hash ∉ batch ↔ p'.store.isTracked hash = true ∨ hash ∈ rest ++ next.waiting
    rw [member, same, List.append_assoc, List.mem_append]
    by_cases inside : hash ∈ batch
    · have gone := untracked hash (List.mem_append_left _ inside)
      have once : hash ∉ rest ++ next.waiting := fun again =>
        (List.nodup_append.mp nodup).2.2 hash inside hash again rfl
      simp [inside, gone, once]
    · simp [inside]

theorem agrees_anchor {tracker : CandidateTracker} {env : Env} {loaded : CanonicalSnapshot}
    (same : tracker.limit = limit) (room : cache < limit)
    (known : loaded.projection.block = chain loaded.projection.block.hash)
    (anchored : p'.store = (p.installSnapshot env loaded).store) :
    Agrees chain limit (tracker.observe (.snapshot (snapshot loaded.projection loaded.forkchoice)))
      ⟨.idle, p'⟩ := by
  apply agrees_of_lists rfl
  apply (lists_snapshot same (by omega) known).congr
  intro hash
  change _ ↔ p'.store.isTracked hash = true
  rw [anchored]
  exact (Store.isTracked_resetCandidates _ _ _ _).symm

theorem agrees_step (aligning : ∀ q input, offers q input → Aligning chain q input)
    (room : cache < limit) {state after : State} (identified : Identified chain state)
    (stored : Stored chain cache metadata state) (awaited : Awaited state)
    (agrees : Agrees chain limit (replayed first state.publisher) state)
    (step : Step (Chained chain) offers state after) :
    Agrees chain limit (replayed first after.publisher) after := by
  have numbered (q : Publisher) (input : Input) (offered : offers q input) :
      Numbered chain q input := (aligning q input offered).numbered
  cases step with
  | promote => exact agrees.keep (isTracked_setStage _ _ _) rfl rfl id
  | validate =>
    simp only [replayed_withStore, replayed_send]
    exact agrees.keep (isTracked_setStage _ _ _) rfl rfl id
  | @announce p env stage block changes inherited applied projection lawful delta fresh inherits
      changed assembled =>
    have known : projection.block = chain projection.block.hash := by
      rw [assembled]
      exact (delta.chained numbered identified).1
    have lists := lists_announce stored room known (agrees.exact trivial rfl rfl)
    simp only [replayed_withStore, replayed_send]
    apply agrees_of_lists rfl
    apply lists.congr
    intro hash
    change _ ∨ _ ↔ (p.store.placeCandidate _ _ _ _ _).isTracked hash = true
    rw [Store.isTracked_placeCandidate]
    by_cases same : hash = projection.block.hash
    · simp [same]
    · simp [same]
  | @defer p env block changes =>
    refine agrees.keep (fun hash => ?_) rfl rfl id
    change (p.store.placeDeferred _ _ _).isTracked hash = _
    rw [Store.isTracked, Store.candidates_placeDeferred]
    rfl
  | trimProjections trimmed =>
    exact agrees.shed (Store.sheds_trimProjectionCache trimmed) rfl rfl id
  | trimProjectionsFails => exact agrees_of_limit agrees.sized id rfl
  | trimMetadata trimmed => exact agrees.shed (Store.sheds_trimMetadata trimmed) rfl rfl id
  | trimMetadataFails => exact agrees_of_limit agrees.sized id rfl
  | retire =>
    simp only [replayed_send]
    exact agrees_retire agrees rfl
  | retired => exact ⟨agrees.sized, agrees.nodup, agrees.untracked, agrees.lists⟩
  | reject lawful admitted rejectable =>
    have aligned := (aligning _ _ admitted).aligned _ _ _ rfl rejectable
    simp only [replayed_withStore, replayed_send]
    exact agrees_of_lists rfl (lists_reject stored.formed aligned (agrees.exact trivial rfl rfl))
  | @adopt p env _ _ _ projection =>
    obtain ⟨listed, lists, members⟩ := agrees.lists trivial
    refine ⟨agrees.sized, agrees.nodup, nofun, fun _ => ⟨listed, lists, fun hash other => ?_⟩⟩
    have different : hash ≠ projection.block.hash := by
      rintro rfl
      exact other rfl
    change _ ↔ Store.isTracked (Store.placeCandidate _ _ _ _ _ _) hash = true ∨ _
    rw [Store.isTracked_placeCandidate, if_neg different]
    exact members hash nofun
  | @head p env projection changedBitmap applied =>
    have known : projection.block = chain projection.block.hash := identified.2.2
    have lists := lists_head stored room known awaited agrees
    simp only [replayed_withStore, replayed_send]
    apply agrees_of_lists rfl
    apply lists.congr
    intro hash
    change _ ↔ (Publisher.commitCanonical _ _ _ p.store).isTracked hash = true
    rw [isTracked_commitCanonical]
    rfl
  | reaffirm => exact agrees.keep (fun _ => rfl) rfl rfl id
  | @fence p env applied view =>
    simp only [replayed_withStore, replayed_send]
    refine agrees.keep (fun hash => ?_) (waiting_afterFence _ _) (heir_afterFence _ _) fun _ => trivial
    obtain ⟨finalized, sweep, left⟩ := afterFence_store view p.store
    change (afterFence view p.store).2.isTracked hash = _
    rw [left]
    rfl
  | sweep => exact agrees.shed (Store.sheds_processFinalityBudget _ _) rfl rfl id
  | maintain => exact agrees.shed (Store.sheds_processFinalityBudget _ _) rfl rfl id
  | expire => exact agrees.shed (Store.sheds_removeEach _ _) rfl rfl id
  | gap =>
    simp only [replayed_send]
    exact agrees_of_limit agrees.sized id rfl
  | retryGap =>
    simp only [replayed_send]
    exact agrees_of_limit agrees.sized id rfl
  | retryBurns => exact agrees_of_limit agrees.sized id rfl
  | retryAnchor => exact agrees_of_limit agrees.sized id rfl
  | anchor lawful loads =>
    simp only [replayed_send]
    exact agrees_anchor agrees.sized room (lawful.latest _ _ loads.read) rfl
  | anchorRefused => exact agrees_of_limit agrees.sized id rfl
  | anchorFails => exact agrees_of_limit agrees.sized id rfl
  | activate lawful _ _ loads =>
    change Agrees chain limit (replayed first (Publisher.send _ _ _ _ (Publisher.send _ _ _ _ _))) _
    simp only [replayed_send]
    exact agrees_anchor agrees.sized room (lawful.latest _ _ loads.read) rfl
  | refuse => exact agrees_of_limit agrees.sized id rfl
  | burn => exact agrees_of_limit agrees.sized id rfl
  | recover => exact agrees_of_limit agrees.sized id rfl
  | loss => exact agrees_of_limit agrees.sized id rfl

end

section

variable {chain : B256 → BlockMeta} {limit : Nat} {first : CandidateTracker} {env : Env}
  {options : Publisher.ServiceOptions} {watchSet : WatchSet} {start : Publisher}

structure Mirrored (chain : B256 → BlockMeta) (stream : StreamConfig) (limit : Nat)
    (first : CandidateTracker) (state : State) : Prop where
  identified : Identified chain state
  stored : Stored chain stream.candidateCacheBlocks stream.candidateMetadataEntries state
  awaited : Awaited state
  agrees : Agrees chain limit (replayed first state.publisher) state

theorem mirrored_step (started : Publisher.startService env options watchSet = some start)
    (room : options.stream.candidateCacheBlocks < limit) {state after : State}
    (mirrored : Mirrored chain options.stream limit first state)
    (step : Step (Chained chain) (Aligning chain) state after) :
    Mirrored chain options.stream limit first after := by
  obtain ⟨loaded, starts, _⟩ := Publisher.startService_eq_some.mp started
  obtain ⟨cache, metadata, _⟩ := StreamConfig.validate_limits starts.config
  obtain ⟨identified, stored, awaited, agrees⟩ := mirrored
  have numbered (q : Publisher) (input : Input) (aligning : Aligning chain q input) :
      Numbered chain q input := aligning.numbered
  have later := stored_step numbered ⟨Nat.le_of_lt cache, by omega⟩ identified stored step
  exact ⟨filled_step (spreads_chained numbered) identified step, later,
    awaited_step ⟨cache, cache.trans metadata⟩ stored later awaited step,
    agrees_step (fun _ _ => id) room identified stored awaited agrees step⟩

theorem mirrored_initial {handshake : Handshake} (chained : Chained chain env)
    (started : Publisher.startService env options watchSet = some start) (room : 1 ≤ limit)
    (joined : Handshake.accept start.shared.publishedSequence start.shared.published =
      .ok handshake) :
    Mirrored chain options.stream limit
      ((CandidateTracker.new limit).observeAll (handshake.events start.shared)) ⟨.idle, start⟩ := by
  obtain ⟨identified, stored, _⟩ := stored_initial chained started
  obtain ⟨loaded, starts, initial⟩ := Publisher.startService_eq_some.mp started
  have canonical : handshake.canonical = loaded.projection := by
    rw [← (Session.accepted_of_accept joined).canonical, initial]
    rfl
  have known := chained.latest _ _ starts.read
  rw [← canonical] at known
  have lists : Lists chain limit {hash | hash = handshake.canonical.block.hash}
      ((CandidateTracker.new limit).observeAll (handshake.events start.shared)) :=
    @lists_snapshot chain limit (CandidateTracker.new limit).clear handshake.canonical
      handshake.forkchoice rfl room known
  have silent : start.shared.frames = [] := by
    rw [initial]
    rfl
  refine ⟨identified, stored, awaited_of_none rfl, agrees_of_lists rfl ?_⟩
  rw [replayed, silent]
  apply lists.congr
  intro hash
  rw [canonical, initial]
  exact (Store.isTracked_newConfigured _ _ _ _).symm

end

end Machine

/-- The tracker of a consumer that connected when the service started and has taken every frame
sent since. -/
def consumerTracker (limit : Nat) (start : Publisher) (handshake : Handshake) (loop : Loop) :
    CandidateTracker :=
  (CandidateTracker.new limit).observeAll
    (handshake.events start.shared ++ loop.publisher.shared.frames.filterMap (·.envelope.event))

open Machine in
theorem candidate_sets_agree {chain : B256 → BlockMeta} {env : Env}
    {options : Publisher.ServiceOptions} {watchSet : WatchSet} {start : Publisher}
    {handshake : Handshake} {loop : Loop} {limit : Nat} (chained : Chained chain env)
    (started : Publisher.startService env options watchSet = some start)
    (room : options.stream.candidateCacheBlocks < limit)
    (joined : Handshake.accept start.shared.publishedSequence start.shared.published =
      .ok handshake)
    (reached : Loop.Reaches (Allowed (Chained chain) (Aligning chain)) start loop)
    (ended : loop.control = .idle) :
    (∀ bytes, ((consumerTracker limit start handshake loop).parents.get bytes).isSome = true ↔
      ∃ hash entry, bytes = B256.toVec hash ∧
        loop.publisher.store.candidates.get hash = some entry ∧ entry.tracked = true) ∧
      ∀ hash entry, loop.publisher.store.candidates.get hash = some entry →
        entry.tracked = entry.projection.isSome := by
  have mirrored := @reaches_invariant _ _ (Mirrored chain options.stream limit
      ((CandidateTracker.new limit).observeAll (handshake.events start.shared))) start loop reached
    (mirrored_initial chained started (by omega) joined)
    fun state after mirrored step => mirrored_step started room mirrored step
  have phase : Phase.ofControl loop.control = .idle := by
    rw [ended]
    rfl
  have agrees := mirrored.agrees
  have lists : Lists chain limit {hash | loop.publisher.store.isTracked hash = true}
      (consumerTracker limit start handshake loop) := by
    have replay : consumerTracker limit start handshake loop =
        replayed ((CandidateTracker.new limit).observeAll (handshake.events start.shared))
          loop.publisher := List.foldl_append
    rw [replay]
    exact agrees.exact (by rw [phase]; trivial) (by rw [phase]; rfl) (by rw [phase]; rfl)
  refine ⟨fun bytes => ?_, mirrored.stored.formed.tracked⟩
  rw [Option.isSome_iff_exists]
  constructor
  · rintro ⟨parent, listed⟩
    obtain ⟨hash, tracked, same, _⟩ := (lists.parents bytes parent).mp listed
    obtain ⟨entry, stored, live⟩ := Store.isTracked_iff.mp tracked
    exact ⟨hash, entry, same, stored, live⟩
  · rintro ⟨hash, entry, same, stored, live⟩
    exact ⟨_, (lists.parents bytes _).mpr
      ⟨hash, Store.isTracked_iff.mpr ⟨entry, stored, live⟩, same, rfl⟩⟩

namespace Sample

def unlinkedDescendant : List Input :=
  [.event (executed 3 1), .event (executed 4 2), .event (fallback 5 3),
    .event (.rejected 4 1 3 "invalid")]

def rejectedBelowAnchor : List Input :=
  [.event (applied 1 1), .event (executed 2 2), .event (.rejected 3 1 2 "invalid")]

def laterStart : Publisher := .initial (env 3 0) options watchSet (loaded 3)

theorem later_started :
    Publisher.startService (env 3 0) options watchSet = some laterStart := by
  refine Publisher.startService_eq_some.mpr ⟨loaded 3, ?_, rfl⟩
  exact ⟨by decide, by decide, rfl, by decide, by decide, by decide +kernel⟩

def greeting (head : B256) : Handshake where
  baseline := 0
  canonical := projection watchSet head
  forkchoice := forkchoice head

theorem foretold_unlinkedDescendant (p : Publisher) (input : Input)
    (member : input ∈ unlinkedDescendant) :
    Machine.Allowed (Chained block) (fun _ => Foretold block) p (env 1 0) input := by
  refine ⟨sample_chained 1 0, ?_⟩
  simp only [unlinkedDescendant, List.mem_cons, List.not_mem_nil, or_false] at member
  rcases member with rfl | rfl | rfl | rfl
  · exact sample_foretold_executed 3 1
  · exact sample_foretold_executed 4 2
  · exact sample_foretold_fallback 5 3
  · exact foretold_of_no_delta (by rintro event ⟨rfl⟩; rfl)

theorem foretold_rejectedBelowAnchor (p : Publisher) (input : Input)
    (member : input ∈ rejectedBelowAnchor) :
    Machine.Allowed (Chained block) (fun _ => Foretold block) p (env 3 0) input := by
  refine ⟨sample_chained 3 0, ?_⟩
  simp only [rejectedBelowAnchor, List.mem_cons, List.not_mem_nil, or_false] at member
  rcases member with rfl | rfl | rfl
  · exact foretold_of_no_delta (by rintro event ⟨rfl⟩; rfl)
  · exact sample_foretold_executed 2 2
  · exact foretold_of_no_delta (by rintro event ⟨rfl⟩; rfl)

end Sample

theorem candidate_sets_differ :
    (Publisher.startService (Sample.env 1 0) Sample.options Sample.watchSet = some Sample.start ∧
      Handshake.accept 0 Sample.start.shared.published = .ok (Sample.greeting 1) ∧
      ∃ loop, Loop.Reaches (Machine.Allowed (Chained Sample.block) fun _ => Foretold Sample.block)
        Sample.start loop ∧ loop.control = .idle ∧
        loop.publisher.store.isTracked 5 = false ∧
        ((consumerTracker (StreamConfig.default.candidateCacheBlocks + 1) Sample.start
          (Sample.greeting 1) loop).parents.get (B256.toVec 5)).isSome = true) ∧
    Publisher.startService (Sample.env 3 0) Sample.options Sample.watchSet = some Sample.laterStart ∧
      Handshake.accept 0 Sample.laterStart.shared.published = .ok (Sample.greeting 3) ∧
      ∃ loop, Loop.Reaches (Machine.Allowed (Chained Sample.block) fun _ => Foretold Sample.block)
        Sample.laterStart loop ∧ loop.control = .idle ∧
        loop.publisher.store.isTracked 3 = true ∧
        ((consumerTracker (StreamConfig.default.candidateCacheBlocks + 1) Sample.laterStart
          (Sample.greeting 3) loop).parents.get (B256.toVec 3)).isSome = false := by
  refine ⟨⟨Sample.started, rfl, ?_⟩, Sample.later_started, rfl, ?_⟩
  · exact Sample.exists_of_run Sample.start _ Sample.foretold_unlinkedDescendant (by decide +kernel)
  · exact Sample.exists_of_run Sample.laterStart _ Sample.foretold_rejectedBelowAnchor
      (by decide +kernel)

theorem aligned_of_leaf {store : Store} {hash : B256} (foreign : hash ≠ store.canonicalHash)
    (leaf : store.treeChildren hash = [])
    (childless : ∀ child entry, store.candidates.get child = some entry →
      entry.block.parentHash ≠ hash) : Aligned store hash := by
  have alone (other : B256) (descends : store.Descends hash other) : other = hash := by
    rcases Relation.ReflTransGen.cases_head descends with same | ⟨child, edge, _⟩
    · exact same.symm
    · rw [leaf] at edge
      exact absurd edge List.not_mem_nil
  refine ⟨foreign, fun parent _ descends different => absurd (alone parent descends) different, ?_⟩
  rintro child entry stored _ (same | ⟨descends, _⟩)
  · exact absurd same (childless child entry stored)
  · exact absurd (alone _ descends) (childless child entry stored)

namespace Sample

def announced : Loop :=
  .settle "publisher_error" (Publisher.handle (env 1 0) (executed 2 1) start)

def withdrawn : Loop :=
  .settle "publisher_error"
    (Publisher.handle (env 1 0) (.rejected 2 1 2 "invalid") announced.publisher)

theorem announced_childless : announced.publisher.store.candidates.keys.all (fun child =>
    (announced.publisher.store.candidates.get child).all (·.block.parentHash ≠ 2)) = true := by
  decide +kernel

theorem aligned_announced : Aligned announced.publisher.store 2 := by
  apply aligned_of_leaf
  · decide +kernel
  · decide +kernel
  · intro child entry stored
    have member : child ∈ announced.publisher.store.candidates.keys := by
      rw [Table.mem_keys, stored]
      rfl
    have found := List.all_eq_true.mp announced_childless child member
    rw [stored] at found
    exact of_decide_eq_true found

theorem reaches_withdrawn :
    Loop.Reaches (Machine.Allowed (Chained block) (Aligning block)) start withdrawn := by
  have first : Aligning block start (.event (executed 2 1)) :=
    ⟨⟨by decide, sample_foretold_executed 2 1⟩, nofun⟩
  have second : Aligning block announced.publisher (.event (.rejected 2 1 2 "invalid")) := by
    refine ⟨⟨by decide +kernel, foretold_of_no_delta (by rintro event ⟨rfl⟩; rfl)⟩, ?_⟩
    intro observedAt hash reason taken _
    obtain ⟨_, _, rfl, _⟩ := FeedEvent.rejected.inj (Input.event.inj taken)
    exact aligned_announced
  have idle : announced.control = .idle := by decide +kernel
  exact .tail (.single ⟨env 1 0, _, ⟨sample_chained 1 0, first⟩, rfl⟩)
    ⟨env 1 0, _, ⟨sample_chained 1 0, second⟩, next_event idle⟩

end Sample

theorem candidate_sets_agree_sample :
    Sample.withdrawn.publisher.shared.frames.length = 2 ∧
      ∀ bytes, ((consumerTracker (StreamConfig.default.candidateCacheBlocks + 1) Sample.start
          (Sample.greeting 1) Sample.withdrawn).parents.get bytes).isSome = true ↔
        ∃ hash entry, bytes = B256.toVec hash ∧
          Sample.withdrawn.publisher.store.candidates.get hash = some entry ∧
            entry.tracked = true := by
  refine ⟨by decide +kernel, ?_⟩
  exact (candidate_sets_agree (sample_chained 1 0) Sample.started (by decide) rfl
    Sample.reaches_withdrawn (by decide +kernel)).1

end Statefeed
