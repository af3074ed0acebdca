import Statefeed.Machine.Failure
import Statefeed.Store.Settings

set_option autoImplicit false

namespace Statefeed

open Effect Effect.Op

namespace Shared

theorem batchSize_pos (shared : Shared) : 0 < shared.batchSize := by
  unfold batchSize
  omega

theorem publishInner_ensures (env : Env) (generation : Generation) (event : Wire.Event)
    (nextState : Option (Projection × Option ForkchoiceMeta × Bool)) (shared : Shared) :
    (publishInner env generation event nextState).Ensures shared
      (fun sequence after =>
        sequence = shared.sequence + 1 ∧ after = shared.sent env generation event nextState)
      (fun failure after => after = shared.burned ∧ ∃ overflow, failure = .encode overflow ∧
        Wire.encodeFrame (shared.envelope env (shared.sequence + 1) generation event)
          shared.maxFrameBytes = .error overflow) := by
  unfold publishInner Ensures
  cases encoded : Wire.encodeFrame (shared.envelope env (shared.sequence + 1) generation event)
      shared.maxFrameBytes with
  | error overflow =>
    simp only [encoded]
    exact ⟨rfl, overflow, rfl, rfl⟩
  | ok frame =>
    have payload := Wire.encodeFrame_payload encoded
    simp only [encoded, sent, payload, and_self]

theorem publishInner_of_validated (env : Env) {generation : Generation} {event : Wire.Event}
    {shared : Shared} (current : Shared) (sameBoot : current.bootId = shared.bootId)
    (sameLimit : current.maxFrameBytes = shared.maxFrameBytes)
    (validated : shared.validateEventFrame generation event = .ok ())
    (nextState : Option (Projection × Option ForkchoiceMeta × Bool)) :
    publishInner env generation event nextState current =
      (.ok (current.sequence + 1), current.sent env generation event nextState) := by
  have encodes : ∃ frame, Wire.encodeFrame
      (current.envelope env (current.sequence + 1) generation event) current.maxFrameBytes =
        .ok frame := by
    unfold validateEventFrame at validated
    split at validated
    · cases validated
    · next preflight =>
      rw [sameLimit]
      have sent := Wire.encodeFrame_of_preflight
        (current.envelope env (current.sequence + 1) generation event)
        (current.sequence + 1) (min (env.elapsedNs (current.sequence + 1)) (2 ^ 64 - 1))
        (by simpa only [Wire.Envelope.restamp, envelope, widestEnvelope, sameBoot] using preflight)
      exact sent
  obtain ⟨frame, encoded⟩ := encodes
  have payload := Wire.encodeFrame_payload encoded
  simp only [publishInner, encoded, sent, payload]

end Shared

namespace Machine

variable {world : Env → Prop} {offers : Publisher → Input → Prop} {α β : Type}

def Leads (world : Env → Prop) (offers : Publisher → Input → Prop) (origin : State)
    (op : Op Publisher Error α) (p : Publisher) (post : α → Publisher → Prop) : Prop :=
  op.Ensures p post fun failure after =>
    Steps world offers origin ⟨.failed, after⟩ ∧ Stops world offers origin failure

variable {origin : State} {p : Publisher} {next : Phase} {post : α → Publisher → Prop}

theorem leads_bind {first : Op Publisher Error β} {rest : β → Op Publisher Error α} :
    Leads world offers origin (first >>= rest) p post ↔
      Leads world offers origin first p
        (fun value after => Leads world offers origin (rest value) after post) :=
  ensures_bind first rest

theorem leads_get {rest : Publisher → Op Publisher Error α} :
    Leads world offers origin (Op.get >>= rest) p post ↔
      Leads world offers origin (rest p) p post := by
  rw [leads_bind]
  rfl

theorem leads_modifyStore {update : Store → Store} {post : Unit → Publisher → Prop} :
    Leads world offers origin (Publisher.onStore (Op.modify update)) p post ↔
      post () (p.withStore (update p.store)) := Iff.rfl

theorem leads_ofExcept {result : Except Error α} {phase : Phase}
    (reached : Steps world offers origin ⟨phase, p⟩) (working : phase.Working)
    (refused : ∀ failure, result = .error failure → Fails world offers ⟨phase, p⟩ failure)
    (accepted : ∀ value, result = .ok value → post value p) :
    Leads world offers origin (Op.ofExcept result) p post := by
  unfold Leads
  rw [ensures_ofExcept]
  refine ⟨accepted, fun failure failed => ?_⟩
  exact ⟨reached.tail (.refuse working), _, reached, refused failure failed⟩

theorem leads_throw {failure : Error} {phase : Phase}
    (reached : Steps world offers origin ⟨phase, p⟩) (working : phase.Working)
    (fails : Fails world offers ⟨phase, p⟩ failure) :
    Leads world offers origin (Op.throw failure) p post :=
  ⟨reached.tail (.refuse working), _, reached, fails⟩

theorem leads_publish {env : Env} {generation : Generation} {event : Wire.Event}
    {nextState : Option (Projection × Option ForkchoiceMeta × Bool)} {phase : Phase} {store : Store}
    {post : Nat → Publisher → Prop} (reached : Steps world offers origin ⟨phase, p⟩)
    (working : phase.Working) (emits : Emits world offers ⟨phase, p⟩ generation event store)
    (published : post (p.shared.sequence + 1) (p.send env generation event nextState)) :
    Leads world offers origin
      (Publisher.onShared (Shared.publishInner env generation event nextState)) p post := by
  unfold Leads Publisher.onShared
  rw [ensures_focus]
  refine (Shared.publishInner_ensures env generation event nextState p.shared).mono ?_ ?_
  · rintro sequence after ⟨rfl, rfl⟩
    exact published
  · rintro failure after ⟨rfl, overflow, rfl, overflows⟩
    exact ⟨reached.tail (.burn working), _, reached, .unsent working emits overflows⟩

theorem leads_publishRetired {env : Env} (lawful : world env) {generation : Generation}
    {hashes : List B256} {reason : Wire.RetirementReason} {post : Unit → Publisher → Prop}
    (reached : Steps world offers origin ⟨.retiring generation hashes reason next, p⟩)
    (retired : ∀ after, Steps world offers origin ⟨next, after⟩ → after.store = p.store →
      after.active = p.active → post () after) :
    Leads world offers origin
      (Publisher.onShared (Shared.publishRetired env generation hashes reason)) p post := by
  unfold Leads Publisher.onShared
  rw [ensures_focus]
  unfold Shared.publishRetired
  rw [ensures_bind, ensures_get]
  have whole := Chunks.flatten_chunks hashes p.shared.batchSize_pos
  have cut : ∀ batch ∈ Chunks.chunks p.shared.batchSize hashes,
      batch ≠ [] ∧ batch.length ≤ p.shared.batchSize :=
    fun batch member => Chunks.mem_chunks p.shared.batchSize_pos member
  generalize Chunks.chunks p.shared.batchSize hashes = batches at whole cut ⊢
  subst whole
  -- Every batch is one step; the hashes still to be named shrink with the list of batches.
  have loop : ∀ (batches : List (List B256)) (shared : Shared),
      (∀ batch ∈ batches, batch ≠ [] ∧ batch.length ≤ p.shared.batchSize) →
      Steps world offers origin
        ⟨.retiring generation batches.flatten reason next, { p with shared }⟩ →
      shared.published = p.shared.published → shared.batchSize = p.shared.batchSize →
      (Op.forEach batches fun batch => do
        let _ ← Shared.publish env generation (.candidatesRetired
          { blockHashes := batch.map B256.toVec, reason := reason.code })).Ensures shared
        (fun _ after => post () { p with shared := after })
        (fun failure after => Steps world offers origin ⟨.failed, { p with shared := after }⟩ ∧
          Stops world offers origin failure) := by
    intro batches
    induction batches with
    | nil =>
      intro shared _ reached same _
      refine retired { p with shared } (reached.tail .retired) rfl ?_
      simp only [Publisher.active, same]
    | cons batch rest ih =>
      intro shared cut reached same size
      obtain ⟨⟨nonempty, fits⟩, cutRest⟩ := List.forall_mem_cons.mp cut
      rw [← size] at fits
      change (_ >>= fun _ => Op.forEach rest _).Ensures shared _ _
      rw [ensures_bind, ensures_bind]
      refine (Shared.publishInner_ensures env generation _ none shared).mono ?_ ?_
      · rintro sequence after ⟨-, rfl⟩
        exact ih _ cutRest (reached.tail (.retire lawful nonempty fits)) same size
      · rintro failure after ⟨rfl, overflow, rfl, overflows⟩
        exact ⟨reached.tail (.burn trivial), _, reached,
          .unsent trivial (.retired nonempty fits) overflows⟩
  exact loop batches p.shared cut reached rfl rfl

theorem leads_trimProjectionCache {projection : Projection} {post : List B256 → Publisher → Prop}
    (reached : Steps world offers origin ⟨.placed projection next, p⟩)
    (trimmed : ∀ evicted store,
      Store.trimProjectionCache projection.block.hash p.store = (.ok evicted, store) →
      Steps world offers origin ⟨.retiring projection.watchSet.generation evicted .cacheEvicted
        (.trimming projection.watchSet.generation next), p.withStore store⟩ →
      post evicted (p.withStore store)) :
    Leads world offers origin
      (Publisher.onStore (Store.trimProjectionCache projection.block.hash)) p post := by
  refine (ensures_focus _ _ _).mpr ?_
  unfold Ensures
  rcases outcome : Store.trimProjectionCache projection.block.hash p.store with ⟨result, store⟩
  cases result with
  | ok evicted => exact trimmed evicted store outcome (reached.tail (.trimProjections outcome))
  | error failure =>
    exact ⟨reached.tail (.trimProjectionsFails outcome), _, reached, .cache outcome⟩

theorem leads_trimMetadata {generation : Generation} {post : List B256 → Publisher → Prop}
    (reached : Steps world offers origin ⟨.trimming generation next, p⟩)
    (trimmed : ∀ removed store, Store.trimMetadata p.store = (.ok removed, store) →
      Steps world offers origin ⟨.retiring generation removed .cacheEvicted next,
        p.withStore store⟩ → post removed (p.withStore store)) :
    Leads world offers origin (Publisher.onStore Store.trimMetadata) p post := by
  refine (ensures_focus _ _ _).mpr ?_
  unfold Ensures
  rcases outcome : Store.trimMetadata p.store with ⟨result, store⟩
  cases result with
  | ok removed => exact trimmed removed store outcome (reached.tail (.trimMetadata outcome))
  | error failure => exact ⟨reached.tail (.trimMetadataFails outcome), _, reached, .metadata outcome⟩

theorem leads_enforceLimits {env : Env} (lawful : world env) {projection : Projection}
    {post : Unit → Publisher → Prop}
    (reached : Steps world offers origin ⟨.placed projection next, p⟩)
    (enforced : ∀ after, Steps world offers origin ⟨next, after⟩ → after.active = p.active →
      after.store.settings = p.store.settings → post () after) :
    Leads world offers origin (Publisher.enforceLimits env projection) p post := by
  unfold Publisher.enforceLimits
  rw [leads_bind]
  refine leads_trimProjectionCache reached fun evicted store trimmed reached => ?_
  have sameStore := Store.settings_of_projections trimmed
  rw [leads_bind]
  refine leads_publishRetired lawful reached fun between reached keptStore keptActive => ?_
  rw [leads_bind]
  refine leads_trimMetadata reached fun removed store' trimmed' reached => ?_
  have sameStore' := Store.settings_of_metadata trimmed'
  refine leads_publishRetired lawful reached fun after reached finalStore finalActive => ?_
  refine enforced after reached (finalActive.trans keptActive) ?_
  rw [finalStore]
  change store'.settings = _
  rw [sameStore', keptStore]
  exact sameStore

theorem leads_processFinalityBudget {env : Env} (lawful : world env) {generation : Generation}
    {budget : Nat} {post : Nat → Publisher → Prop}
    (reached : Steps world offers origin
      ⟨.retiring generation (p.store.processFinalityBudget budget).1.2 .finalizedConflict next,
        p.withStore (p.store.processFinalityBudget budget).2⟩)
    (swept : ∀ after, Steps world offers origin ⟨next, after⟩ →
      after.store = (p.store.processFinalityBudget budget).2 → after.active = p.active →
      post (p.store.processFinalityBudget budget).1.1 after) :
    Leads world offers origin (Publisher.processFinalityBudget env generation budget) p post := by
  unfold Publisher.processFinalityBudget
  rw [leads_bind]
  change Leads world offers origin (_ >>= _) (p.withStore _) post
  rw [leads_bind]
  exact leads_publishRetired lawful reached fun after reached sameStore sameActive =>
    swept after reached sameStore sameActive

def Ends (world : Env → Prop) (offers : Publisher → Input → Prop) (op : Op Publisher Error α)
    (p : Publisher) : Prop :=
  Leads world offers ⟨.idle, p⟩ op p (fun _ after => Steps world offers ⟨.idle, p⟩ ⟨.idle, after⟩)

theorem ends_of_leads {op : Op Publisher Error α} {value : β}
    (leads : Leads world offers ⟨.idle, p⟩ op p
      (fun _ after => Steps world offers ⟨.idle, p⟩ ⟨.idle, after⟩)) :
    Ends world offers (op >>= fun _ => Pure.pure value) p := by
  unfold Ends
  rw [leads_bind]
  exact leads

theorem ends_throw {failure : Error} (fails : Fails world offers ⟨.idle, p⟩ failure) :
    Ends world offers (Op.throw failure : Op _ _ α) p :=
  leads_throw .refl trivial fails

theorem ends_pure (value : α) : Ends world offers (Pure.pure value : Op _ _ α) p :=
  Relation.ReflTransGen.refl

theorem promoteCandidate_ends {env : Env} (lawful : world env) {hash : B256}
    {candidate : CandidateEntry} (stored : p.store.candidates.get hash = some candidate) :
    Ends world offers (Publisher.promoteCandidate env p.active.generation hash candidate) p := by
  unfold Publisher.promoteCandidate
  split
  · exact ends_pure _
  · next early =>
    have executed : candidate.stage = .executed := by
      cases stage : candidate.stage with
      | executed => rfl
      | validated => exact absurd stage early
    split
    · next bare =>
      unfold Ends
      rw [leads_bind, leads_modifyStore]
      exact .single (.promote stored executed bare)
    · next projection cached =>
      split
      · exact ends_pure _
      · next current =>
        unfold Ends
        rw [leads_bind]
        refine leads_publish .refl trivial (.validated stored executed cached) ?_
        refine .single (.validate lawful stored executed cached ?_)
        simpa using current

theorem publishProjection_ends {env : Env} (lawful : world env) {stage : CandidateStage}
    {block : BlockMeta} {changes : BlockChanges} {inherited : Bytes}
    (delta : Delta offers p stage block changes) (fresh : Fresh p block)
    (inherits : Inherits env p block stage inherited) :
    Ends world offers
      (Publisher.publishProjection env p.active.generation block changes stage inherited) p := by
  unfold Publisher.publishProjection Ends
  rw [leads_get, leads_bind]
  refine leads_ofExcept .refl trivial (fun _ refused => .applied lawful delta inherits refused)
    fun applied changed => ?_
  rw [leads_bind]
  refine leads_publish .refl trivial (.announced lawful delta fresh inherits changed rfl) ?_
  unfold Publisher.insertCandidate
  rw [leads_bind, leads_bind, leads_modifyStore]
  have announced := Relation.ReflTransGen.single
    (Step.announce lawful delta fresh inherits changed rfl)
  exact leads_enforceLimits lawful announced fun after reached _ _ => reached

theorem insertDeferredExecuted_ends {env : Env} (lawful : world env) {block : BlockMeta}
    {changes : BlockChanges} (delta : Delta offers p .executed block changes)
    (fresh : Fresh p block) (missing : Publisher.parentProjection p.store block = none) :
    Ends world offers (Publisher.insertDeferredExecuted env block changes) p := by
  unfold Publisher.insertDeferredExecuted Ends
  rw [leads_get, if_neg fresh.live]
  split
  · exact .refl
  · next unknown =>
    rw [leads_bind, leads_modifyStore, leads_bind]
    have deferred := Relation.ReflTransGen.single
      (Step.defer lawful delta fresh (by simpa using unknown) missing)
    refine leads_trimMetadata deferred fun removed store trimmed reached => ?_
    exact leads_publishRetired lawful reached fun after reached _ _ => reached

theorem projectNew_ends {env : Env} (lawful : world env) {stage : CandidateStage}
    {block : BlockMeta} {changes : BlockChanges} (delta : Delta offers p stage block changes)
    (live : block.hash ∉ p.store.tombstones)
    (same : ∀ entry, p.store.candidates.get block.hash = some entry →
      entry.block = block ∧ entry.projection = none) :
    Ends world offers (Publisher.projectNew env p.active.generation block changes stage) p := by
  unfold Publisher.projectNew Ends
  rw [leads_get]
  split
  · exact .refl
  · next recent =>
    have fresh : Fresh p block := ⟨live, same, recent⟩
    split
    · next parent stored =>
      rw [leads_bind]
      refine leads_ofExcept .refl trivial (fun _ refused => .inherited delta stored refused)
        fun values inherited => ?_
      exact publishProjection_ends lawful delta fresh (.cached stored inherited)
    · next missing =>
      split
      · exact ends_of_leads (insertDeferredExecuted_ends lawful delta fresh missing)
      · split
        · exact .refl
        · next parent read =>
          rw [leads_bind]
          refine leads_ofExcept .refl trivial (fun _ refused => .loaded lawful delta read refused)
            fun values inherited => ?_
          exact publishProjection_ends lawful delta fresh (.loaded missing read inherited)

theorem projectCandidate_ends {env : Env} (lawful : world env) {stage : CandidateStage}
    {generation : Generation} {block : BlockMeta} {changes : BlockChanges}
    (ahead : p.active.generation < generation →
      Fails world offers ⟨.idle, p⟩ (.generationAhead generation p.active.generation))
    (delta : generation = p.active.generation → Delta offers p stage block changes) :
    Ends world offers (Publisher.projectCandidate env generation block changes stage) p := by
  unfold Publisher.projectCandidate Ends
  rw [leads_get]
  split
  · exact .refl
  · next notOlder =>
    split
    · next newer => exact ends_throw (ahead newer)
    · next notNewer =>
      have current : generation = p.active.generation :=
        le_antisymm (not_lt.mp notNewer) (not_lt.mp notOlder)
      subst current
      split
      · exact .refl
      · next live =>
        split
        · next unknown =>
          refine projectNew_ends lawful (delta rfl) live ?_
          simp [unknown]
        · next candidate stored =>
          split
          · next different => exact ends_throw (.inconsistent (delta rfl) stored different)
          · next identical =>
            split
            · split
              · exact promoteCandidate_ends lawful stored
              · exact .refl
            · next bare =>
              refine projectNew_ends lawful (delta rfl) live fun entry found => ?_
              rw [stored] at found
              cases found
              exact ⟨not_not.mp identical, by simpa using bare⟩

theorem promoteValidated_ends {env : Env} (lawful : world env) {observedAt : Instant}
    {generation : Generation} {hash : B256}
    (admitted : offers p (.event (.validated observedAt generation hash))) :
    Ends world offers (Publisher.promoteValidated env generation hash) p := by
  unfold Publisher.promoteValidated Ends
  rw [leads_get]
  split
  · exact .refl
  · next notOlder =>
    split
    · next newer => exact ends_throw (.ahead admitted newer)
    · next notNewer =>
      have current : generation = p.active.generation :=
        le_antisymm (not_lt.mp notNewer) (not_lt.mp notOlder)
      split
      · next candidate stored =>
        rw [current]
        exact promoteCandidate_ends lawful stored
      · split
        · exact .refl
        · next record stored =>
          exact projectCandidate_ends lawful (.ahead admitted)
            fun _ => .deferred admitted current stored

theorem rejected_ends {env : Env} (lawful : world env) {observedAt : Instant}
    {generation : Generation} {hash : B256} {reason : String}
    (admitted : offers p (.event (.rejected observedAt generation hash reason))) :
    Ends world offers (Publisher.rejected env generation hash reason) p := by
  unfold Publisher.rejected Ends
  rw [leads_get]
  split
  · exact .refl
  · next notOlder =>
    split
    · next newer => exact ends_throw (.ahead admitted newer)
    · next notNewer =>
      have current : generation = p.active.generation :=
        le_antisymm (not_lt.mp notNewer) (not_lt.mp notOlder)
      subst current
      split
      · next rejectable =>
        rw [leads_bind]
        refine leads_publish .refl trivial (.rejected admitted rejectable) ?_
        exact .single (.reject lawful admitted rejectable)
      · exact .refl

theorem publishView_ends {env : Env} (lawful : world env) {origin : State}
    {applied : AppliedForkchoiceMeta}
    (reached : Steps world offers origin ⟨.fencing applied, p⟩)
    (same : p.shared.published.canonical.block.hash = applied.headHash) :
    Leads world offers origin
      (Publisher.publishView env (applied.resolve p.shared.published.canonical.block.number)) p
      (fun _ after => Steps world offers origin ⟨.idle, after⟩) := by
  unfold Publisher.publishView
  rw [leads_get, leads_bind]
  refine leads_ofExcept reached trivial (fun _ refused => .view refused) fun _ ordered => ?_
  rw [leads_bind]
  refine leads_publish reached trivial (.fenced rfl ordered) ?_
  have fenced := reached.tail (.fence lawful same rfl ordered)
  unfold afterFence at fenced
  split
  · next finalized some =>
    simp only [some] at fenced
    split
    · next changed =>
      simp only [if_pos changed] at fenced
      rw [leads_bind, leads_modifyStore, leads_bind]
      exact leads_processFinalityBudget lawful (fenced.tail .sweep) fun after reached _ _ => reached
    · next unchanged =>
      simp only [if_neg unchanged] at fenced
      exact fenced
  · next none =>
    simp only [none] at fenced
    exact fenced

theorem publishForkchoice_ends {env : Env} (lawful : world env) {origin : State}
    {applied : AppliedForkchoiceMeta}
    (reached : Steps world offers origin ⟨.fencing applied, p⟩) :
    Leads world offers origin (Publisher.publishForkchoice env applied) p
      (fun _ after => Steps world offers origin ⟨.idle, after⟩) := by
  unfold Publisher.publishForkchoice
  rw [leads_get]
  split
  · next different => exact leads_throw reached trivial (.unfenced different)
  · next same => exact publishView_ends lawful reached (not_not.mp same)

theorem publishCanonical_fences {env : Env} (lawful : world env) {origin : State}
    {projection : Projection} {changedBitmap : Bytes} {applied : AppliedForkchoiceMeta}
    (adopted : Steps world offers origin
      ⟨.placed projection (.heading projection changedBitmap applied),
        p.withStore (p.store.placeCandidate (env.now .insertCandidate) projection .validated
          true 0)⟩) :
    Leads world offers origin (Publisher.publishCanonical env projection changedBitmap) p
      (fun _ after => Steps world offers origin ⟨.fencing applied, after⟩) := by
  unfold Publisher.publishCanonical
  rw [leads_get, leads_bind]
  unfold Publisher.insertCandidate
  rw [leads_bind, leads_modifyStore]
  refine leads_enforceLimits lawful adopted fun after reached _ settings => ?_
  have head : p.store.canonicalHash = after.store.canonicalHash := by
    rw [Store.canonicalHash_of_settings settings]
    exact (Store.canonicalHash_of_settings (Store.settings_placeCandidate _ _ _ _ _ _)).symm
  rw [leads_bind, head]
  refine leads_publish reached trivial (.headed lawful) ?_
  rw [leads_bind, leads_modifyStore]
  exact reached.tail (.head lawful)

theorem canonical_fences {env : Env} (lawful : world env) {observedAt : Instant}
    {generation : Generation} {applied : AppliedForkchoiceMeta}
    (admitted : offers p (.event (.forkchoiceApplied observedAt generation applied)))
    (later : p.snapshotAnchoredAt < observedAt) :
    Leads world offers ⟨.idle, p⟩ (Publisher.canonical env generation observedAt none
        applied.headHash) p
      (fun _ after => Steps world offers ⟨.idle, p⟩ ⟨.fencing applied, after⟩) := by
  unfold Publisher.canonical
  rw [leads_get]
  split
  · next newer => exact leads_throw .refl trivial (.ahead admitted newer)
  · next known =>
    rw [if_neg (not_le.mpr later)]
    split
    · exact .single (.reaffirm admitted later)
    · next moved =>
      rw [leads_bind]
      have refusedBy {failure : Error} (refused : HeadFails env p generation applied failure) :
          Fails world offers ⟨.idle, p⟩ failure := .head lawful admitted refused
      refine leads_ofExcept .refl trivial (fun _ refused => refusedBy (.missing refused))
        fun projection found => ?_
      rw [leads_bind]
      refine leads_ofExcept .refl trivial (fun _ refused => refusedBy (.dictionary found refused))
        fun _ dictionary => ?_
      split
      · next different =>
        refine leads_throw .refl trivial (refusedBy (.identity found ?_))
        simpa using different
      · next identity =>
        rw [not_or, not_not] at identity
        rw [leads_bind]
        refine leads_ofExcept .refl trivial (fun _ refused => refusedBy (.shape found refused))
          fun _ shape => ?_
        rw [leads_bind]
        refine leads_ofExcept .refl trivial
          (fun _ refused => refusedBy (.compared found dictionary shape refused))
          fun changedBitmap compared => ?_
        exact publishCanonical_fences lawful (.single (.adopt lawful admitted later
          (not_lt.mp known) moved found dictionary identity.1 shape compared))

theorem forkchoiceApplied_ends {env : Env} (lawful : world env) {observedAt : Instant}
    {generation : Generation} {applied : AppliedForkchoiceMeta}
    (admitted : offers p (.event (.forkchoiceApplied observedAt generation applied))) :
    Ends world offers (Publisher.forkchoiceApplied env generation observedAt applied) p := by
  unfold Publisher.forkchoiceApplied Ends
  rw [leads_get]
  split
  · next newer => exact ends_throw (.ahead admitted newer)
  · split
    · exact .refl
    · next late =>
      have later : p.snapshotAnchoredAt < observedAt := not_le.mp late
      split
      · rw [leads_bind]
        refine (canonical_fences lawful admitted later).mono (fun _ after reached => ?_)
          (fun _ _ failed => failed)
        exact publishForkchoice_ends lawful reached
      · exact publishForkchoice_ends lawful (.single (.reaffirm admitted later))

theorem loadSnapshot_cases {env : Env} {watchSet : WatchSet}
    {post : CanonicalSnapshot → Publisher → Prop} {fail : Error → Publisher → Prop}
    (refused : ∀ failure, LoadFails env p watchSet failure → fail failure p)
    (accepted : ∀ loaded, env.loadLatest watchSet = some loaded →
      validateSnapshotView loaded = .ok () →
      validateProjectionDictionary loaded.projection watchSet = .ok () → post loaded p) :
    (Publisher.loadSnapshot env watchSet).Ensures p post fail := by
  unfold Publisher.loadSnapshot
  split
  · next missing => exact refused _ (.unread missing)
  · next loaded read =>
    rw [ensures_bind, ensures_ofExcept]
    refine ⟨fun _ view => ?_, fun failure failed => refused failure (.view read failed)⟩
    rw [ensures_bind, ensures_ofExcept]
    exact ⟨fun _ dictionary => accepted loaded read view dictionary,
      fun failure failed => refused failure (.dictionary read failed)⟩

theorem validateProjectionFrames_snapshot {shared : Shared} {projection : Projection}
    {forkchoice : ForkchoiceMeta}
    (accepted : validateProjectionFrames shared projection forkchoice = .ok ()) :
    shared.validateEventFrame projection.watchSet.generation
      (.snapshot (snapshot projection forkchoice)) = .ok () := by
  unfold validateProjectionFrames at accepted
  exact (bind_unit_ok (bind_unit_ok accepted).2).1

theorem validateProjectionDictionary_ok {projection : Projection} {expected : WatchSet}
    (accepted : validateProjectionDictionary projection expected = .ok ()) :
    projection.watchSet.generation = expected.generation ∧
      projection.watchSet.keys = expected.keys := by
  unfold validateProjectionDictionary at accepted
  split at accepted
  · next same => exact same
  · cases accepted

theorem reanchor_ensures (env : Env) (post : Unit → Publisher → Prop)
    (fail : Error → Publisher → Prop)
    (refused : ∀ failure, LoadFails env p p.active failure → fail failure p)
    (anchored : ∀ loaded, Loads env p p.active loaded →
      post () ((p.installSnapshot env loaded).send env loaded.projection.watchSet.generation
        (.snapshot (snapshot loaded.projection loaded.forkchoice))
        (some (loaded.projection, some loaded.forkchoice, false)))) :
    (Publisher.reanchor env).Ensures p post fail := by
  unfold Publisher.reanchor
  rw [ensures_bind, ensures_get, ensures_bind]
  refine loadSnapshot_cases refused fun loaded read view dictionary => ?_
  rw [ensures_bind, ensures_ofExcept]
  refine ⟨fun _ frames => ?_, fun failure failed => refused failure (.frames read dictionary failed)⟩
  have encodes := Shared.publishInner_of_validated env (p.installSnapshot env loaded).shared rfl rfl
    (validateProjectionFrames_snapshot frames)
    (some (loaded.projection, some loaded.forkchoice, false))
  rw [ensures_bind, ensures_modify, ensures_bind]
  refine (ensures_focus _ _ _).mpr ?_
  unfold Shared.publishState Ensures
  rw [encodes]
  exact anchored loaded ⟨read, view, dictionary, frames⟩

theorem announceGap_ensures (env : Env) (reason : String) (post : Unit → Publisher → Prop)
    (fail : Error → Publisher → Prop)
    (burned : ∀ overflow,
      Wire.encodeFrame (p.shared.envelope env (p.shared.sequence + 1) p.active.generation
        (.gap { lastContiguousSequence := p.shared.publishedSequence, reason }))
        p.shared.maxFrameBytes = .error overflow → fail (.encode overflow) p.burn)
    (announced : post () (p.send env p.active.generation
      (.gap { lastContiguousSequence := p.shared.publishedSequence, reason })
      (some (p.shared.published.canonical, none, true)))) :
    (Publisher.announceGap env reason).Ensures p post fail := by
  unfold Publisher.announceGap
  rw [ensures_bind, ensures_get, ensures_bind]
  refine (ensures_focus _ _ _).mpr ?_
  refine (Shared.publishInner_ensures env _ _ _ p.shared).mono ?_ ?_
  · rintro _ _ ⟨-, rfl⟩
    exact announced
  · rintro failure _ ⟨rfl, overflow, rfl, overflows⟩
    exact burned overflow overflows

theorem canonicalStateReset_ends {env : Env} (lawful : world env) {observedAt : Instant}
    {generation : Generation} {head : CheckpointMeta}
    (admitted : offers p (.event (.canonicalStateReset observedAt generation head))) :
    Ends world offers (Publisher.canonicalStateReset env generation observedAt) p := by
  unfold Publisher.canonicalStateReset Ends
  rw [leads_get]
  split
  · next newer => exact ends_throw (.ahead admitted newer)
  · split
    · exact .refl
    · next late =>
      rw [leads_bind]
      refine announceGap_ensures env _ _ _ (fun _ overflows => ?_) ?_
      · exact ⟨.single (.burn trivial), _, .refl, .unsent trivial .reset overflows⟩
      · have gapped := Relation.ReflTransGen.single (@Step.gap world offers p env observedAt
          generation head lawful admitted (not_le.mp late))
        refine reanchor_ensures env _ _ (fun _ refused => ?_) ?_
        · exact ⟨gapped.tail .anchorRefused, _, gapped, .anchor lawful refused⟩
        · exact fun loaded loads => gapped.tail (.anchor lawful loads)

theorem activate_ensures (env : Env) (watchSet : WatchSet) (post : Unit → Publisher → Prop)
    (fail : Error → Publisher → Prop)
    (refused : ∀ failure, p.active.generation < watchSet.generation →
      LoadFails env p watchSet failure → fail failure p)
    (stale : watchSet.generation ≤ p.active.generation → post () p)
    (activated : ∀ loaded, p.active.generation < watchSet.generation →
      Loads env p watchSet loaded →
      p.shared.validateEventFrame watchSet.generation
        (.configActivated (configActivated watchSet)) = .ok () →
      post () { ((p.installSnapshot env loaded).send env watchSet.generation
          (.configActivated (configActivated watchSet))
          (some (loaded.projection, some loaded.forkchoice, false))).send env watchSet.generation
          (.snapshot (snapshot loaded.projection loaded.forkchoice)) none with
        activeWatchSet := watchSet }) :
    (Publisher.activate env watchSet).Ensures p post fail := by
  unfold Publisher.activate
  rw [ensures_bind, ensures_get]
  split
  · next older => exact stale older
  · next newer =>
    rw [ensures_bind]
    replace newer := not_le.mp newer
    refine loadSnapshot_cases (refused · newer) fun loaded read view dictionary => ?_
    rw [ensures_bind, ensures_ofExcept]
    refine ⟨fun _ config => ?_, fun failure failed => refused failure newer (.config failed)⟩
    rw [ensures_bind, ensures_ofExcept]
    refine ⟨fun _ frames => ?_, fun failure failed =>
      refused failure newer (.frames read dictionary failed)⟩
    have sameGeneration := (validateProjectionDictionary_ok dictionary).1
    have configEncodes := Shared.publishInner_of_validated env
      (p.installSnapshot env loaded).shared rfl rfl config
      (some (loaded.projection, some loaded.forkchoice, false))
    have snapshotEncodes := Shared.publishInner_of_validated env
      ((p.installSnapshot env loaded).send env watchSet.generation
        (.configActivated (configActivated watchSet))
        (some (loaded.projection, some loaded.forkchoice, false))).shared rfl rfl
      (validateProjectionFrames_snapshot frames) none
    rw [sameGeneration] at snapshotEncodes
    rw [ensures_bind, ensures_modify, ensures_bind]
    refine (ensures_focus _ _ _).mpr ?_
    unfold Shared.publishState Ensures
    rw [configEncodes]
    change Ensures (_ >>= _) ((p.installSnapshot env loaded).send env watchSet.generation
      (.configActivated (configActivated watchSet))
      (some (loaded.projection, some loaded.forkchoice, false))) _ _
    rw [ensures_bind]
    refine (ensures_focus _ _ _).mpr ?_
    unfold Shared.publish Ensures
    rw [snapshotEncodes]
    exact activated loaded newer ⟨read, view, dictionary, frames⟩ config

theorem activate_ends {env : Env} (lawful : world env) {watchSet : WatchSet}
    (admitted : offers p (.activation watchSet)) :
    (Publisher.activate env watchSet).Ensures p
      (fun _ after => Steps world offers ⟨.idle, p⟩ ⟨.idle, after⟩)
      (fun failure after => after = p ∧ Stops world offers ⟨.idle, p⟩ failure) := by
  refine activate_ensures env watchSet _ _ (fun _ newer refused => ?_) (fun _ => .refl) ?_
  · exact ⟨rfl, _, .refl, .activation lawful admitted newer refused⟩
  exact fun loaded newer loads config => .single (.activate lawful admitted newer loads config)

theorem handleControl_ends {env : Env} (lawful : world env) {watchSet : WatchSet}
    (admitted : offers p (.activation watchSet)) :
    Ends world offers (Publisher.handleControl env watchSet) p := by
  have activated := activate_ends lawful admitted
  unfold Ends Leads Publisher.handleControl Ensures
  unfold Ensures at activated
  dsimp only at activated ⊢
  rcases outcome : Publisher.activate env watchSet p with ⟨result, after⟩
  rw [outcome] at activated
  cases result with
  | ok _ => exact activated
  | error _ =>
    cases activated.1
    exact Relation.ReflTransGen.refl

theorem maintain_ends {env : Env} (lawful : world env) (admitted : offers p .maintenance) :
    Ends world offers (Publisher.maintain env) p := by
  unfold Publisher.maintain Ends
  rw [leads_get, leads_bind]
  refine leads_processFinalityBudget lawful (.single (.maintain admitted))
    fun swept reached _ sameActive => ?_
  rw [leads_get, leads_bind]
  change Leads world offers ⟨.idle, p⟩ _ (swept.withStore _) _
  have expired := reached.tail (.expire lawful)
  rw [sameActive] at expired
  exact leads_publishRetired lawful expired fun after reached _ _ => reached

theorem handle_ends {env : Env} (lawful : world env) {event : FeedEvent}
    (admitted : offers p (.event event)) : Ends world offers (Publisher.handle env event) p := by
  unfold Publisher.handle Ends
  rw [leads_get]
  cases event with
  | executed observedAt generation block changes =>
    dsimp only
    split
    · exact .refl
    · next late =>
      exact ends_of_leads (projectCandidate_ends lawful (.ahead admitted)
        fun current => .executed admitted (not_le.mp late) current)
  | validated observedAt generation blockHash =>
    exact ends_of_leads (promoteValidated_ends lawful admitted)
  | validatedFallback observedAt generation block changes =>
    dsimp only
    split
    · exact .refl
    · next late =>
      exact ends_of_leads (projectCandidate_ends lawful (.ahead admitted)
        fun current => .fallback admitted (not_le.mp late) current)
  | canonicalStateReset observedAt generation head =>
    exact canonicalStateReset_ends lawful admitted
  | forkchoiceApplied observedAt generation view =>
    exact ends_of_leads (forkchoiceApplied_ends lawful admitted)
  | rejected observedAt generation blockHash reason =>
    exact ends_of_leads (rejected_ends lawful admitted)

theorem settle_steps {op : Op Publisher Error α} (reason : String)
    (ends : Ends world offers op p) :
    Steps world offers ⟨.idle, p⟩ (.ofLoop (Loop.settle reason (op p))) := by
  unfold Ends Leads Ensures at ends
  rcases outcome : op p with ⟨result, after⟩
  rw [outcome] at ends
  cases result with
  | ok _ => exact ends
  | error _ => exact ends.1.tail .recover

theorem retryReanchor_steps {env : Env} (lawful : world env) {origin : State} (reason : String)
    (reached : Steps world offers origin ⟨.anchoring true, p⟩) :
    Steps world offers origin (.ofLoop (Loop.retryReanchor env reason p)) := by
  have anchored := reanchor_ensures (p := p) env
    (fun _ after => Steps world offers origin ⟨.idle, after⟩)
    (fun _ after => Steps world offers origin ⟨.recovering true, after⟩)
    (fun _ _ => reached.tail .anchorFails) (fun loaded loads => reached.tail (.anchor lawful loads))
  unfold Loop.retryReanchor
  unfold Ensures at anchored
  rcases outcome : Publisher.reanchor env p with ⟨result, after⟩
  rw [outcome] at anchored
  cases result with
  | ok _ => exact anchored
  | error _ => exact anchored

theorem retry_steps {env : Env} (lawful : world env) (admitted : offers p .retry)
    (announced : Bool) (reason : String) :
    Steps world offers ⟨.recovering announced, p⟩ (.ofLoop (Loop.retry env announced reason p)) := by
  unfold Loop.retry
  cases announced with
  | true => exact retryReanchor_steps lawful reason (.single (.retryAnchor admitted))
  | false =>
    have gapped := announceGap_ensures (p := p) env reason
      (fun _ after => Steps world offers ⟨.recovering false, p⟩ ⟨.anchoring true, after⟩)
      (fun _ after => Steps world offers ⟨.recovering false, p⟩ ⟨.recovering false, after⟩)
      (fun _ _ => .single .retryBurns) (.single (.retryGap lawful admitted))
    unfold Ensures at gapped
    rcases outcome : Publisher.announceGap env reason p with ⟨result, after⟩
    rw [outcome] at gapped
    cases result with
    | ok _ => exact retryReanchor_steps lawful reason gapped
    | error _ => exact gapped

theorem stops_of_ensures {op : Op Publisher Error α} {failure : Error}
    {post : α → Publisher → Prop} {fail : Error → Publisher → Prop} (ensures : op.Ensures p post fail)
    (stops : ∀ failure after, fail failure after → Stops world offers origin failure)
    (failed : Loop.failureOf (op p).1 = some failure) : Stops world offers origin failure := by
  unfold Ensures at ensures
  rcases outcome : op p with ⟨result, after⟩
  rw [outcome] at ensures failed
  cases result with
  | ok _ => cases failed
  | error returned =>
    cases failed
    exact stops _ _ ensures

theorem reanchor_stops {env : Env} (lawful : world env) {retry : Bool} {failure : Error}
    (reached : Steps world offers origin ⟨.anchoring retry, p⟩)
    (failed : Loop.failureOf (Publisher.reanchor env p).1 = some failure) :
    Stops world offers origin failure := by
  refine stops_of_ensures (reanchor_ensures env (fun _ _ => True)
    (fun failure _ => LoadFails env p p.active failure) (fun _ refused => refused)
    fun _ _ => trivial) (fun _ _ refused => ?_) failed
  exact ⟨_, reached, .anchor lawful refused⟩

def GapOverflows (loop : Loop) (failure : Error) : Prop :=
  ∃ env reason overflow, loop.control = .recovering false reason ∧ failure = .encode overflow ∧
    Wire.encodeFrame (loop.publisher.shared.envelope env (loop.publisher.shared.sequence + 1)
      loop.publisher.active.generation
      (.gap { lastContiguousSequence := loop.publisher.shared.publishedSequence, reason }))
      loop.publisher.shared.maxFrameBytes = .error overflow

theorem failure_stops {env : Env} {input : Input} {loop : Loop} {failure : Error}
    (lawful : world env) (admitted : offers loop.publisher input)
    (failed : loop.failure env input = some failure) :
    Stops world offers (.ofLoop loop) failure ∨ GapOverflows loop failure := by
  obtain ⟨p, control⟩ := loop
  cases control with
  | idle =>
    left
    cases input with
    | event event =>
      exact stops_of_ensures (handle_ends lawful admitted) (fun _ _ stopped => stopped.2) failed
    | activation watchSet =>
      exact stops_of_ensures (activate_ends lawful admitted) (fun _ _ stopped => stopped.2) failed
    | maintenance =>
      exact stops_of_ensures (maintain_ends lawful admitted) (fun _ _ stopped => stopped.2) failed
    | loss => cases failed
    | retry => cases failed
  | recovering announced reason =>
    cases input with
    | retry =>
      cases announced with
      | true => exact .inl (reanchor_stops lawful (.single (.retryAnchor admitted)) failed)
      | false =>
        have gapped := announceGap_ensures (p := p) env reason
          (fun _ after => Steps world offers ⟨.recovering false, p⟩ ⟨.anchoring true, after⟩)
          (fun failure _ => GapOverflows ⟨p, .recovering false reason⟩ failure)
          (fun overflow overflows => ⟨env, reason, overflow, rfl, rfl, overflows⟩)
          (.single (.retryGap lawful admitted))
        unfold Ensures at gapped
        unfold Loop.failure at failed
        dsimp only at failed
        rcases outcome : Publisher.announceGap env reason p with ⟨result, after⟩
        rw [outcome] at gapped failed
        cases result with
        | ok _ => exact .inl (reanchor_stops lawful gapped failed)
        | error _ =>
          cases failed
          exact .inr gapped
    | _ => cases announced <;> cases failed

/-- What `allowed` admits, for an environment and an input that are judged apart. -/
def Allowed (world : Env → Prop) (offers : Publisher → Input → Prop) (publisher : Publisher)
    (env : Env) (input : Input) : Prop :=
  world env ∧ offers publisher input

theorem round_steps {loop after : Loop} (round : Loop.Round (Allowed world offers) loop after) :
    Steps world offers (.ofLoop loop) (.ofLoop after) := by
  obtain ⟨env, input, ⟨lawful, admitted⟩, taken⟩ := round
  obtain ⟨publisher, control⟩ := loop
  cases control with
  | idle =>
    cases input with
    | event event =>
      cases taken
      exact settle_steps _ (handle_ends lawful admitted)
    | activation watchSet =>
      cases taken
      exact settle_steps _ (handleControl_ends lawful admitted)
    | maintenance =>
      cases taken
      exact settle_steps _ (maintain_ends lawful admitted)
    | loss =>
      cases taken
      exact .single (.loss admitted)
    | retry => cases taken
  | recovering announced reason =>
    cases input with
    | retry =>
      cases taken
      exact retry_steps lawful admitted announced reason
    | _ => cases taken

theorem round_mono {allowed wider : Publisher → Env → Input → Prop} {loop after : Loop}
    (admits : ∀ p env input, allowed p env input → wider p env input)
    (round : Loop.Round allowed loop after) : Loop.Round wider loop after := by
  obtain ⟨env, input, admitted, taken⟩ := round
  exact ⟨env, input, admits _ _ _ admitted, taken⟩

theorem reaches_mono {allowed wider : Publisher → Env → Input → Prop} {start : Publisher}
    {loop : Loop} (admits : ∀ p env input, allowed p env input → wider p env input)
    (reached : Loop.Reaches allowed start loop) : Loop.Reaches wider start loop :=
  Relation.ReflTransGen.mono (fun _ _ => round_mono admits) _ _ reached

theorem reaches_any {allowed : Publisher → Env → Input → Prop} {start : Publisher}
    {loop : Loop} (reached : Loop.Reaches allowed start loop) :
    Loop.Reaches (Allowed (fun _ => True) fun _ _ => True) start loop :=
  reaches_mono (fun _ _ _ _ => ⟨trivial, trivial⟩) reached

theorem reaches_steps {start : Publisher} {loop : Loop}
    (reached : Loop.Reaches (Allowed world offers) start loop) :
    Steps world offers ⟨.idle, start⟩ (.ofLoop loop) := by
  induction reached with
  | refl => exact .refl
  | tail _ round ih => exact ih.trans (round_steps round)

theorem steps_invariant {inv : State → Prop} {origin state : State}
    (run : Steps world offers origin state) (init : inv origin)
    (preserved : ∀ state after, inv state → Step world offers state after → inv after) :
    inv state := by
  induction run with
  | refl => exact init
  | tail _ step ih => exact preserved _ _ ih step

theorem reaches_invariant {inv : State → Prop} {start : Publisher} {loop : Loop}
    (reached : Loop.Reaches (Allowed world offers) start loop) (init : inv ⟨.idle, start⟩)
    (preserved : ∀ state after, inv state → Step world offers state after → inv after) :
    inv (.ofLoop loop) :=
  steps_invariant (reaches_steps reached) init preserved

end Machine

end Statefeed
