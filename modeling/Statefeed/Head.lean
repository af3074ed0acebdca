import Statefeed.Machine.Heir

set_option autoImplicit false

namespace Statefeed

open Effect Effect.Op

structure Sparing (p : Publisher) (input : Input) : Prop where
  rejection : ∀ observedAt hash reason,
    input = .event (.rejected observedAt p.active.generation hash reason) →
    (p.store.candidates.get hash).any (·.stage = .executed) ∨
      (p.store.deferredExecuted.get hash).isSome →
    hash ≠ p.store.canonicalHash → ¬ p.store.Descends hash p.store.canonicalHash
  maintenance : input = .maintenance → ∀ sweep, p.store.finalitySweep = some sweep →
    Store.Acquits p.store.canonicalHash sweep p.store

namespace Machine

def Phase.Unnamed (hash : B256) : Phase → Prop
  | .placed _ next | .trimming _ next => next.Unnamed hash
  | .retiring _ hashes _ next => hash ∉ hashes ∧ next.Unnamed hash
  | _ => True

structure Reigns (base : Set B256) (state : State) : Prop where
  spares : Store.Spares state.publisher.store.canonicalHash base [] state.publisher.store
  unnamed : state.phase.Unnamed state.publisher.store.canonicalHash
  unburied : ∀ hash, state.phase.heir = some hash →
    hash ∈ state.publisher.store.tombstones → hash ∈ base
  fresh : state.phase.goal = .sweeping → state.phase = .sweeping ∧
    ∀ sweep, state.publisher.store.finalitySweep = some sweep → sweep.active = none

variable {base : Set B256} {p p' : Publisher} {phase phase' : Phase}

def Phase.Plain : Phase → Prop
  | .idle | .fencing _ | .expiring _ | .anchoring _ | .failed | .recovering _ => True
  | _ => False

theorem reigns_plain (plain : phase.Plain)
    (spares : Store.Spares p.store.canonicalHash base [] p.store) : Reigns base ⟨phase, p⟩ := by
  refine ⟨spares, ?_, ?_, ?_⟩
  · cases phase <;> trivial
  · intro hash found
    cases phase <;> first | exact plain.elim | cases found
  · intro swept
    cases phase <;> first | exact plain.elim | cases swept

theorem Reigns.keep (reigns : Reigns base ⟨phase, p⟩) (plain : phase'.Plain)
    (same : p'.store = p.store) : Reigns base ⟨phase', p'⟩ := by
  apply reigns_plain plain
  rw [same]
  exact reigns.spares

theorem spares_of_candidates {before after : Store} {canonical : B256}
    (spares : Store.Spares canonical base [] before)
    (current : after.canonicalHash = before.canonicalHash)
    (candidates : after.candidates.get canonical = before.candidates.get canonical)
    (tombstones : after.tombstones = before.tombstones) :
    Store.Spares canonical base [] after where
  current := current.trans spares.current
  seated := spares.seated.of_get candidates
  unnamed := List.not_mem_nil
  unburied member := spares.unburied (tombstones ▸ member)

theorem reigns_setStage {hash : B256} (reigns : Reigns base ⟨.idle, p⟩)
    (staged : p'.store = Publisher.setStage hash .validated p.store) :
    Reigns base ⟨.idle, p'⟩ := by
  have spares := reigns.spares
  refine reigns_plain trivial ?_
  rw [staged]
  refine ⟨rfl, ?_, List.not_mem_nil, spares.unburied⟩
  exact spares.seated.modify rfl fun entry _ => ⟨rfl, rfl, rfl⟩

theorem spares_placeCandidate {store : Store} {projection : Projection}
    (spares : Store.Spares store.canonicalHash base [] store)
    (foreign : projection.block.hash ≠ store.canonicalHash) (now : Instant)
    (stage : CandidateStage) (firstSequence : Nat) :
    Store.Spares store.canonicalHash base []
      (store.placeCandidate now projection stage true firstSequence) := by
  have settings := Store.settings_placeCandidate now projection stage true firstSequence store
  apply spares_of_candidates spares (Store.canonicalHash_of_settings settings)
  · rw [Store.candidates_placeCandidate, Table.get_insert, if_neg foreign.symm]
  · exact (Store.tombs_placeCandidate now projection stage firstSequence store).1

theorem Fresh.foreign {block : BlockMeta} (fresh : Fresh p block)
    (seated : Store.Seated p.store.canonicalHash p.store) :
    block.hash ≠ p.store.canonicalHash := by
  intro same
  obtain ⟨entry, stored, projected, _⟩ := seated
  rw [← same] at stored
  rw [(fresh.same entry stored).2] at projected
  cases projected

theorem reigns_head {now : Instant} {hash : B256} {sequence : Nat} (plain : phase'.Plain)
    (seated : Store.Seated hash p.store) (unburied : hash ∈ p.store.tombstones → hash ∈ base)
    (moved : p'.store = Publisher.commitCanonical now hash sequence p.store) :
    Reigns base ⟨phase', p'⟩ := by
  have scheduled : Store.Seated hash
      (Store.scheduleExpiry now p.store.canonicalHash { p.store with canonicalHash := hash }) ∧
      (Store.scheduleExpiry now p.store.canonicalHash
        { p.store with canonicalHash := hash }).tombstones = p.store.tombstones ∧
      (Store.scheduleExpiry now p.store.canonicalHash
        { p.store with canonicalHash := hash }).canonicalHash = hash := by
    unfold Store.scheduleExpiry
    split
    · exact ⟨seated, rfl, rfl⟩
    · split
      · exact ⟨seated.modify rfl fun entry validated => ⟨rfl, validated, rfl⟩, rfl, rfl⟩
      · exact ⟨seated, rfl, rfl⟩
  obtain ⟨kept, tombstones, canonical⟩ := scheduled
  apply reigns_plain plain
  rw [moved]
  refine ⟨rfl, ?_, List.not_mem_nil, ?_⟩
  · change Store.Seated (Store.scheduleExpiry _ _ _).canonicalHash _
    rw [canonical]
    refine kept.modify rfl fun entry validated => ?_
    split <;> exact ⟨rfl, validated, rfl⟩
  · change (Store.scheduleExpiry _ _ _).canonicalHash ∈ (Store.scheduleExpiry _ _ _).tombstones → _
    rw [tombstones]
    change _ → (Store.scheduleExpiry _ _ _).canonicalHash ∈ base
    rw [canonical]
    exact unburied

theorem reigns_anchor {env : Env} {loaded : CanonicalSnapshot}
    (anchored : p'.store = (p.installSnapshot env loaded).store) : Reigns base ⟨.idle, p'⟩ := by
  refine reigns_plain trivial ?_
  rw [anchored]
  refine ⟨rfl, ?_, List.not_mem_nil, fun member => absurd member (Finset.notMem_empty _)⟩
  exact Store.seated_resetCandidates _ _ _ _

theorem reigns_retiring {generation : Generation} {hashes : List B256}
    {reason : Wire.RetirementReason} {next : Phase}
    (spares : Store.Spares p.store.canonicalHash base hashes p.store)
    (unnamed : next.Unnamed p.store.canonicalHash) (settled : next.goal ≠ .sweeping)
    (unburied : ∀ hash, next.heir = some hash → hash ∈ p.store.tombstones → hash ∈ base) :
    Reigns base ⟨.retiring generation hashes reason next, p⟩ where
  spares := ⟨spares.current, spares.seated, List.not_mem_nil, spares.unburied⟩
  unnamed := ⟨spares.unnamed, unnamed⟩
  unburied := unburied
  fresh swept := absurd swept settled

theorem spares_of_settings {before after : Store} {named : List B256}
    (settings : after.settings = before.settings)
    (spares : Store.Spares before.canonicalHash base named after) :
    Store.Spares after.canonicalHash base named after := by
  rw [Store.canonicalHash_of_settings settings]
  exact spares

theorem reigns_trimmed {generation : Generation} {hashes : List B256}
    {reason : Wire.RetirementReason} {next : Phase} (reigns : Reigns base ⟨phase, p⟩)
    (heir : phase.heir = next.heir) (unnamed : next.Unnamed p.store.canonicalHash)
    (settled : next.goal ≠ .sweeping) (settings : p'.store.settings = p.store.settings)
    (tombstones : p'.store.tombstones = p.store.tombstones)
    (kept : Store.Spares p.store.canonicalHash base hashes p'.store) :
    Reigns base ⟨.retiring generation hashes reason next, p'⟩ := by
  rw [← Store.canonicalHash_of_settings settings] at unnamed
  refine reigns_retiring (spares_of_settings settings kept) unnamed settled ?_
  intro hash inherits member
  rw [tombstones] at member
  exact reigns.unburied hash (heir.trans inherits) member

theorem reigns_swept {generation : Generation} {hashes : List B256}
    {reason : Wire.RetirementReason} {next : Phase} {store : Store} (plain : next.Plain)
    (settings : p'.store.settings = store.settings)
    (kept : Store.Spares store.canonicalHash base hashes p'.store) :
    Reigns base ⟨.retiring generation hashes reason next, p'⟩ := by
  refine reigns_retiring (spares_of_settings settings kept) ?_ ?_ ?_
  · cases next <;> trivial
  · cases next <;> first | exact plain.elim | simp [Phase.goal]
  · intro hash found
    cases next <;> first | exact plain.elim | cases found

theorem reigns_fence {applied : AppliedForkchoiceMeta} {view : ForkchoiceMeta}
    (reigns : Reigns base ⟨.fencing applied, p⟩)
    (fenced : p'.store = (afterFence view p.store).2) :
    Reigns base ⟨(afterFence view p.store).1, p'⟩ := by
  have spares := reigns.spares
  unfold afterFence at fenced ⊢
  cases finalized : view.finalized with
  | none =>
    rw [finalized] at fenced
    exact reigns.keep trivial fenced
  | some checkpoint =>
    rw [finalized] at fenced
    dsimp only at fenced ⊢
    by_cases moved : some checkpoint ≠ p.store.lastFinalized
    · rw [if_pos moved] at fenced ⊢
      refine ⟨?_, trivial, nofun, fun _ => ⟨rfl, ?_⟩⟩
      · change Store.Spares p'.store.canonicalHash base [] p'.store
        rw [fenced]
        exact ⟨rfl, spares.seated, List.not_mem_nil, spares.unburied⟩
      · intro sweep pending
        change p'.store.finalitySweep = _ at pending
        rw [fenced] at pending
        cases pending
        rfl
    · rw [if_neg moved] at fenced ⊢
      exact reigns.keep trivial fenced

theorem reigns_place {next : Phase} {projection : Projection} {now : Instant}
    {stage : CandidateStage} {firstSequence : Nat} (reigns : Reigns base ⟨.idle, p⟩)
    (foreign : projection.block.hash ≠ p.store.canonicalHash)
    (unnamed : next.Unnamed p.store.canonicalHash) (settled : next.goal ≠ .sweeping)
    (placed : p'.store = p.store.placeCandidate now projection stage true firstSequence)
    (unburied : ∀ hash, next.heir = some hash → hash ∈ p'.store.tombstones → hash ∈ base) :
    Reigns base ⟨.placed projection next, p'⟩ := by
  have canonical : p'.store.canonicalHash = p.store.canonicalHash := by
    rw [placed]
    exact Store.canonicalHash_of_settings (Store.settings_placeCandidate _ _ _ _ _ _)
  refine ⟨?_, ?_, unburied, fun swept => absurd swept settled⟩
  · change Store.Spares p'.store.canonicalHash base [] p'.store
    rw [canonical, placed]
    exact spares_placeCandidate reigns.spares foreign now stage firstSequence
  · change next.Unnamed p'.store.canonicalHash
    rw [canonical]
    exact unnamed

variable {chain : B256 → BlockMeta} {offers : Publisher → Input → Prop} {cache metadata : Nat}

theorem reigns_step (sparing : ∀ q input, offers q input → Sparing q input)
    (pinned : ∀ q event, offers q (.event event) → ∀ hash ∈ q.store.tombstones, hash ∈ base)
    (room : 1 ≤ metadata) {state after : State}
    (crowned : state.publisher.store.canonicalHash =
      state.publisher.shared.published.canonical.block.hash)
    (stored : Stored chain cache metadata state) (awaited : Awaited state)
    (reigns : Reigns base state) (step : Step (Chained chain) offers state after) :
    Reigns base after := by
  have spares := reigns.spares
  cases step with
  | promote => exact reigns_setStage reigns rfl
  | validate => exact reigns_setStage reigns rfl
  | @announce p env stage block changes inherited applied projection lawful delta fresh inherits
      changed assembled =>
    refine reigns_place reigns ?_ trivial nofun rfl nofun
    rw [assembled]
    exact fresh.foreign spares.seated
  | @defer p env block changes =>
    have settings := Store.settings_placeDeferred (env.now .insertDeferred) block changes p.store
    refine ⟨spares_of_settings settings ?_, trivial, nofun, nofun⟩
    apply spares_of_candidates spares (Store.canonicalHash_of_settings settings)
    · rw [Store.candidates_placeDeferred]
    · exact (Store.unchanged_placeDeferred _ _ _ _).2.2.1
  | @trimProjections p projection next evicted store trimmed =>
    have settings := Store.settings_of_projections trimmed
    have tombstones := Store.tombstones_trimProjectionCache projection.block.hash p.store
    have kept := spares.trimProjectionCache.1 evicted store trimmed
    have settled : next.goal ≠ .sweeping := fun swept => nomatch (reigns.fresh swept).1
    rw [trimmed] at tombstones
    exact reigns_trimmed reigns rfl reigns.unnamed settled settings tombstones kept
  | trimProjectionsFails trimmed =>
    have kept := spares.trimProjectionCache.2 _ _ trimmed
    exact reigns_plain trivial (spares_of_settings (Store.settings_of_projections trimmed) kept)
  | @trimMetadata p generation next removed store trimmed =>
    have settings := Store.settings_of_metadata trimmed
    have tombstones := Store.tombstones_trimMetadata p.store
    have kept := spares.trimMetadata trimmed
    have settled : next.goal ≠ .sweeping := fun swept => nomatch (reigns.fresh swept).1
    rw [trimmed] at tombstones
    exact reigns_trimmed reigns rfl reigns.unnamed settled settings tombstones kept
  | @trimMetadataFails p generation next failure store trimmed =>
    -- A well-formed queue always has a record to remove.
    obtain ⟨removed, left, returned⟩ := stored.formed.trimMetadata_returns
      (room.trans_eq stored.metadataLimit.symm)
    rw [trimmed] at returned
    cases returned
  | @retire p env generation batch rest reason next =>
    obtain ⟨unlisted, unnamed⟩ := reigns.unnamed
    rw [List.mem_append, not_or] at unlisted
    have settled : next.goal ≠ .sweeping := fun swept => nomatch (reigns.fresh swept).1
    refine reigns_retiring ?_ unnamed settled reigns.unburied
    exact ⟨rfl, spares.seated, unlisted.2, spares.unburied⟩
  | @retired p generation reason next =>
    exact ⟨spares, reigns.unnamed.2, reigns.unburied,
      fun swept => nomatch (reigns.fresh swept).1⟩
  | @reject p env observedAt hash reason lawful admitted rejectable =>
    have settings := Store.settings_removeCandidateTree hash true p.store
    refine reigns_plain trivial (spares_of_settings settings ?_)
    by_cases guarded : hash = p.store.canonicalHash
    · unfold Store.removeCandidateTree
      rw [if_pos guarded]
      exact spares
    · exact spares.removeCandidateTree
        ((sparing p _ admitted).rejection observedAt hash reason rfl rejectable guarded) true
  | @adopt p env _ _ applied projection _ lawful admitted _ _ moved found dictionary identity =>
    have foreign : projection.block.hash ≠ p.store.canonicalHash := by
      rw [identity, crowned]
      exact moved
    refine reigns_place reigns foreign trivial nofun rfl fun hash heir member => ?_
    cases heir
    have same := (Store.tombs_placeCandidate (env.now .insertCandidate) projection .validated 0
      p.store).1
    exact pinned p _ admitted _ (same ▸ member)
  | head => exact reigns_head trivial (awaited _ rfl) (reigns.unburied _ rfl) rfl
  | reaffirm => exact reigns.keep trivial rfl
  | fence => exact reigns_fence reigns rfl
  | @sweep p =>
    refine reigns_swept trivial (Store.settings_processFinalityBudget _ _) ?_
    exact spares.processFinalityBudget
      (fun sweep pending => Store.acquits_idle ((reigns.fresh rfl).2 sweep pending)) _
  | @maintain p admitted =>
    refine reigns_swept trivial (Store.settings_processFinalityBudget _ _) ?_
    exact spares.processFinalityBudget ((sparing p _ admitted).maintenance rfl) _
  | @expire p env budget =>
    refine reigns_swept trivial (Store.settings_removeEach _ _ _) ?_
    exact spares.removeEach (Store.canonicalHash_not_mem_dueRecords _ _ _ _)
  | gap => exact reigns.keep trivial rfl
  | retryGap => exact reigns.keep trivial rfl
  | retryBurns => exact reigns.keep trivial rfl
  | retryAnchor => exact reigns.keep trivial rfl
  | anchor => exact reigns_anchor rfl
  | anchorRefused => exact reigns.keep trivial rfl
  | anchorFails => exact reigns.keep trivial rfl
  | activate => exact reigns_anchor rfl
  | refuse => exact reigns.keep trivial rfl
  | burn => exact reigns.keep trivial rfl
  | recover => exact reigns.keep trivial rfl
  | loss => exact reigns.keep trivial rfl

/-- A frame that retires candidates does not name the block that is canonical when it is sent. -/
def RetiresOthers (start : Publisher) (before : List PublishedFrame) (frame : PublishedFrame) :
    Prop :=
  ∀ retired, frame.envelope.event = some (.candidatesRetired retired) →
    B256.toVec (publishedAfter start before).canonical.block.hash ∉ retired.blockHashes

theorem each_send {start : Publisher} {env : Env} {generation : Generation} {event : Wire.Event}
    {nextState : Option (Projection × Option ForkchoiceMeta × Bool)}
    (each : History.Each (RetiresOthers start) p.shared.frames)
    (other : ∀ retired, event ≠ .candidatesRetired retired) :
    History.Each (RetiresOthers start) (p.send env generation event nextState).shared.frames := by
  refine History.each_concat.mpr ⟨each, fun retired read => ?_⟩
  exact absurd (Option.some.inj read) (other retired)

theorem retiresOthers_step {start : Publisher} {world : Env → Prop} {state after : State}
    (crowned : state.publisher.store.canonicalHash =
      state.publisher.shared.published.canonical.block.hash)
    (latest : publishedAfter start state.publisher.shared.frames =
      state.publisher.shared.published)
    (reigns : Reigns base state)
    (each : History.Each (RetiresOthers start) state.publisher.shared.frames)
    (step : Step world offers state after) :
    History.Each (RetiresOthers start) after.publisher.shared.frames := by
  cases step with
  | @retire p env generation batch rest reason next =>
    refine History.each_concat.mpr ⟨each, ?_⟩
    rintro retired ⟨rfl⟩ member
    rw [latest, ← crowned] at member
    obtain ⟨hash, inside, same⟩ := List.mem_map.mp member
    apply reigns.unnamed.1
    rw [← B256.toVec_injective same]
    exact List.mem_append_left _ inside
  | validate => exact each_send each nofun
  | announce => exact each_send each nofun
  | reject => exact each_send each nofun
  | head => exact each_send each nofun
  | fence => exact each_send each nofun
  | gap => exact each_send each nofun
  | retryGap => exact each_send each nofun
  | anchor => exact each_send (p := Publisher.installSnapshot _ _ _) each nofun
  | @activate p env watchSet loaded =>
    have config : History.Each (RetiresOthers start)
        ((p.installSnapshot env loaded).send env watchSet.generation
          (.configActivated (configActivated watchSet))
          (some (loaded.projection, some loaded.forkchoice, false))).shared.frames :=
      each_send (p := p.installSnapshot env loaded) each nofun
    exact each_send config nofun
  | _ => exact each

section

variable {env : Env} {options : Publisher.ServiceOptions} {watchSet : WatchSet} {start : Publisher}

structure Throned (chain : B256 → BlockMeta) (stream : StreamConfig) (bootId : Bytes)
    (start : Publisher) (base : Set B256) (state : State) : Prop where
  identified : Identified chain state
  stored : Stored chain stream.candidateCacheBlocks stream.candidateMetadataEntries state
  streaming : Streaming bootId (Monitor.initial start) state
  awaited : Awaited state
  reigns : Reigns base state
  others : History.Each (RetiresOthers start) state.publisher.shared.frames

theorem throned_step (started : Publisher.startService env options watchSet = some start)
    (sparing : ∀ q input, offers q input → Sparing q input)
    (numbered : ∀ q input, offers q input → Numbered chain q input)
    (pinned : ∀ q event, offers q (.event event) → ∀ hash ∈ q.store.tombstones, hash ∈ base)
    {state after : State} (throned : Throned chain options.stream options.bootId start base state)
    (step : Step (Chained chain) offers state after) :
    Throned chain options.stream options.bootId start base after := by
  obtain ⟨loaded, starts, initial⟩ := Publisher.startService_eq_some.mp started
  obtain ⟨cache, metadata, _⟩ := StreamConfig.validate_limits starts.config
  obtain ⟨identified, stored, streaming, awaited, reigns, others⟩ := throned
  obtain ⟨monitor, stream, tracks⟩ := streaming
  have later := stored_step numbered ⟨Nat.le_of_lt cache, by omega⟩ identified stored step
  have latest : publishedAfter start state.publisher.shared.frames =
      state.publisher.shared.published := (Monitor.latest_stream stream).trans tracks.published
  exact ⟨filled_step (spreads_chained numbered) identified step, later,
    streaming_step (Monitor.coherent_initial started) ⟨monitor, stream, tracks⟩ step,
    awaited_step ⟨cache, cache.trans metadata⟩ stored later awaited step,
    reigns_step sparing pinned (by omega) tracks.canonical stored awaited reigns step,
    retiresOthers_step tracks.canonical latest reigns others step⟩

theorem throned_initial (chained : Chained chain env)
    (started : Publisher.startService env options watchSet = some start) :
    Throned chain options.stream options.bootId start Set.univ ⟨.idle, start⟩ := by
  obtain ⟨identified, stored, _⟩ := stored_initial chained started
  have streaming := streaming_initial started
  obtain ⟨loaded, starts, rfl⟩ := Publisher.startService_eq_some.mp started
  refine ⟨identified, stored, streaming, awaited_of_none rfl, reigns_plain trivial ?_,
    History.each_nil⟩
  exact ⟨rfl, Store.seated_newConfigured _ _ _ _, List.not_mem_nil, fun _ => trivial⟩

theorem plain_ofControl (control : Control) : (Phase.ofControl control).Plain := by
  cases control <;> trivial

end

end Machine

/-- The inputs of a run in which the canonical record is spared. -/
def Spared (chain : B256 → BlockMeta) (p : Publisher) (input : Input) : Prop :=
  Numbered chain p input ∧ Sparing p input

open Machine in
theorem canonical_head_kept {chain : B256 → BlockMeta} {env : Env}
    {options : Publisher.ServiceOptions} {watchSet : WatchSet} {start : Publisher} {loop : Loop}
    (chained : Chained chain env)
    (started : Publisher.startService env options watchSet = some start)
    (reached : Loop.Reaches (Allowed (Chained chain) (Spared chain)) start loop) :
    Store.Seated loop.publisher.store.canonicalHash loop.publisher.store ∧
      loop.publisher.store.canonicalHash =
        loop.publisher.shared.published.canonical.block.hash ∧
      History.Each (RetiresOthers start) loop.publisher.shared.frames ∧
      ∀ after, Loop.Round (Allowed (Chained chain) (Spared chain)) loop after →
        after.publisher.store.canonicalHash ∈ after.publisher.store.tombstones →
        after.publisher.store.canonicalHash ∈ loop.publisher.store.tombstones := by
  have throned := @reaches_invariant _ _
    (Throned chain options.stream options.bootId start Set.univ) start loop reached
    (throned_initial chained started) fun state after throned step =>
      throned_step started (fun _ _ offered => offered.2) (fun _ _ offered => offered.1)
        (fun _ _ _ _ _ => trivial) throned step
  obtain ⟨monitor, stream, tracks⟩ := throned.streaming
  refine ⟨throned.reigns.spares.seated, tracks.canonical, throned.others, fun after round => ?_⟩
  -- In this round an event is taken up before any tombstone is added.
  have steps : Steps (Chained chain) (fun q input => Spared chain q input ∧
      q.store.tombstones = loop.publisher.store.tombstones) (.ofLoop loop) (.ofLoop after) := by
    apply round_steps
    obtain ⟨env, input, allowed, taken⟩ := round
    exact ⟨env, input, ⟨allowed.1, allowed.2, rfl⟩, taken⟩
  have origin : Throned chain options.stream options.bootId start
      loop.publisher.store.tombstones (.ofLoop loop) :=
    ⟨throned.identified, throned.stored, throned.streaming, throned.awaited,
      reigns_plain (plain_ofControl _) ⟨rfl, throned.reigns.spares.seated, List.not_mem_nil, id⟩,
      throned.others⟩
  have kept := @steps_invariant _ _ (Throned chain options.stream options.bootId start
      loop.publisher.store.tombstones) _ _ steps origin fun state after throned step =>
    throned_step started (fun _ _ offered => offered.1.2) (fun _ _ offered => offered.1.1)
      (fun _ _ offered hash member => offered.2 ▸ member) throned step
  exact kept.reigns.spares.unburied

namespace Sample

def rejectedAncestor : List Input :=
  [.event (executed 2 1), .event (executed 3 2), .event (applied 3 3),
    .event (.rejected 4 1 2 "invalid")]

def frugal : Publisher.ServiceOptions :=
  { options with stream := { StreamConfig.default with retirementWorkBudget := 1 } }

def frugalStart : Publisher := .initial (env 1 0) frugal watchSet (loaded 1)

theorem frugal_started : Publisher.startService (env 1 0) frugal watchSet = some frugalStart := by
  refine Publisher.startService_eq_some.mpr ⟨loaded 1, ?_, rfl⟩
  exact ⟨by decide, by decide, rfl, by decide, by decide, by decide +kernel⟩

def disputed (hash : B256) (observedAt : Instant) : FeedEvent :=
  .forkchoiceApplied observedAt 1
    { headHash := hash, safe := none, finalized := some { number := 2, hash := 99 } }

def suspendedWalk : List Input :=
  [.event (executed 2 1), .event (executed 3 2), .event (disputed 2 3), .maintenance, .maintenance,
    .event (disputed 3 4), .maintenance]

theorem foretold_rejectedAncestor (p : Publisher) (input : Input)
    (member : input ∈ rejectedAncestor) :
    Machine.Allowed (Chained block) (fun _ => Foretold block) p (env 1 0) input := by
  refine ⟨sample_chained 1 0, ?_⟩
  simp only [rejectedAncestor, List.mem_cons, List.not_mem_nil, or_false] at member
  rcases member with rfl | rfl | rfl | rfl
  · exact sample_foretold_executed 2 1
  · exact sample_foretold_executed 3 2
  · exact foretold_of_no_delta (by rintro event ⟨rfl⟩; rfl)
  · exact foretold_of_no_delta (by rintro event ⟨rfl⟩; rfl)

theorem foretold_suspendedWalk (p : Publisher) (input : Input) (member : input ∈ suspendedWalk) :
    Machine.Allowed (Chained block) (fun _ => Foretold block) p (env 1 0) input := by
  refine ⟨sample_chained 1 0, ?_⟩
  simp only [suspendedWalk, List.mem_cons, List.not_mem_nil, or_false] at member
  rcases member with rfl | rfl | rfl | rfl | rfl | rfl | rfl
  · exact sample_foretold_executed 2 1
  · exact sample_foretold_executed 3 2
  all_goals exact foretold_of_no_delta (by rintro event ⟨rfl⟩ <;> rfl)

end Sample

def Deposed (loop : Loop) : Prop :=
  loop.control = .idle ∧
    loop.publisher.store.candidates.get loop.publisher.store.canonicalHash = none ∧
    loop.publisher.store.canonicalHash ∈ loop.publisher.store.tombstones

theorem canonical_head_removed :
    (Publisher.startService (Sample.env 1 0) Sample.options Sample.watchSet = some Sample.start ∧
      ∃ loop, Loop.Reaches (Machine.Allowed (Chained Sample.block) fun _ => Foretold Sample.block)
        Sample.start loop ∧ Deposed loop) ∧
    Publisher.startService (Sample.env 1 0) Sample.frugal Sample.watchSet =
        some Sample.frugalStart ∧
      ∃ loop, Loop.Reaches (Machine.Allowed (Chained Sample.block) fun _ => Foretold Sample.block)
        Sample.frugalStart loop ∧ Deposed loop := by
  have evaluated (loop : Loop) : Deposed loop ↔ loop.control = .idle ∧
      (loop.publisher.store.candidates.get loop.publisher.store.canonicalHash).isNone = true ∧
      loop.publisher.store.canonicalHash ∈ loop.publisher.store.tombstones := by
    rw [Deposed, Option.isNone_iff_eq_none]
  simp only [evaluated]
  refine ⟨⟨Sample.started, ?_⟩, Sample.frugal_started, ?_⟩
  · exact Sample.exists_of_run Sample.start _ Sample.foretold_rejectedAncestor (by decide +kernel)
  · exact Sample.exists_of_run Sample.frugalStart _ Sample.foretold_suspendedWalk
      (by decide +kernel)

namespace Sample

def agreed (hash : B256) (observedAt : Instant) : FeedEvent :=
  .forkchoiceApplied observedAt 1
    { headHash := hash, safe := none, finalized := some { number := 2, hash := 2 } }

def acquittedWalk : List Input :=
  [.event (executed 2 1), .event (executed 3 2), .event (agreed 2 3), .maintenance, .maintenance,
    .event (agreed 3 4), .maintenance, .event (executed 4 5), .event (.rejected 6 1 4 "invalid")]

def acquits (store : Store) (sweep : FinalitySweep) : Bool :=
  sweep.active.all fun walk => walk.root ≠ store.canonicalHash ∨
    (sweep.classifications.get walk.current).isNone ∧
      (store.blockMeta walk.current).any fun block =>
        block.number = sweep.checkpoint.number ∧ block.hash = sweep.checkpoint.hash

def spares (p : Publisher) (input : Input) : Bool :=
  p.store.nextIncarnation + 1 < 2 ^ 64 &&
    match input with
    | .maintenance => p.store.finalitySweep.all (acquits p.store)
    | .event (.rejected _ _ hash _) => (p.store.treeChildren hash).isEmpty
    | _ => true

theorem acquits_sound {store : Store} {sweep : FinalitySweep}
    (checked : acquits store sweep = true) : Store.Acquits store.canonicalHash sweep store := by
  intro walk active root _ condemned
  rw [acquits, active, Option.all_some, decide_eq_true_iff] at checked
  obtain ⟨unknown, found⟩ := checked.resolve_left (not_not.mpr root)
  obtain ⟨block, stored, finalized⟩ := (Option.any_eq_true _ _).mp found
  obtain ⟨level, same⟩ := of_decide_eq_true finalized
  rw [Option.isNone_iff_eq_none] at unknown
  cases condemned with
  | remembered conflict => cases unknown.symm.trans conflict
  | replaced _ known _ other =>
    cases stored.symm.trans known
    exact other same
  | buried _ known above | inherited _ known above =>
    cases stored.symm.trans known
    omega

theorem spares_sound {p : Publisher} {input : Input} (checked : spares p input = true)
    (foretold : Foretold block input) : Spared block p input := by
  obtain ⟨unwrapped, checked⟩ := Bool.and_eq_true_iff.mp checked
  refine ⟨⟨of_decide_eq_true unwrapped, foretold⟩, ?_, ?_⟩
  · rintro observedAt hash reason rfl _ other descends
    have leaf : p.store.treeChildren hash = [] := List.isEmpty_iff.mp checked
    rcases Relation.ReflTransGen.cases_head descends with same | ⟨child, member, _⟩
    · exact other same
    · rw [leaf] at member
      cases member
  · rintro rfl sweep pending
    have checked : p.store.finalitySweep.all (acquits p.store) = true := checked
    rw [pending] at checked
    exact acquits_sound checked

theorem spared_acquittedWalk (p : Publisher) (input : Input) (member : input ∈ acquittedWalk)
    (checked : spares p input = true) :
    Machine.Allowed (Chained block) (Spared block) p (env 1 0) input := by
  refine ⟨sample_chained 1 0, spares_sound checked ?_⟩
  simp only [acquittedWalk, List.mem_cons, List.not_mem_nil, or_false] at member
  rcases member with rfl | rfl | rfl | rfl | rfl | rfl | rfl | rfl | rfl <;> first
    | exact sample_foretold_executed _ _
    | exact foretold_of_no_delta (by rintro event ⟨rfl⟩ <;> rfl)

end Sample

theorem canonical_head_kept_sample :
    ∃ loop, Loop.Reaches (Machine.Allowed (Chained Sample.block) (Spared Sample.block))
        Sample.frugalStart loop ∧
      (loop.publisher.store.canonicalHash = 3 ∧ loop.publisher.shared.frames.length = 8) ∧
      Store.Seated 3 loop.publisher.store := by
  obtain ⟨loop, reached, head, frames⟩ := Sample.exists_of_checkedRun Sample.frugalStart
    (fun loop => loop.publisher.store.canonicalHash = 3 ∧
      loop.publisher.shared.frames.length = 8) Sample.spared_acquittedWalk (by decide +kernel)
  have seated := (canonical_head_kept (sample_chained 1 0) Sample.frugal_started reached).1
  exact ⟨loop, reached, ⟨head, frames⟩, head ▸ seated⟩

end Statefeed
