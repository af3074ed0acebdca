import Statefeed.Stream.Monitor

set_option autoImplicit false

namespace Statefeed.Machine

def Phase.goal : Phase → Phase
  | .placed _ next | .trimming _ next | .retiring _ _ _ next => next.goal
  | phase => phase

def Phase.Resumes : Phase → Prop
  | .idle | .heading _ _ _ | .expiring _ => True
  | _ => False

def Phase.AtGeneration (generation : Generation) : Phase → Prop
  | .placed projection next =>
    projection.watchSet.generation = generation ∧ next.AtGeneration generation
  | .trimming announced next | .retiring announced _ _ next =>
    announced = generation ∧ next.AtGeneration generation
  | .heading projection _ _ => projection.watchSet.generation = generation
  | _ => True

def Staged (stage : StreamStage) (published allocated : Nat) : Phase → Prop
  | .idle | .heading _ _ _ | .sweeping | .expiring _ => stage = .live ∧ allocated = published
  | .fencing _ => (stage = .live ∨ stage = .headed) ∧ allocated = published
  | .anchoring _ | .recovering true => stage = .gapped ∧ allocated = published
  | .recovering false => (stage = .live ∨ stage = .headed) ∧ published ≤ allocated
  | .failed => (stage = .live ∨ stage = .headed) ∧ published ≤ allocated ∨
      stage = .gapped ∧ allocated = published
  | .placed _ _ | .trimming _ _ | .retiring _ _ _ _ => False

structure Tracks (bootId : Bytes) (monitor : Monitor) (state : State) : Prop where
  boot : state.publisher.shared.bootId = bootId
  last : monitor.last = state.publisher.shared.publishedSequence
  published : monitor.published = state.publisher.shared.published
  canonical : state.publisher.store.canonicalHash =
    state.publisher.shared.published.canonical.block.hash
  nested : state.phase.goal = state.phase ∨ state.phase.goal.Resumes
  generations : state.phase.AtGeneration state.publisher.active.generation
  heading : ∀ projection changedBitmap applied,
    state.phase.goal = .heading projection changedBitmap applied →
    projection.block.hash ≠ state.publisher.shared.published.canonical.block.hash ∧
      projection.watchSet = state.publisher.active
  staged : Staged monitor.stage state.publisher.shared.publishedSequence
    state.publisher.shared.sequence state.phase.goal

def Streaming (bootId : Bytes) (start : Monitor) (state : State) : Prop :=
  ∃ monitor, Monitor.Stream bootId start state.publisher.shared.frames monitor ∧
    Tracks bootId monitor state

variable {world : Env → Prop} {offers : Publisher → Input → Prop} {bootId : Bytes}
  {monitor start : Monitor} {p : Publisher} {phase : Phase}

theorem Tracks.unfenced (tracks : Tracks bootId monitor ⟨phase, p⟩) (working : phase.Working) :
    (monitor.stage = .live ∨ monitor.stage = .headed) ∧
      p.shared.publishedSequence ≤ p.shared.sequence := by
  have resumed (resumes : phase.goal.Resumes) : (monitor.stage = .live ∨ monitor.stage = .headed) ∧
      p.shared.publishedSequence ≤ p.shared.sequence := by
    have staged := tracks.staged
    dsimp only at staged
    cases goal : phase.goal with
    | idle | heading | expiring =>
      rw [goal] at staged
      exact ⟨.inl staged.1, staged.2.ge⟩
    | _ => rw [goal] at resumes; exact resumes.elim
  rcases tracks.nested with base | resumes
  · have staged := tracks.staged
    dsimp only at base staged
    rw [base] at staged
    cases phase with
    | idle | heading | expiring | sweeping => exact ⟨.inl staged.1, staged.2.ge⟩
    | fencing => exact ⟨staged.1, staged.2.ge⟩
    | placed | trimming | retiring => exact staged.elim
    | anchoring | failed | recovering => exact working.elim
  · exact resumed resumes

theorem stamped_sent (env : Env) (event : Wire.Event) (stored : Option PublishedState)
    {shared : Shared} {sequence : Nat} {generation announced : Generation}
    (boot : shared.bootId = bootId) (next : shared.sequence + 1 = sequence)
    (same : generation = announced) :
    Monitor.Stamped bootId
      (PublishedFrame.mk (shared.envelope env (shared.sequence + 1) generation event) stored).envelope
      sequence announced event :=
  ⟨rfl, boot, next, same, rfl⟩

theorem staged_live {published : Nat} {phase : Phase} (resumes : phase.Resumes) :
    Staged .live published published phase := by
  cases phase with
  | idle | heading | expiring => exact ⟨rfl, rfl⟩
  | _ => exact resumes.elim

theorem Tracks.active (tracks : Tracks bootId monitor ⟨phase, p⟩) :
    monitor.active = p.active := by
  rw [Monitor.active, tracks.published]
  rfl

theorem Tracks.live (tracks : Tracks bootId monitor ⟨phase, p⟩) (resumes : phase.goal.Resumes) :
    monitor.stage = .live ∧ p.shared.sequence = p.shared.publishedSequence := by
  have staged := tracks.staged
  dsimp only at staged
  cases goal : phase.goal with
  | idle | heading | expiring => rw [goal] at staged; exact staged
  | _ => rw [goal] at resumes; exact resumes.elim

theorem Tracks.quiet {next : Phase} {store : Store} (tracks : Tracks bootId monitor ⟨phase, p⟩)
    (canonical : store.canonicalHash = p.store.canonicalHash)
    (nested : next.goal = next ∨ next.goal.Resumes)
    (generations : next.AtGeneration p.active.generation)
    (heading : ∀ projection changedBitmap applied,
      next.goal = .heading projection changedBitmap applied →
      projection.block.hash ≠ p.shared.published.canonical.block.hash ∧
        projection.watchSet = p.active)
    (staged : Staged monitor.stage p.shared.publishedSequence p.shared.sequence next.goal) :
    Tracks bootId monitor ⟨next, p.withStore store⟩ :=
  ⟨tracks.boot, tracks.last, tracks.published, canonical.trans tracks.canonical, nested, generations,
    heading, staged⟩

theorem Tracks.onward {next : Phase} {store : Store} (tracks : Tracks bootId monitor ⟨phase, p⟩)
    (canonical : store.canonicalHash = p.store.canonicalHash)
    (goal : next.goal = phase.goal) (resumes : phase.goal.Resumes)
    (generations : next.AtGeneration p.active.generation) :
    Tracks bootId monitor ⟨next, p.withStore store⟩ := by
  refine tracks.quiet canonical (.inr (goal ▸ resumes)) generations ?_ ?_
  · rw [goal]
    exact tracks.heading
  · rw [goal]
    exact tracks.staged

theorem Tracks.fail (tracks : Tracks bootId monitor ⟨phase, p⟩) (working : phase.Working)
    {store : Store} (canonical : store.canonicalHash = p.store.canonicalHash) :
    Tracks bootId monitor ⟨.failed, p.withStore store⟩ :=
  tracks.quiet canonical (.inl rfl) trivial (by simp [Phase.goal]) (.inl (tracks.unfenced working))

theorem Streaming.plain {next : Phase} {store : Store} {event : Wire.Event} {env : Env}
    (stream : Monitor.Stream bootId start p.shared.frames monitor)
    (tracks : Tracks bootId monitor ⟨phase, p⟩) (kind : Monitor.Plain event)
    (canonical : store.canonicalHash = p.store.canonicalHash)
    (goal : next.goal = phase.goal) (resumes : phase.goal.Resumes)
    (generations : next.AtGeneration p.active.generation) :
    Streaming bootId start ⟨next, (p.send env p.active.generation event none).withStore store⟩ := by
  obtain ⟨live, even⟩ := tracks.live resumes
  have last : p.shared.sequence = monitor.last := even.trans tracks.last.symm
  have stamped := stamped_sent env event none tracks.boot (congrArg (· + 1) last)
    (congrArg WatchSet.generation tracks.active.symm)
  refine ⟨_, stream.concat (.plain live kind stamped rfl), ?_⟩
  refine ⟨tracks.boot, congrArg (· + 1) last.symm, tracks.published,
    canonical.trans tracks.canonical, .inr (goal ▸ resumes), generations, ?_, ?_⟩
  · dsimp only
    rw [goal]
    exact tracks.heading
  · dsimp only
    rw [goal, live]
    exact staged_live resumes

@[simp] theorem canonicalHash_commitCanonical (now : Instant) (hash : B256) (sequence : Nat)
    (store : Store) : (Publisher.commitCanonical now hash sequence store).canonicalHash = hash := by
  unfold Publisher.commitCanonical Store.scheduleExpiry
  dsimp only
  split
  · rfl
  · split <;> rfl

@[simp] theorem canonicalHash_afterFence (view : ForkchoiceMeta) (store : Store) :
    (afterFence view store).2.canonicalHash = store.canonicalHash := by
  unfold afterFence
  split
  · split <;> rfl
  · rfl

theorem Streaming.headed {env : Env} {projection : Projection} {changedBitmap : Bytes}
    {applied : AppliedForkchoiceMeta} {store : Store}
    (stream : Monitor.Stream bootId start p.shared.frames monitor)
    (tracks : Tracks bootId monitor ⟨.heading projection changedBitmap applied, p⟩)
    (canonical : store.canonicalHash = projection.block.hash) :
    Streaming bootId start ⟨.fencing applied,
      (p.send env projection.watchSet.generation
        (.canonicalHead
          { previousBlockHash := B256.toVec p.store.canonicalHash
            block := some (blockRef projection.block)
            values := projection.values
            changedBitmap })
        (some (projection, none, false))).withStore store⟩ := by
  obtain ⟨live, even⟩ := tracks.live trivial
  obtain ⟨different, sameDictionary⟩ := tracks.heading _ _ _ rfl
  dsimp only at different sameDictionary
  have last : p.shared.sequence = monitor.last := even.trans tracks.last.symm
  have head : p.store.canonicalHash = monitor.head.hash := by
    rw [tracks.canonical, Monitor.head, tracks.published]
  have different' : projection.block.hash ≠ monitor.head.hash := by
    rw [← head, tracks.canonical]
    exact different
  have stamped := stamped_sent env
    (.canonicalHead
      { previousBlockHash := B256.toVec monitor.head.hash
        block := some (blockRef projection.block)
        values := projection.values
        changedBitmap })
    (some { canonical := projection, forkchoice := none,
            effectiveSequence := p.shared.sequence + 1, recovering := false })
    tracks.boot (congrArg (· + 1) last) (congrArg WatchSet.generation
      (sameDictionary.trans tracks.active.symm))
  rw [head]
  refine ⟨_, stream.concat (.headed live different' (sameDictionary.trans tracks.active.symm) stamped
    (by rw [last]) rfl), ?_⟩
  exact ⟨tracks.boot, congrArg (· + 1) last.symm, rfl, canonical, .inl rfl, trivial,
    by simp [Phase.goal], ⟨.inr rfl, rfl⟩⟩

theorem Streaming.fenced {env : Env} {applied : AppliedForkchoiceMeta} {view : ForkchoiceMeta}
    (stream : Monitor.Stream bootId start p.shared.frames monitor)
    (tracks : Tracks bootId monitor ⟨.fencing applied, p⟩)
    (matched : Monitor.Matches view p.shared.published.canonical.block) :
    Streaming bootId start ⟨(afterFence view p.store).1,
      (p.send env p.active.generation (.forkchoiceApplied { view := some (forkchoiceView view) })
        (some (p.shared.published.canonical, some view, false))).withStore
          (afterFence view p.store).2⟩ := by
  obtain ⟨unfenced, even⟩ := tracks.staged
  have last : p.shared.sequence = monitor.last := even.trans tracks.last.symm
  have stamped := stamped_sent env (.forkchoiceApplied { view := some (forkchoiceView view) })
    (some { canonical := p.shared.published.canonical, forkchoice := some view,
            effectiveSequence := p.shared.sequence + 1, recovering := false })
    tracks.boot (congrArg (· + 1) last) (congrArg WatchSet.generation tracks.active.symm)
  refine ⟨_, stream.concat (.fenced unfenced ?_ stamped (by rw [last, tracks.published]) rfl), ?_⟩
  · rw [Monitor.head, tracks.published]
    exact matched
  · have canonical := (canonicalHash_afterFence view p.store).trans tracks.canonical
    rcases afterFence_phase view p.store with next | next
    · rw [next]
      exact ⟨tracks.boot, congrArg (· + 1) last.symm, rfl, canonical, .inl rfl, trivial,
        by simp [Phase.goal], ⟨rfl, rfl⟩⟩
    · rw [next]
      exact ⟨tracks.boot, congrArg (· + 1) last.symm, rfl, canonical, .inl rfl, trivial,
        by simp [Phase.goal], ⟨rfl, rfl⟩⟩

theorem Streaming.gapped {env : Env} {reason : String} {retry : Bool}
    (stream : Monitor.Stream bootId start p.shared.frames monitor)
    (tracks : Tracks bootId monitor ⟨phase, p⟩)
    (unfenced : (monitor.stage = .live ∨ monitor.stage = .headed) ∧
      p.shared.publishedSequence ≤ p.shared.sequence) :
    Streaming bootId start ⟨.anchoring retry, p.send env p.active.generation
      (.gap { lastContiguousSequence := p.shared.publishedSequence, reason })
      (some (p.shared.published.canonical, none, true))⟩ := by
  have stamped := stamped_sent env (.gap { lastContiguousSequence := monitor.last, reason })
    (some { canonical := p.shared.published.canonical, forkchoice := none,
            effectiveSequence := p.shared.sequence + 1, recovering := true })
    tracks.boot rfl (congrArg WatchSet.generation tracks.active.symm)
  have later : monitor.last < p.shared.sequence + 1 := by
    rw [tracks.last]
    exact Nat.lt_succ_of_le unfenced.2
  have last : p.shared.publishedSequence = monitor.last := tracks.last.symm
  rw [last]
  refine ⟨_, stream.concat (.gapped unfenced.1 later stamped (by rw [tracks.published]) rfl), ?_⟩
  exact ⟨tracks.boot, rfl, rfl, tracks.canonical, .inl rfl, trivial, by simp [Phase.goal],
    ⟨rfl, rfl⟩⟩

theorem Streaming.anchored {env : Env} {retry : Bool} {loaded : CanonicalSnapshot}
    (stream : Monitor.Stream bootId start p.shared.frames monitor)
    (tracks : Tracks bootId monitor ⟨.anchoring retry, p⟩)
    (loads : Loads env p p.active loaded) :
    Streaming bootId start ⟨.idle,
      (p.installSnapshot env loaded).send env loaded.projection.watchSet.generation
        (.snapshot (snapshot loaded.projection loaded.forkchoice))
        (some (loaded.projection, some loaded.forkchoice, false))⟩ := by
  obtain ⟨gapped, even⟩ := tracks.staged
  have last : p.shared.sequence = monitor.last := even.trans tracks.last.symm
  have sameDictionary := (watchSet_of_dictionary loads.dictionary).trans tracks.active.symm
  have stamped := stamped_sent env (.snapshot (snapshot loaded.projection loaded.forkchoice))
    (some { canonical := loaded.projection, forkchoice := some loaded.forkchoice,
            effectiveSequence := p.shared.sequence + 1, recovering := false })
    tracks.boot (congrArg (· + 1) last) (congrArg WatchSet.generation sameDictionary)
  refine ⟨_, stream.concat (.anchored gapped sameDictionary (Monitor.matches_of_view loads.view) stamped
    (by rw [← last]; rfl) rfl), ?_⟩
  exact ⟨tracks.boot, congrArg (· + 1) last.symm, rfl, rfl, .inl rfl, trivial,
    by simp [Phase.goal], ⟨rfl, rfl⟩⟩

theorem Streaming.activated {env : Env} {watchSet : WatchSet} {loaded : CanonicalSnapshot}
    (stream : Monitor.Stream bootId start p.shared.frames monitor)
    (tracks : Tracks bootId monitor ⟨.idle, p⟩)
    (newer : p.active.generation < watchSet.generation) (loads : Loads env p watchSet loaded) :
    Streaming bootId start ⟨.idle,
      { ((p.installSnapshot env loaded).send env watchSet.generation
          (.configActivated (configActivated watchSet))
          (some (loaded.projection, some loaded.forkchoice, false))).send env watchSet.generation
          (.snapshot (snapshot loaded.projection loaded.forkchoice)) none with
        activeWatchSet := watchSet }⟩ := by
  obtain ⟨live, even⟩ := tracks.live trivial
  have last : p.shared.sequence = monitor.last := even.trans tracks.last.symm
  have same := watchSet_of_dictionary loads.dictionary
  subst same
  have sameGeneration := Eq.refl loaded.projection.watchSet.generation
  have configStamped := stamped_sent env
    (.configActivated (configActivated loaded.projection.watchSet))
    (some { canonical := loaded.projection, forkchoice := some loaded.forkchoice,
            effectiveSequence := p.shared.sequence + 1, recovering := false })
    tracks.boot (congrArg (· + 1) last) sameGeneration
  have configured := stream.concat (.configured live (by rw [tracks.active]; exact newer)
    (Monitor.matches_of_view loads.view) configStamped (by rw [← last]) rfl)
  have boot : ((p.installSnapshot env loaded).send env loaded.projection.watchSet.generation
      (.configActivated (configActivated loaded.projection.watchSet))
      (some (loaded.projection, some loaded.forkchoice, false))).shared.bootId = bootId :=
    tracks.boot
  have snapshotStamped := stamped_sent env
    (.snapshot (snapshot loaded.projection loaded.forkchoice)) none boot
    (congrArg (· + 2) last) sameGeneration
  refine ⟨_, configured.concat (.introduced rfl rfl snapshotStamped rfl), ?_⟩
  exact ⟨tracks.boot, congrArg (· + 2) last.symm, rfl, rfl, .inl rfl, trivial,
    by simp [Phase.goal], ⟨rfl, rfl⟩⟩

theorem Tracks.resumes (tracks : Tracks bootId monitor ⟨phase, p⟩)
    (pending : ¬ Staged monitor.stage p.shared.publishedSequence p.shared.sequence phase) :
    phase.goal.Resumes := by
  rcases tracks.nested with base | resumes
  · have staged := tracks.staged
    dsimp only at base staged
    rw [base] at staged
    exact (pending staged).elim
  · exact resumes

theorem Tracks.recover (coherent : monitor.Coherent) (tracks : Tracks bootId monitor ⟨phase, p⟩)
    (staged : Staged monitor.stage p.shared.publishedSequence p.shared.sequence .failed) :
    Tracks bootId monitor ⟨.recovering p.shared.published.recovering, p⟩ := by
  refine tracks.quiet rfl (.inl rfl) trivial (by simp [Phase.goal]) ?_
  have agreed := coherent.2
  rw [← tracks.published]
  rcases staged with ⟨live | headed, lost⟩ | ⟨gapped, even⟩
  · rw [live] at agreed
    rw [agreed.1]
    exact ⟨.inl live, lost⟩
  · rw [headed] at agreed
    rw [agreed.1]
    exact ⟨.inr headed, lost⟩
  · rw [gapped] at agreed
    rw [agreed.1]
    exact ⟨gapped, even⟩

theorem matches_resolve {applied : AppliedForkchoiceMeta} {view : ForkchoiceMeta}
    {block : BlockMeta} (same : block.hash = applied.headHash)
    (resolved : view = applied.resolve block.number) : Monitor.Matches view block := by
  subst resolved
  exact ⟨rfl, same.symm⟩

theorem streaming_step (coherent : start.Coherent) {state after : State}
    (streaming : Streaming bootId start state) (step : Step world offers state after) :
    Streaming bootId start after := by
  obtain ⟨monitor, stream, tracks⟩ := streaming
  have quiet := Monitor.coherent_stream coherent stream
  cases step with
  | promote => exact ⟨monitor, stream, tracks.onward rfl rfl trivial trivial⟩
  | validate => exact Streaming.plain stream tracks trivial rfl rfl trivial trivial
  | @announce p env _ block changes inherited applied projection _ _ _ _ _ assembled =>
    have same : projection.watchSet.generation = p.active.generation := by
      rw [assembled]
      rfl
    exact Streaming.plain stream tracks trivial
      (Store.canonicalHash_of_settings (Store.settings_placeCandidate ..)) rfl trivial
      ⟨same, trivial⟩
  | defer =>
    exact ⟨monitor, stream, tracks.onward
      (Store.canonicalHash_of_settings (Store.settings_placeDeferred ..)) rfl trivial
      ⟨rfl, trivial⟩⟩
  | trimProjections trimmed =>
    have same := Store.settings_of_projections trimmed
    exact ⟨monitor, stream, tracks.onward (Store.canonicalHash_of_settings same) rfl
      (tracks.resumes id) ⟨tracks.generations.1, tracks.generations⟩⟩
  | trimProjectionsFails trimmed =>
    have same := Store.settings_of_projections trimmed
    exact ⟨monitor, stream, tracks.fail trivial (Store.canonicalHash_of_settings same)⟩
  | trimMetadata trimmed =>
    have same := Store.settings_of_metadata trimmed
    exact ⟨monitor, stream, tracks.onward (Store.canonicalHash_of_settings same) rfl
      (tracks.resumes id) tracks.generations⟩
  | trimMetadataFails trimmed =>
    have same := Store.settings_of_metadata trimmed
    exact ⟨monitor, stream, tracks.fail trivial (Store.canonicalHash_of_settings same)⟩
  | @retire p env generation batch rest reason next =>
    have announced : generation = p.active.generation := tracks.generations.1
    have later := tracks.generations.2
    subst announced
    exact Streaming.plain stream tracks trivial rfl rfl (tracks.resumes id) ⟨rfl, later⟩
  | retired =>
    exact ⟨monitor, stream, tracks.onward rfl rfl (tracks.resumes id) tracks.generations.2⟩
  | reject =>
    exact Streaming.plain stream tracks trivial
      (Store.canonicalHash_of_settings (Store.settings_removeCandidateTree ..)) rfl trivial trivial
  | @adopt p env _ _ applied projection changedBitmap _ _ _ _ moved _ dictionary identity =>
    have same := watchSet_of_dictionary dictionary
    refine ⟨monitor, stream, tracks.quiet
      (Store.canonicalHash_of_settings (Store.settings_placeCandidate ..)) (.inr trivial)
      ⟨congrArg WatchSet.generation same, congrArg WatchSet.generation same⟩ ?_
      (tracks.live trivial)⟩
    rintro _ _ _ ⟨⟩
    exact ⟨fun stays => moved (identity.symm.trans stays), same⟩
  | head =>
    exact Streaming.headed stream tracks (canonicalHash_commitCanonical ..)
  | reaffirm =>
    have live := tracks.live trivial
    exact ⟨monitor, stream, tracks.quiet rfl (.inl rfl) trivial (by simp [Phase.goal])
      ⟨.inl live.1, live.2⟩⟩
  | fence _ same resolved =>
    exact Streaming.fenced stream tracks (matches_resolve same resolved)
  | sweep =>
    exact ⟨monitor, stream, tracks.quiet
      (Store.canonicalHash_of_settings (Store.settings_processFinalityBudget ..)) (.inr trivial)
      ⟨rfl, trivial⟩ (by simp [Phase.goal]) tracks.staged⟩
  | maintain =>
    exact ⟨monitor, stream, tracks.quiet
      (Store.canonicalHash_of_settings (Store.settings_processFinalityBudget ..)) (.inr trivial)
      ⟨rfl, trivial⟩ (by simp [Phase.goal]) tracks.staged⟩
  | expire =>
    exact ⟨monitor, stream, tracks.quiet
      (Store.canonicalHash_of_settings (Store.settings_removeEach ..)) (.inr trivial)
      ⟨rfl, trivial⟩ (by simp [Phase.goal]) tracks.staged⟩
  | gap => exact Streaming.gapped stream tracks (tracks.unfenced trivial)
  | retryGap => exact Streaming.gapped stream tracks tracks.staged
  | retryBurns =>
    obtain ⟨unfenced, lost⟩ := tracks.staged
    exact ⟨monitor, stream, tracks.boot, tracks.last, tracks.published, tracks.canonical, .inl rfl,
      trivial, by simp [Phase.goal], unfenced, Nat.le_succ_of_le lost⟩
  | retryAnchor =>
    exact ⟨monitor, stream, tracks.quiet rfl (.inl rfl) trivial (by simp [Phase.goal])
      tracks.staged⟩
  | anchor _ loads => exact Streaming.anchored stream tracks loads
  | anchorRefused =>
    exact ⟨monitor, stream, tracks.quiet rfl (.inl rfl) trivial (by simp [Phase.goal])
      (.inr tracks.staged)⟩
  | anchorFails =>
    exact ⟨monitor, stream, tracks.quiet rfl (.inl rfl) trivial (by simp [Phase.goal])
      tracks.staged⟩
  | activate _ _ newer loads => exact Streaming.activated stream tracks newer loads
  | refuse working => exact ⟨monitor, stream, tracks.fail working rfl⟩
  | burn working =>
    obtain ⟨unfenced, lost⟩ := tracks.unfenced working
    exact ⟨monitor, stream, tracks.boot, tracks.last, tracks.published, tracks.canonical, .inl rfl,
      trivial, by simp [Phase.goal], .inl ⟨unfenced, Nat.le_succ_of_le lost⟩⟩
  | recover => exact ⟨monitor, stream, tracks.recover quiet tracks.staged⟩
  | loss =>
    have live := tracks.live trivial
    exact ⟨monitor, stream, tracks.recover quiet (.inl ⟨.inl live.1, live.2.ge⟩)⟩

variable {allowed : Publisher → Env → Input → Prop} {env : Env}
  {options : Publisher.ServiceOptions} {watchSet : WatchSet} {start : Publisher} {loop : Loop}

theorem streaming_initial (started : Publisher.startService env options watchSet = some start) :
    Streaming options.bootId (Monitor.initial start) ⟨.idle, start⟩ := by
  obtain ⟨loaded, _, rfl⟩ := Publisher.startService_eq_some.mp started
  exact ⟨_, .nil, rfl, rfl, rfl, rfl, .inl rfl, trivial, by simp [Phase.goal], rfl, rfl⟩

theorem streaming_reaches (started : Publisher.startService env options watchSet = some start)
    (reached : Loop.Reaches allowed start loop) :
    Streaming options.bootId (Monitor.initial start) (.ofLoop loop) := by
  refine reaches_invariant (reaches_any reached) (streaming_initial started) fun _ _ streaming step => ?_
  exact streaming_step (Monitor.coherent_initial started) streaming step

end Statefeed.Machine
