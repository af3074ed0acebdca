import Statefeed.FrameSize

set_option autoImplicit false

namespace Statefeed

open Effect Effect.Op

namespace Machine

variable {env : Env} {p : Publisher} {stream : StreamConfig} {watchSet : WatchSet}

/-- The source answers for this dictionary with a snapshot that passes the checks. -/
def Serves (env : Env) (watchSet : WatchSet) : Prop :=
  ∃ loaded, env.loadLatest watchSet = some loaded ∧ validateSnapshotView loaded = .ok () ∧
    validateProjectionDictionary loaded.projection watchSet = .ok () ∧
    validateProjectionShape loaded.projection = .ok ()

theorem not_loadFails {failure : Error} (bounded : stream.maxFrameBytes < 2 ^ 32)
    (framed : Framed stream p.shared) (fits : Fits stream watchSet) (serves : Serves env watchSet) :
    ¬ LoadFails env p watchSet failure := by
  intro refused
  -- Whatever refuses the snapshot is not its size.
  have plain := loadFails_plain bounded framed fits refused
  obtain ⟨loaded, read, view, dictionary, shape⟩ := serves
  cases refused with
  | unread missing => cases missing.symm.trans read
  | view other refused =>
    cases read.symm.trans other
    cases view.symm.trans refused
  | dictionary other refused =>
    cases read.symm.trans other
    cases dictionary.symm.trans refused
  | frames other _ refused =>
    cases read.symm.trans other
    obtain ⟨overflow, rfl⟩ := validateProjectionFrames_encode shape refused
    exact plain
  | config refused =>
    obtain ⟨overflow, rfl⟩ := validateEventFrame_encode refused
    exact plain

def reanchored (env : Env) (loaded : CanonicalSnapshot) (p : Publisher) : Publisher :=
  (p.installSnapshot env loaded).send env loaded.projection.watchSet.generation
    (.snapshot (snapshot loaded.projection loaded.forkchoice))
    (some (loaded.projection, some loaded.forkchoice, false))

theorem reanchor_of_serves (bounded : stream.maxFrameBytes < 2 ^ 32)
    (framed : Framed stream p.shared) (fits : Fits stream p.active) (serves : Serves env p.active) :
    ∃ loaded, Loads env p p.active loaded ∧
      Publisher.reanchor env p = (.ok (), reanchored env loaded p) := by
  have ensured := reanchor_ensures (p := p) env
    (fun _ after => ∃ loaded, Loads env p p.active loaded ∧ after = reanchored env loaded p)
    (fun _ _ => False) (fun _ refused => not_loadFails bounded framed fits serves refused)
    (fun loaded loads => ⟨loaded, loads, rfl⟩)
  unfold Ensures at ensured
  rcases outcome : Publisher.reanchor env p with ⟨result, after⟩
  rw [outcome] at ensured
  cases result with
  | ok =>
    obtain ⟨loaded, loads, rfl⟩ := ensured
    exact ⟨loaded, loads, rfl⟩
  | error => exact ensured.elim

theorem activate_of_serves (bounded : stream.maxFrameBytes < 2 ^ 32)
    (framed : Framed stream p.shared) (fits : Fits stream watchSet) (serves : Serves env watchSet) :
    (Publisher.activate env watchSet p).1 = .ok () := by
  have ensured := activate_ensures (p := p) env watchSet (fun _ _ => True) (fun _ _ => False)
    (fun _ _ refused => not_loadFails bounded framed fits serves refused) (fun _ => trivial)
    (fun _ _ _ _ => trivial)
  cases outcome : (Publisher.activate env watchSet p).1 with
  | ok => rfl
  | error => exact (ensured.of_error outcome).elim

def gapped (env : Env) (reason : String) (p : Publisher) : Publisher :=
  p.send env p.active.generation
    (.gap { lastContiguousSequence := p.shared.publishedSequence, reason })
    (some (p.shared.published.canonical, none, true))

theorem announceGap_of_known {reason : String} (known : reason ∈ gapReasons)
    (bounded : stream.maxFrameBytes < 2 ^ 32) (framed : Framed stream p.shared)
    (fits : Fits stream p.active) :
    Publisher.announceGap env reason p = (.ok (), gapped env reason p) := by
  have ensured := announceGap_ensures (p := p) env reason (fun _ after => after = gapped env reason p)
    (fun _ _ => False) (fun overflow overflows => ?_) rfl
  · unfold Ensures at ensured
    rcases outcome : Publisher.announceGap env reason p with ⟨result, after⟩
    rw [outcome] at ensured
    cases result with
    | ok => rw [ensured]
    | error => exact ensured.elim
  · obtain ⟨_, frame, encoded⟩ := built_fits (p.shared.envelope env (p.shared.sequence + 1)
      p.active.generation _) fits bounded framed.limit
      (.gap p.shared.publishedSequence known) framed.boot.le rfl
    cases encoded.symm.trans overflows

theorem retry_of_serves {announced : Bool} {reason : String} (known : reason ∈ gapReasons)
    (bounded : stream.maxFrameBytes < 2 ^ 32) (framed : Framed stream p.shared)
    (fits : Fits stream p.active) (serves : Serves env p.active) :
    ∃ loaded, (env.loadLatest p.active = some loaded ∧ loaded.projection.watchSet = p.active) ∧
      Loop.retry env announced reason p =
        .start (reanchored env loaded (if announced then p else gapped env reason p)) := by
  unfold Loop.retry Loop.retryReanchor
  cases announced with
  | true =>
    obtain ⟨loaded, loads, anchored⟩ := reanchor_of_serves bounded framed fits serves
    refine ⟨loaded, ⟨loads.read, watchSet_of_dictionary loads.dictionary⟩, ?_⟩
    simp only [if_true, anchored]
    rfl
  | false =>
    have framed' : Framed stream (gapped env reason p).shared := ⟨framed.limit, framed.boot⟩
    obtain ⟨loaded, loads, anchored⟩ := reanchor_of_serves (p := gapped env reason p) bounded
      framed' fits serves
    refine ⟨loaded, ⟨loads.read, watchSet_of_dictionary loads.dictionary⟩, ?_⟩
    simp only [Bool.false_eq_true, if_false, announceGap_of_known known bounded framed fits,
      anchored]
    rfl

end Machine

open Machine

/-- A recovery ends with the first round in which the source answers. The round announces the gap
if that was not done, and then the snapshot, under the same dictionary. -/
theorem recovery_completes {config : Config} (accepted : config.validate = .ok ())
    (bounded : config.stream.maxFrameBytes < 2 ^ 32) {options : Publisher.ServiceOptions} {env : Env}
    {generation : Generation} {start : Publisher} (stream : options.stream = config.stream)
    (boot : options.bootId.length = 16)
    (started : Publisher.startService env options (WatchSet.compile generation config.watch) =
      some start) {loop : Loop}
    (reached : Loop.Reaches (Allowed (fun _ => True) (Configured config.stream)) start loop)
    {announced : Bool} {reason : String} (recovering : loop.control = .recovering announced reason)
    {now : Env} (serves : Serves now loop.publisher.active) :
    ∃ loaded after added, now.loadLatest loop.publisher.active = some loaded ∧
      Loop.next now .retry loop = some after ∧ after.control = .idle ∧
      after.publisher.shared.published.canonical = loaded.projection ∧
      after.publisher.shared.published.forkchoice = some loaded.forkchoice ∧
      after.publisher.shared.published.recovering = false ∧
      after.publisher.active = loop.publisher.active ∧
      after.publisher.shared.frames = loop.publisher.shared.frames ++ added ∧
      added.map (·.envelope.event) =
        (if announced then [] else
          [some (.gap { lastContiguousSequence := loop.publisher.shared.publishedSequence, reason })])
        ++ [some (.snapshot (snapshot loaded.projection loaded.forkchoice))] := by
  have valid := Config.valid_of_validate accepted
  have run := reaches_steps reached
  have framed := framed_steps (framed_initial stream boot started) run
  have shaped := (shaped_reaches configured_fits (fits_config valid) started run).1
  have known := Loop.reason_reaches reached recovering
  obtain ⟨loaded, loads, retried⟩ := @retry_of_serves now loop.publisher config.stream announced
    reason known bounded framed shaped.dictionary serves
  obtain ⟨p, control⟩ := loop
  cases recovering
  have same : loaded.projection.watchSet = p.active := loads.2
  cases announced with
  | true =>
    exact ⟨loaded, _, [_], loads.1, congrArg some retried, rfl, rfl, rfl, rfl, same, rfl, rfl⟩
  | false =>
    exact ⟨loaded, _, [_, _], loads.1, congrArg some retried, rfl, rfl, rfl, rfl, same,
      List.append_assoc _ _ _, rfl⟩

theorem Sample.serves_watchSet : Serves (Sample.env 2 5) Sample.watchSet :=
  ⟨_, rfl, by decide, by decide, by decide⟩

theorem recovery_completes_sample :
    ∃ after, Loop.next (Sample.env 2 5) .retry
        (.beginRecovery "engine_queue_overflow" Sample.bootedStart) = some after ∧
      after.control = .idle ∧ after.publisher.active = Sample.watchSet ∧
      after.publisher.shared.frames.length = 2 := by
  have accepted : (Config.mk .default Sample.watchSet.configured).validate = .ok () := by decide
  have lost : Loop.Reaches (Allowed (fun _ => True) (Configured .default)) Sample.bootedStart
      (.beginRecovery "engine_queue_overflow" Sample.bootedStart) :=
    .single ⟨Sample.env 1 0, .loss, ⟨trivial, trivial⟩, rfl⟩
  obtain ⟨loaded, after, added, _, taken, idle, _, _, _, active, frames, events⟩ :=
    recovery_completes accepted (by decide) rfl rfl Sample.booted_started lost rfl
      Sample.serves_watchSet
  refine ⟨after, taken, idle, active, ?_⟩
  have count := congrArg List.length events
  rw [List.length_map] at count
  rw [frames, List.length_append, count]
  rfl

end Statefeed
