import Statefeed.Extraction
import Statefeed.Machine.Shape
import Statefeed.Model.Handoff
import Statefeed.Stream.Dictionary

set_option autoImplicit false

namespace Statefeed

open Effect Effect.Op

def Error.Confuses : Error → Prop
  | .generationAhead _ _ | .generationMismatch _ | .invalidKeyId _ => True
  | _ => False

theorem Error.Plain.unconfused {failure : Error} (plain : failure.Plain) : ¬ failure.Confuses := by
  intro confuses
  cases failure with
  | generationAhead | generationMismatch | invalidKeyId => exact plain
  | _ => exact confuses

theorem validateEventFrame_unconfused {shared : Shared} {generation : Generation}
    {event : Wire.Event} {failure : Error}
    (failed : shared.validateEventFrame generation event = .error failure) : ¬ failure.Confuses := by
  unfold Shared.validateEventFrame at failed
  split at failed
  · cases failed
    exact id
  · cases failed

theorem validateProjectionFrames_unconfused {shared : Shared} {projection : Projection}
    {forkchoice : ForkchoiceMeta} {failure : Error}
    (failed : validateProjectionFrames shared projection forkchoice = .error failure) :
    ¬ failure.Confuses := by
  unfold validateProjectionFrames at failed
  rcases bind_error failed with shape | ⟨_, failed⟩
  · exact (validateProjectionShape_plain shape).unconfused
  rcases bind_error failed with first | ⟨_, failed⟩
  · exact validateEventFrame_unconfused first
  rcases bind_error failed with second | ⟨_, failed⟩
  · exact validateEventFrame_unconfused second
  · exact validateEventFrame_unconfused failed

namespace Machine

variable {world : Env → Prop}

def Extracted (watchSet : WatchSet) (_ : BlockMeta) (changes : BlockChanges) : Prop :=
  ∃ bundle, changes = extractChanges watchSet bundle

def Handed (p : Publisher) : Input → Prop
  | .event event => event.generation ≤ p.active.generation ∧
      ∀ block changes, event.delta = some (block, changes) →
        event.generation = p.active.generation → Extracted p.active block changes
  | _ => True

abbrev Held (watchSet : WatchSet) (projection : Projection) : Prop := projection.Whole watchSet

theorem feeds_extracted (world : Env → Prop) : Feeds Held Extracted world Handed where
  typed _ _ whole := whole.typed
  loads _ _ _ _ _ loads := loads.whole
  delta _ _ _ _ offered carried current := offered.2 _ _ carried current
  assembles _ p _ _ _ _ _ _ _ _ inherits changed := by
    have values := (applyChanges_lengths changed).1
    rw [inherits.whole] at values
    exact ⟨rfl, values⟩
  adopts _ _ _ _ _ _ _ _ dictionary shape :=
    Projection.whole_of_shape (watchSet_of_dictionary dictionary) shape

theorem LoadFails.unconfused {env : Env} {p : Publisher} {watchSet : WatchSet} {failure : Error}
    (refused : LoadFails env p watchSet failure) : ¬ failure.Confuses := by
  cases refused with
  | unread => exact id
  | view _ refused => exact (validateSnapshotView_plain refused).unconfused
  | dictionary _ refused => exact (validateProjectionDictionary_plain refused).unconfused
  | frames _ _ refused => exact validateProjectionFrames_unconfused refused
  | config refused => exact validateEventFrame_unconfused refused

theorem unconfused_of_fails {state : State} {failure : Error} (filled : Filled Held Extracted state)
    (fails : Fails world Handed state failure) : ¬ failure.Confuses := by
  cases fails with
  | unsent | inconsistent | unfenced => exact id
  | ahead admitted newer => exact absurd admitted.1 (Nat.not_le.mpr newer)
  | @inherited p stage block changes parent failure delta stored refused =>
    have whole : parent.Whole p.active := (filled.1.cached _ _ stored).2
    unfold Publisher.inheritedValues at refused
    split_ifs at refused with overflow ancestry mismatch
    · cases refused
      exact id
    · cases refused
      exact id
    · rcases mismatch with generation | length
      · exact absurd (congrArg WatchSet.generation whole.typed) generation
      · exact absurd whole.values length
  | loaded _ _ _ refused => exact (Publisher.loadedValues_plain refused).unconfused
  | @applied p env stage block changes inherited failure lawful delta inherits refused =>
    have extracted : Extracted p.active block changes :=
      (feeds_extracted world).soundDelta filled.1 delta
    obtain ⟨bundle, rfl⟩ := extracted
    obtain ⟨change, member, _, outside⟩ := applyChanges_error refused
    have inside := keyId_of_extractChanges member
    rw [inherits.whole] at outside
    omega
  | head _ _ refused => exact refused.plain.unconfused
  | cache trimmed => exact (Store.trimProjectionLoop_plain trimmed).unconfused
  | metadata trimmed => exact (Store.trimMetadataLoop_plain trimmed).unconfused
  | view refused => exact (validateForkchoiceCheckpoints_plain refused).unconfused
  | anchor _ refused | activation _ _ _ refused => exact refused.unconfused

end Machine

def FeedEvent.Candidate : FeedEvent → Prop
  | .executed _ _ _ _ | .validated _ _ _ | .validatedFallback _ _ _ _ | .rejected _ _ _ _ => True
  | .canonicalStateReset _ _ _ | .forkchoiceApplied _ _ _ => False

theorem handle_older {env : Env} {p : Publisher} {event : FeedEvent} (candidate : event.Candidate)
    (older : event.generation < p.active.generation) :
    Publisher.handle env event p = (.ok (), p) := by
  have projected (block : BlockMeta) (changes : BlockChanges) (stage : CandidateStage) :
      Publisher.projectCandidate env event.generation block changes stage p = (.ok false, p) := by
    change (if _ then _ else _ : Op Publisher Error Bool) p = _
    rw [if_pos older]
    rfl
  cases event with
  | executed observedAt generation block changes =>
    change (if _ then _ else _ : Op Publisher Error Unit) p = _
    split
    · rfl
    · exact bind_of_returns (projected block changes .executed)
  | validatedFallback observedAt generation block changes =>
    change (if _ then _ else _ : Op Publisher Error Unit) p = _
    split
    · rfl
    · exact bind_of_returns (projected block changes .validated)
  | validated observedAt generation hash =>
    change generation < p.active.generation at older
    have ignored : Publisher.promoteValidated env generation hash p = (.ok false, p) := by
      change (if _ then _ else _ : Op Publisher Error Bool) p = _
      rw [if_pos older]
      rfl
    exact (bind_of_returns rfl).trans (bind_of_returns ignored)
  | rejected observedAt generation hash reason =>
    change generation < p.active.generation at older
    have ignored : Publisher.rejected env generation hash reason p = (.ok false, p) := by
      change (if _ then _ else _ : Op Publisher Error Bool) p = _
      rw [if_pos older]
      rfl
    exact (bind_of_returns rfl).trans (bind_of_returns ignored)
  | canonicalStateReset | forkchoiceApplied => exact candidate.elim

theorem canonicalProjection_older {env : Env} {p : Publisher} {generation : Generation}
    (hash : B256) (older : generation < p.active.generation) :
    Publisher.canonicalProjection env p generation hash =
      match env.loadAt p.active hash with
      | some projection => .ok projection
      | none => .error .source := by
  unfold Publisher.canonicalProjection
  cases env.loadAt p.active hash <;> simp [older.ne]

section

variable {env : Env} {p : Publisher}

theorem publishRetired_keeps (generation : Generation) (hashes : List B256)
    (reason : Wire.RetirementReason) (shared : Shared) :
    (Shared.publishRetired env generation hashes reason).Ensures shared
      (fun _ after => after.published = shared.published) (fun _ _ => True) := by
  unfold Shared.publishRetired
  rw [ensures_bind, ensures_get]
  refine Ensures.forEach (show (fun after => after.published = shared.published) shared from rfl) ?_
  intro batch _ before same
  rw [ensures_bind]
  refine (Shared.publishInner_ensures env generation _ none before).mono ?_ (fun _ _ _ => trivial)
  rintro _ _ ⟨_, rfl⟩
  exact same

theorem publishView_keeps (view : ForkchoiceMeta) :
    (Publisher.publishView env view).Ensures p
      (fun _ after => after.shared.published.canonical = p.shared.published.canonical)
      (fun _ _ => True) := by
  unfold Publisher.publishView
  rw [ensures_bind, ensures_get, ensures_bind, ensures_ofExcept]
  refine ⟨fun _ _ => ?_, fun _ _ => trivial⟩
  rw [ensures_bind]
  refine (ensures_focus _ _ _).mpr ?_
  refine (Shared.publishInner_ensures env _ _ _ p.shared).mono ?_ (fun _ _ _ => trivial)
  rintro _ _ ⟨_, rfl⟩
  split
  · split
    · rw [ensures_bind]
      refine (ensures_focus _ _ _).mpr ?_
      rw [ensures_modify, ensures_bind]
      unfold Publisher.processFinalityBudget
      rw [ensures_bind]
      refine (ensures_focus _ _ _).mpr ?_
      rw [ensures_step, ensures_bind]
      refine (ensures_focus _ _ _).mpr ?_
      refine (publishRetired_keeps _ _ _ _).mono ?_ (fun _ _ _ => trivial)
      intro _ after same
      have kept := congrArg PublishedState.canonical same
      exact kept
    · rfl
  · rfl

theorem canonical_older {generation : Generation} (observedAt : Instant) (hash : B256)
    (older : generation < p.active.generation) :
    (Publisher.canonical env generation observedAt none hash).Ensures p
      (fun _ after => after.shared.published.canonical = p.shared.published.canonical ∨
        env.loadAt p.active hash = some after.shared.published.canonical ∧
          after.active = p.active)
      (fun _ _ => True) := by
  unfold Publisher.canonical
  rw [ensures_bind, ensures_get, if_neg (Nat.not_lt.mpr older.le)]
  split
  · exact .inl rfl
  split
  · exact .inl rfl
  rw [ensures_bind, ensures_ofExcept, canonicalProjection_older hash older]
  refine ⟨fun projection read => ?_, fun _ _ => trivial⟩
  have loaded : env.loadAt p.active hash = some projection := by
    split at read
    · next found =>
      cases read
      exact found
    · cases read
  rw [ensures_bind, ensures_ofExcept]
  refine ⟨fun _ dictionary => ?_, fun _ _ => trivial⟩
  split
  · trivial
  rw [ensures_bind, ensures_ofExcept]
  refine ⟨fun _ _ => ?_, fun _ _ => trivial⟩
  rw [ensures_bind, ensures_ofExcept]
  refine ⟨fun bitmap _ => ?_, fun _ _ => trivial⟩
  unfold Publisher.publishCanonical
  rw [ensures_bind, ensures_get, ensures_bind]
  refine (ensures_any _ p).mono (fun _ inserted _ => ?_) (fun _ _ _ => trivial)
  rw [ensures_bind]
  refine (ensures_focus _ _ _).mpr ?_
  refine (Shared.publishInner_ensures env _ _ _ inserted.shared).mono ?_ (fun _ _ _ => trivial)
  rintro sequence _ ⟨_, rfl⟩
  exact .inr ⟨loaded, watchSet_of_dictionary dictionary⟩

theorem handle_forkchoiceApplied {observedAt : Instant} {generation : Generation}
    {applied : AppliedForkchoiceMeta} {after : Publisher} (known : generation ≤ p.active.generation)
    (later : p.snapshotAnchoredAt < observedAt)
    (returned : Publisher.handle env (.forkchoiceApplied observedAt generation applied) p =
      (.ok (), after)) :
    after.shared.published.canonical.block.hash = applied.headHash ∧
      (generation < p.active.generation →
        after.shared.published.canonical = p.shared.published.canonical ∨
          env.loadAt p.active applied.headHash = some after.shared.published.canonical ∧
            after.active = p.active) := by
  have published (q : Publisher) : (Publisher.publishForkchoice env applied).Ensures q
      (fun _ after => after.shared.published.canonical.block.hash = applied.headHash ∧
        after.shared.published.canonical = q.shared.published.canonical)
      (fun _ _ => True) := by
    unfold Publisher.publishForkchoice
    rw [ensures_bind, ensures_get]
    split
    · trivial
    · next same =>
      refine (publishView_keeps _).mono (fun _ after kept => ?_) (fun _ _ _ => trivial)
      rw [kept]
      exact ⟨not_not.mp same, rfl⟩
  have moved : (Publisher.canonical env generation observedAt none applied.headHash).Ensures p
      (fun _ middle => generation < p.active.generation →
        middle.shared.published.canonical = p.shared.published.canonical ∨
          env.loadAt p.active applied.headHash = some middle.shared.published.canonical ∧
            middle.active = p.active) (fun _ _ => True) := by
    by_cases older : generation < p.active.generation
    · exact (canonical_older observedAt applied.headHash older).mono (fun _ _ holds _ => holds)
        (fun _ _ _ => trivial)
    · exact (ensures_any _ p).mono (fun _ _ _ below => absurd below older) (fun _ _ _ => trivial)
  have ensures : (Publisher.handle env (.forkchoiceApplied observedAt generation applied)).Ensures p
      (fun _ after => after.shared.published.canonical.block.hash = applied.headHash ∧
        (generation < p.active.generation →
          after.shared.published.canonical = p.shared.published.canonical ∨
            env.loadAt p.active applied.headHash = some after.shared.published.canonical ∧
              after.active = p.active)) (fun _ _ => True) := by
    unfold Publisher.handle
    rw [ensures_bind, ensures_get]
    dsimp only
    rw [ensures_bind]
    unfold Publisher.forkchoiceApplied
    rw [ensures_bind, ensures_get, if_neg (Nat.not_lt.mpr known), if_neg (Nat.not_le.mpr later)]
    split
    · rw [ensures_bind]
      refine moved.mono (fun _ middle loaded => ?_) (fun _ _ _ => trivial)
      refine (published middle).mono (fun _ after holds => ?_) (fun _ _ _ => trivial)
      obtain ⟨same, kept⟩ := holds
      have active : after.active = middle.active := congrArg Projection.watchSet kept
      refine ⟨same, fun older => ?_⟩
      rw [kept, active]
      exact loaded older
    · refine (published p).mono (fun _ after holds => ?_) (fun _ _ _ => trivial)
      exact ⟨holds.1, fun _ => .inl holds.2⟩
  have holds := ensures.of_ok (congrArg Prod.fst returned)
  rw [returned] at holds
  exact holds

end

namespace Machine

theorem aligned_step {world : Env → Prop} {offers : Publisher → Input → Prop} {state after : State}
    (filled : Filled Held Extracted state)
    (aligned : state.publisher.activeWatchSet = state.publisher.active)
    (step : Step world offers state after) :
    after.publisher.activeWatchSet = after.publisher.active := by
  cases step with
  | head =>
    have typed := filled.2.typed
    exact aligned.trans typed.symm
  | anchor _ loads => exact aligned.trans loads.whole.typed.symm
  | activate _ _ _ loads => exact loads.whole.typed.symm
  | _ => exact aligned

theorem handed_reaches {env : Env} {options : Publisher.ServiceOptions} {watchSet : WatchSet}
    {start : Publisher} {state : State}
    (started : Publisher.startService env options watchSet = some start)
    (run : Steps (fun _ => True) Handed ⟨.idle, start⟩ state) :
    Filled Held Extracted state ∧ state.publisher.activeWatchSet = state.publisher.active := by
  obtain ⟨loaded, starts, rfl⟩ := Publisher.startService_eq_some.mp started
  have whole := starts_whole starts
  have contents : Contents Held Extracted (.initial env options watchSet loaded) :=
    contents_initial env options watchSet (whole.typed.symm ▸ whole)
  refine @steps_invariant _ _ (fun state => Filled Held Extracted state ∧
    state.publisher.activeWatchSet = state.publisher.active) _ _ run
    ⟨⟨contents, trivial⟩, whole.typed.symm⟩ ?_
  rintro before after ⟨filled, aligned⟩ step
  exact ⟨filled_of_feeds (feeds_extracted _) filled step, aligned_step filled aligned step⟩

end Machine

open Machine

theorem succeeds_round {allowed : Publisher → Env → Input → Prop} {env : Env}
    {options : Publisher.ServiceOptions} {watchSet : WatchSet} {start : Publisher}
    {loop after : Loop} (started : Publisher.startService env options watchSet = some start)
    (reached : Loop.Reaches allowed start loop) (round : Loop.Round allowed loop after) :
    loop.publisher.active.Succeeds after.publisher.active := by
  obtain ⟨first, earlier, before⟩ := streaming_reaches started reached
  obtain ⟨second, later, behind⟩ := streaming_reaches started (reached.tail round)
  obtain ⟨rest, whole⟩ := (grows_round round).frames
  change Monitor.Stream _ _ loop.publisher.shared.frames _ at earlier
  change Monitor.Stream _ _ after.publisher.shared.frames _ at later
  rw [← whole] at later
  obtain ⟨middle, joined, onward⟩ := later.split
  have published : middle.published = loop.publisher.shared.published :=
    (Monitor.latest_stream joined).symm.trans
      ((Monitor.latest_stream earlier).trans before.published)
  have succeeds := Monitor.succeeds_stream onward
  have older : middle.active = loop.publisher.active := congrArg (·.canonical.watchSet) published
  have newer : second.active = after.publisher.active :=
    congrArg (·.canonical.watchSet) behind.published
  rw [older, newer] at succeeds
  exact succeeds

theorem generation_produced (call : Produced) : call.event.generation = call.watchSet.generation := by
  obtain ⟨observedAt, watchSet, publish⟩ := call
  cases publish <;> rfl

theorem delta_produced {call : Produced} {block : BlockMeta} {changes : BlockChanges}
    (carried : call.event.delta = some (block, changes)) :
    Extracted call.watchSet block changes := by
  obtain ⟨observedAt, watchSet, publish⟩ := call
  cases publish with
  | executed block bundle | validatedFallback block bundle =>
    cases carried
    exact ⟨bundle, rfl⟩
  | _ => cases carried

theorem handed_produced {call : Produced} {p : Publisher}
    (older : call.watchSet.Succeeds p.active) : Handed p (.event call.event) := by
  refine ⟨?_, fun block changes carried current => ?_⟩
  · rw [generation_produced]
    exact older.generation_le
  · rw [generation_produced] at current
    rw [← older.eq_of_generation current]
    exact delta_produced carried

theorem Session.Step.served {allowed : Publisher → Env → Input → Prop} {session after : Session}
    (step : Session.Step (fun _ _ _ => False) session after) :
    after.loop = session.loop ∧ Session.Step allowed session after := by
  cases step with
  | publish round =>
    obtain ⟨_, _, never, _⟩ := round
    exact never.elim
  | write next => exact ⟨rfl, .write next⟩
  | subscribe connecting => exact ⟨rfl, .subscribe connecting⟩
  | position subscribed => exact ⟨rfl, .position subscribed⟩
  | accept positioned accepted => exact ⟨rfl, .accept positioned accepted⟩
  | greet serving encodes => exact ⟨rfl, .greet serving encodes⟩
  | forward serving next later => exact ⟨rfl, .forward serving next later⟩
  | skip serving next earlier => exact ⟨rfl, .skip serving next earlier⟩
  | signal => exact ⟨rfl, .signal⟩
  | close returns => exact ⟨rfl, .close returns⟩
  | abort signalled => exact ⟨rfl, .abort signalled⟩

namespace Handoff

variable {capacity : Nat} {env : Env} {options : Publisher.ServiceOptions} {watchSet : WatchSet}
  {start : Publisher} {handoff after : Handoff}

structure Keeps (start : Publisher) (handoff : Handoff) : Prop where
  session : Session.Reaches (Allowed (fun _ => True) Handed) start handoff.session
  loaded : handoff.watchSet.Succeeds handoff.publisher.active
  calls : ∀ call ∈ handoff.calls, call.watchSet.Succeeds handoff.publisher.active
  queue : ∀ call ∈ handoff.queue, call.watchSet.Succeeds handoff.publisher.active

theorem Keeps.run (keeps : Keeps start handoff)
    (started : Publisher.startService env options watchSet = some start) :
    Loop.Reaches (Allowed (fun _ => True) Handed) start handoff.loop :=
  (Session.exposes_reaches started keeps.session).1

theorem Keeps.round (keeps : Keeps start handoff)
    (started : Publisher.startService env options watchSet = some start)
    {now : Env} {input : Input} {loop : Loop} (handed : Handed handoff.publisher input)
    (taken : Loop.next now input handoff.loop = some loop)
    (session : after.session = handoff.session.enqueue loop)
    (loaded : after.watchSet = handoff.watchSet) (calls : after.calls = handoff.calls)
    (queue : ∀ call ∈ after.queue, call ∈ handoff.queue) : Keeps start after := by
  have round : Loop.Round (Allowed (fun _ => True) Handed) handoff.loop loop :=
    ⟨now, input, ⟨trivial, handed⟩, taken⟩
  have succeeds := succeeds_round started (keeps.run started) round
  have active : after.publisher.active = loop.publisher.active := by
    unfold publisher
    rw [session]
    rfl
  constructor
  · rw [session]
    exact keeps.session.tail (.publish round)
  · rw [loaded, active]
    exact keeps.loaded.trans succeeds
  · rw [calls, active]
    exact fun call member => (keeps.calls call member).trans succeeds
  · rw [active]
    exact fun call member => (keeps.queue call (queue call member)).trans succeeds

theorem keeps_step (started : Publisher.startService env options watchSet = some start)
    (keeps : Keeps start handoff) (step : Step capacity handoff after) : Keeps start after := by
  cases step with
  | load observedAt publish =>
    refine ⟨keeps.session, keeps.loaded, ?_, keeps.queue⟩
    intro call member
    rcases List.mem_append.mp member with earlier | last
    · exact keeps.calls call earlier
    · cases List.mem_singleton.mp last
      exact keeps.loaded
  | enqueue active room =>
    refine ⟨keeps.session, keeps.loaded, ?_, ?_⟩
    · intro call member
      refine keeps.calls call ?_
      rw [active]
      simp only [List.mem_append, List.mem_cons] at member ⊢
      tauto
    · intro call member
      rcases List.mem_append.mp member with earlier | last
      · exact keeps.queue call earlier
      · cases List.mem_singleton.mp last
        refine keeps.calls _ ?_
        rw [active]
        simp
  | drop active =>
    refine ⟨keeps.session, keeps.loaded, ?_, keeps.queue⟩
    intro call member
    refine keeps.calls call ?_
    rw [active]
    simp only [List.mem_append, List.mem_cons] at member ⊢
    tauto
  | request => exact ⟨keeps.session, keeps.loaded, keeps.calls, keeps.queue⟩
  | handle settled next taken =>
    refine keeps.round started (handed_produced (keeps.queue _ ?_)) taken rfl rfl rfl ?_
    · rw [next]
      exact List.mem_cons_self
    · rw [next]
      exact fun call member => List.mem_cons_of_mem _ member
  | activate settled next taken => exact keeps.round started (by trivial) taken rfl rfl rfl fun _ => id
  | swap =>
    -- The dictionary is swapped in only after the publisher has activated it.
    obtain ⟨_, aligned⟩ := handed_reaches started (reaches_steps (keeps.run started))
    exact ⟨keeps.session, .inl aligned.symm, keeps.calls, keeps.queue⟩
  | maintain settled taken => exact keeps.round started (by trivial) taken rfl rfl rfl fun _ => id
  | loss settled pending taken => exact keeps.round started (by trivial) taken rfl rfl rfl fun _ => id
  | retry settled taken => exact keeps.round started (by trivial) taken rfl rfl rfl fun _ => id
  | @serve session served =>
    obtain ⟨same, step⟩ := served.served
    have active : session.loop.publisher.active = handoff.publisher.active := by
      rw [same]
      rfl
    refine ⟨keeps.session.tail step, ?_, ?_, ?_⟩
    · exact active ▸ keeps.loaded
    · exact active ▸ keeps.calls
    · exact active ▸ keeps.queue

theorem keeps_reaches (started : Publisher.startService env options watchSet = some start)
    (reached : Reaches capacity start handoff) : Keeps start handoff := by
  induction reached with
  | refl =>
    obtain ⟨_, aligned⟩ := handed_reaches started .refl
    refine ⟨.refl, .inl aligned.symm, ?_, ?_⟩
    · exact fun _ member => absurd member List.not_mem_nil
    · exact fun _ member => absurd member List.not_mem_nil
  | tail _ step ih => exact keeps_step started ih step

/-- What the thread may take up: an event from the front of the queue, or anything else. -/
def Offers (handoff : Handoff) : Input → Prop
  | .event event => ∃ call rest, handoff.queue = call :: rest ∧ call.event = event
  | .activation watchSet => handoff.control = some watchSet
  | .loss => 0 < handoff.dropped
  | .maintenance | .retry => True

/-- What a state of the hand-off guarantees. -/
structure Safe (start : Publisher) (handoff : Handoff) : Prop where
  behind : ∀ call ∈ handoff.queue,
    call.event.generation ≤ handoff.publisher.shared.published.canonical.watchSet.generation
  extracted : ∀ call ∈ handoff.queue,
    call.event.generation = handoff.publisher.active.generation →
      call.watchSet = handoff.publisher.active
  deferred : ∀ hash delta, handoff.publisher.store.deltaAt hash = some delta →
    ∃ bundle, delta.2 = extractChanges handoff.publisher.active bundle
  unconfused : ∀ env input failure, handoff.Offers input →
    handoff.loop.failure env input = some failure → ¬ failure.Confuses
  labelled : ∀ handshake, handoff.session.connection.handshake = some handshake →
    History.Each (Labelled start handoff.session.shared.frames) handoff.session.connection.sent
  unambiguous : ∀ earlier later, earlier <+: handoff.session.shared.frames →
    later <+: handoff.session.shared.frames →
    (dictionaryAt start earlier).generation = (dictionaryAt start later).generation →
      dictionaryAt start earlier = dictionaryAt start later
  -- Candidates of an older generation are dropped, its applied views are replayed.
  ignored : ∀ env, ∀ call ∈ handoff.queue, call.event.Candidate →
    call.event.generation < handoff.publisher.active.generation →
      Publisher.handle env call.event handoff.publisher = (.ok (), handoff.publisher)
  replayed : ∀ env, ∀ call ∈ handoff.queue, ∀ applied, call.publish = .forkchoiceApplied applied →
    handoff.publisher.snapshotAnchoredAt < call.observedAt →
    ∀ after, Publisher.handle env call.event handoff.publisher = (.ok (), after) →
      after.shared.published.canonical.block.hash = applied.headHash ∧
        (call.event.generation < handoff.publisher.active.generation →
          after.shared.published.canonical = handoff.publisher.shared.published.canonical ∨
            env.loadAt handoff.publisher.active applied.headHash =
              some after.shared.published.canonical ∧
            after.active = handoff.publisher.active)

theorem Keeps.unconfused (keeps : Keeps start handoff)
    (started : Publisher.startService env options watchSet = some start) {now : Env} {input : Input}
    {failure : Error} (offered : handoff.Offers input)
    (failed : handoff.loop.failure now input = some failure) : ¬ failure.Confuses := by
  have handed : Handed handoff.publisher input := by
    cases input with
    | event event =>
      obtain ⟨call, rest, next, rfl⟩ := offered
      refine handed_produced (keeps.queue call ?_)
      rw [next]
      exact List.mem_cons_self
    | _ => trivial
  have stopped : Stops (fun _ => True) Handed (.ofLoop handoff.loop) failure ∨ _ :=
    failure_stops trivial handed failed
  rcases stopped with ⟨state, onward, fails⟩ | ⟨_, _, _, _, rfl, _⟩
  · obtain ⟨filled, _⟩ := handed_reaches started ((reaches_steps (keeps.run started)).trans onward)
    exact unconfused_of_fails filled fails
  · exact id

theorem Keeps.unambiguous (keeps : Keeps start handoff)
    (started : Publisher.startService env options watchSet = some start)
    {earlier later : List PublishedFrame} (before : earlier <+: handoff.session.shared.frames)
    (behind : later <+: handoff.session.shared.frames)
    (same : (dictionaryAt start earlier).generation = (dictionaryAt start later).generation) :
    dictionaryAt start earlier = dictionaryAt start later := by
  obtain ⟨monitor, stream, _⟩ := streaming_reaches started (keeps.run started)
  change Monitor.Stream _ _ handoff.session.shared.frames _ at stream
  have reads (joined : List PublishedFrame) (within : joined <+: handoff.session.shared.frames) :
      ∃ state, Monitor.Stream options.bootId (.initial start) joined state ∧
        dictionaryAt start joined = state.active := by
    obtain ⟨rest, whole⟩ := within
    rw [← whole] at stream
    obtain ⟨state, joins, _⟩ := stream.split
    exact ⟨state, joins, congrArg (·.canonical.watchSet) (Monitor.latest_stream joins)⟩
  obtain ⟨first, one, atFirst⟩ := reads earlier before
  obtain ⟨second, two, atSecond⟩ := reads later behind
  rw [atFirst, atSecond] at same ⊢
  rcases List.prefix_or_prefix_of_prefix before behind with within | within
  · exact Monitor.unambiguous_stream one two within same
  · exact (Monitor.unambiguous_stream two one within same.symm).symm

end Handoff

/-- Whatever the producers, the thread and a connection interleave, deltas meet only the dictionary
they were extracted with, and a consumer knows the dictionary of every frame. -/
theorem generation_handoff {capacity : Nat} {env : Env} {options : Publisher.ServiceOptions}
    {watchSet : WatchSet} {start : Publisher} {handoff : Handoff}
    (started : Publisher.startService env options watchSet = some start)
    (reached : Handoff.Reaches capacity start handoff) : handoff.Safe start := by
  have keeps := Handoff.keeps_reaches started reached
  have older (call : Produced) (member : call ∈ handoff.queue) :
      call.event.generation ≤ handoff.publisher.active.generation := by
    rw [generation_produced]
    exact (keeps.queue call member).generation_le
  constructor
  · exact older
  · intro call member current
    rw [generation_produced] at current
    exact (keeps.queue call member).eq_of_generation current
  · obtain ⟨filled, _⟩ := handed_reaches started (reaches_steps (keeps.run started))
    exact filled.1.deferred
  · exact fun _ _ _ => keeps.unconfused started
  · exact fun _ => sent_labelled started keeps.session
  · exact fun _ _ => keeps.unambiguous started
  · exact fun _ _ _ => handle_older
  · intro now call member applied calls later after returned
    have bound := older call member
    obtain ⟨observedAt, loaded, publish⟩ := call
    cases calls
    exact handle_forkchoiceApplied bound later returned

theorem generation_handoff_sample :
    ∃ handoff, Handoff.Reaches 1 Sample.start handoff ∧ handoff.Safe Sample.start ∧
      handoff.queue.length = 1 ∧ handoff.publisher.active.generation = 2 := by
  let call : Produced := ⟨1, Sample.watchSet, .executed (Sample.block 2) ⟨∅⟩⟩
  let next : WatchSet := .compile 2 Sample.watchSet.configured
  let loaded : Handoff := { Handoff.start Sample.start with calls := [call] }
  let queued : Handoff := { loaded with calls := [], queue := [call] }
  let asked : Handoff := { queued with control := some next }
  have first : Handoff.Step 1 (.start Sample.start) loaded :=
    .load 1 (.executed (Sample.block 2) ⟨∅⟩)
  have second : Handoff.Step 1 loaded queued :=
    @Handoff.Step.enqueue 1 loaded [] [] call rfl (by decide)
  have third : Handoff.Step 1 queued asked := .request _ rfl
  have ran : (Loop.next (Sample.env 1 2) (.activation next) (.start Sample.start)).any
      (fun loop => loop.publisher.active.generation = 2) = true := by decide +kernel
  obtain ⟨loop, taken, current⟩ := (Option.any_eq_true _ _).mp ran
  have fourth : Handoff.Step 1 asked
      { asked with session := asked.session.enqueue loop, control := none } :=
    .activate rfl rfl taken
  have reached := (((Relation.ReflTransGen.single first).tail second).tail third).tail fourth
  exact ⟨_, reached, generation_handoff Sample.started reached, rfl, of_decide_eq_true current⟩

end Statefeed
