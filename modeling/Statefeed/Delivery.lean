import Statefeed.Content
import Statefeed.Framing
import Statefeed.Machine.Inversion

set_option autoImplicit false

namespace Statefeed

namespace Wire

def WatchKey.Ranged (key : WatchKey) : Prop := key.keyId < 2 ^ 32

structure BlockRef.Ranged (block : BlockRef) : Prop where
  number : block.number < 2 ^ 64
  timestamp : block.timestamp < 2 ^ 64

def CheckpointRef.Ranged (checkpoint : CheckpointRef) : Prop := checkpoint.number < 2 ^ 64

structure ForkchoiceView.Ranged (view : ForkchoiceView) : Prop where
  head : ∀ checkpoint ∈ view.head, checkpoint.Ranged
  safe : ∀ checkpoint ∈ view.safe, checkpoint.Ranged
  finalized : ∀ checkpoint ∈ view.finalized, checkpoint.Ranged

-- An enumeration is an `i32` that is not negative.
def Event.Ranged : Event → Prop
  | hello m => m.chainId < 2 ^ 64 ∧ m.capabilities < 2 ^ 64
  | configActivated m => ∀ key ∈ m.keys, key.Ranged
  | snapshot m => (∀ block ∈ m.block, block.Ranged) ∧ ∀ view ∈ m.forkchoice, view.Ranged
  | blockState m => m.stage < 2 ^ 31 ∧ ∀ block ∈ m.block, block.Ranged
  | blockValidated _ | blockRejected _ => True
  | canonicalHead m => ∀ block ∈ m.block, block.Ranged
  | gap m => m.lastContiguousSequence < 2 ^ 64
  | forkchoiceApplied m => ∀ view ∈ m.view, view.Ranged
  | candidatesRetired m => m.reason < 2 ^ 31

structure Envelope.Ranged (envelope : Envelope) : Prop where
  protocolVersion : envelope.protocolVersion < 2 ^ 32
  sequence : envelope.sequence < 2 ^ 64
  configGeneration : envelope.configGeneration < 2 ^ 64
  emittedAt : envelope.emittedAtMonotonicNs < 2 ^ 64
  event : ∀ event ∈ envelope.event, event.Ranged

end Wire

structure BlockMeta.Words (block : BlockMeta) : Prop where
  number : block.number < 2 ^ 64
  timestamp : block.timestamp < 2 ^ 64

def CheckpointMeta.Words (checkpoint : CheckpointMeta) : Prop := checkpoint.number < 2 ^ 64

structure ForkchoiceMeta.Words (view : ForkchoiceMeta) : Prop where
  head : view.head.Words
  safe : ∀ checkpoint ∈ view.safe, checkpoint.Words
  finalized : ∀ checkpoint ∈ view.finalized, checkpoint.Words

structure AppliedForkchoiceMeta.Words (applied : AppliedForkchoiceMeta) : Prop where
  safe : ∀ checkpoint ∈ applied.safe, checkpoint.Words
  finalized : ∀ checkpoint ∈ applied.finalized, checkpoint.Words

/-- What the provider returns fits its types. -/
structure Env.Words (env : Env) : Prop where
  latest : ∀ watchSet loaded, env.loadLatest watchSet = some loaded →
    loaded.projection.block.Words ∧ loaded.forkchoice.Words
  found : ∀ watchSet hash projection, env.loadAt watchSet hash = some projection →
    projection.block.Words

/-- What the engine and the reloader hand over fits its types. -/
def Input.Words : Input → Prop
  | .event (.executed _ _ block _) | .event (.validatedFallback _ _ block _) => block.Words
  | .event (.forkchoiceApplied _ _ applied) => applied.Words
  | .activation watchSet => watchSet.generation < 2 ^ 64
  | _ => True

structure PublishedState.Words (state : PublishedState) : Prop where
  block : state.canonical.block.Words
  generation : state.canonical.watchSet.generation < 2 ^ 64
  view : ∀ view ∈ state.forkchoice, view.Words

structure PublishedFrame.Words (frame : PublishedFrame) : Prop where
  clock : frame.envelope.emittedAtMonotonicNs < 2 ^ 64
  stored : ∀ stored ∈ frame.stored, PublishedState.Words stored

theorem blockRef_ranged {block : BlockMeta} (words : block.Words) : (blockRef block).Ranged :=
  ⟨words.number, words.timestamp⟩

theorem checkpointRef_ranged {checkpoint : Option CheckpointMeta}
    (words : ∀ inner ∈ checkpoint, CheckpointMeta.Words inner) :
    ∀ inner ∈ checkpoint.map checkpointRef, Wire.CheckpointRef.Ranged inner := by
  intro inner member
  obtain ⟨original, found, rfl⟩ := Option.map_eq_some_iff.mp member
  exact words original found

theorem forkchoiceView_ranged {view : ForkchoiceMeta} (words : view.Words) :
    (forkchoiceView view).Ranged := by
  refine ⟨?_, checkpointRef_ranged words.safe, checkpointRef_ranged words.finalized⟩
  rintro _ ⟨⟩
  exact words.head

theorem snapshot_ranged {projection : Projection} {view : ForkchoiceMeta}
    (block : projection.block.Words) (words : view.Words) :
    (Wire.Event.snapshot (snapshot projection view)).Ranged := by
  constructor
  · rintro _ ⟨⟩
    exact blockRef_ranged block
  · rintro _ ⟨⟩
    exact forkchoiceView_ranged words

theorem configActivated_ranged (watchSet : WatchSet) :
    (Wire.Event.configActivated (configActivated watchSet)).Ranged := by
  intro key member
  obtain ⟨original, found, rfl⟩ := List.mem_map.mp member
  obtain ⟨index, within, rfl⟩ := List.mem_mapIdx.mp found
  exact Nat.mod_lt _ (by decide)

theorem resolve_words {applied : AppliedForkchoiceMeta} {number : Nat} (words : applied.Words)
    (fits : number < 2 ^ 64) : (applied.resolve number).Words := by
  have kept {checkpoint : Option CheckpointMeta}
      (words : ∀ inner ∈ checkpoint, CheckpointMeta.Words inner) :
      ∀ inner ∈ checkpoint.bind fun inner => if inner.number ≤ number then some inner else none,
        CheckpointMeta.Words inner := by
    intro inner member
    obtain ⟨original, found, coherent⟩ := Option.bind_eq_some_iff.mp member
    split_ifs at coherent
    cases coherent
    exact words inner found
  exact ⟨fits, kept words.safe, kept words.finalized⟩

namespace Machine

def Numbers : Wire.Event → Prop
  | .gap _ => True
  | event => event.Ranged

def Measured (watchSet : WatchSet) (projection : Projection) : Prop :=
  projection.watchSet = watchSet ∧ projection.block.Words

structure Worded (state : State) : Prop where
  filled : Filled Measured (fun _ block _ => block.Words) state
  applied : state.phase.Applies AppliedForkchoiceMeta.Words
  generation : state.publisher.active.generation < 2 ^ 64
  events : ∀ frame ∈ state.publisher.shared.frames, ∀ event ∈ frame.envelope.event, Numbers event
  frames : ∀ frame ∈ state.publisher.shared.frames, frame.Words

section

variable {stream : StreamConfig} {offers : Publisher → Input → Prop}
  (words : ∀ p input, offers p input → input.Words)

include words

theorem spreads_measured : Spreads Measured (fun _ block _ => block.Words) Env.Words offers where
  typed _ _ holding := holding.1
  latest _ lawful _ _ read typed := ⟨typed, (lawful.latest _ _ read).1⟩
  found _ lawful _ _ _ read typed := ⟨typed, lawful.found _ _ _ read⟩
  delta p event block changes offered carries _ := by
    have fits := words p _ offered
    cases event with
    | executed | validatedFallback =>
      cases carries
      exact fits
    | _ => cases carries
  applies _ _ _ _ _ _ _ fits _ := ⟨rfl, fits⟩

theorem emits_numbers {state : State} {generation : Generation} {event : Wire.Event} {store : Store}
    (worded : Worded state) (emits : Emits Env.Words offers state generation event store) :
    Numbers event := by
  obtain ⟨contents, carries⟩ := worded.filled
  cases emits with
  | validated | rejected | reset | gapped => trivial
  | @announced p env stage block changes inherited applied projection lawful delta fresh inherits
      changed assembled =>
    have fits : block.Words := Delta.isSound (spreads_measured words) contents delta
    rw [assembled]
    refine ⟨?_, ?_⟩
    · change stage.wire.code < 2 ^ 31
      cases stage <;> decide
    · rintro _ ⟨⟩
      exact blockRef_ranged fits
  | @retired p _ batch rest reason =>
    change reason.code < 2 ^ 31
    cases reason <;> decide
  | headed =>
    rintro _ ⟨⟩
    exact blockRef_ranged carries.2
  | fenced resolved =>
    rintro _ ⟨⟩
    rw [resolved]
    exact forkchoiceView_ranged (resolve_words worded.applied contents.canonical.2.number)
  | configured => exact configActivated_ranged _
  | anchored lawful loads =>
    obtain ⟨block, view⟩ := lawful.latest _ _ loads.read
    exact snapshot_ranged block view

theorem generation_step {state after : State} (step : Step Env.Words offers state after)
    (worded : Worded state) : after.publisher.active.generation < 2 ^ 64 := by
  have known := worded.generation
  cases step with
  | @head p env projection =>
    have typed : projection.watchSet = p.active := worded.filled.2.1
    change projection.watchSet.generation < 2 ^ 64
    rw [typed]
    exact known
  | @anchor p env _ loaded _ loads =>
    change loaded.projection.watchSet.generation < 2 ^ 64
    rw [watchSet_of_dictionary loads.dictionary]
    exact known
  | @activate p env watchSet loaded _ admitted _ loads =>
    change loaded.projection.watchSet.generation < 2 ^ 64
    rw [watchSet_of_dictionary loads.dictionary]
    exact words _ _ admitted
  | _ => exact known

end

theorem words_sent {shared : Shared} {env : Env} {generation : Generation} {event : Wire.Event}
    {nextState : Option (Projection × Option ForkchoiceMeta × Bool)}
    (earlier : ∀ frame ∈ shared.frames, frame.Words)
    (fits : ∀ projection view recovering, nextState = some (projection, view, recovering) →
      projection.block.Words ∧ projection.watchSet.generation < 2 ^ 64 ∧
        ∀ inner ∈ view, ForkchoiceMeta.Words inner) :
    ∀ frame ∈ (shared.sent env generation event nextState).frames, frame.Words := by
  intro frame member
  rcases List.mem_append.mp member with before | last
  · exact earlier frame before
  · cases List.mem_singleton.mp last
    refine ⟨lt_of_le_of_lt (min_le_right _ _) (by decide), fun state found => ?_⟩
    obtain ⟨⟨projection, view, recovering⟩, next, rfl⟩ := Option.map_eq_some_iff.mp found
    obtain ⟨block, generation, view⟩ := fits _ _ _ next
    exact ⟨block, generation, view⟩

section

variable {offers : Publisher → Input → Prop} (words : ∀ p input, offers p input → input.Words)

include words

theorem frames_step {state after : State} (step : Step Env.Words offers state after)
    (worded : Worded state) : ∀ frame ∈ after.publisher.shared.frames, frame.Words := by
  obtain ⟨contents, carries⟩ := worded.filled
  have next := generation_step words step worded
  cases step with
  | validate | announce | retire | reject => exact words_sent worded.frames nofun
  | head =>
    refine words_sent worded.frames ?_
    rintro _ _ _ ⟨⟩
    exact ⟨carries.2, next, nofun⟩
  | fence _ _ resolved =>
    refine words_sent worded.frames ?_
    rintro _ _ _ ⟨⟩
    refine ⟨contents.canonical.2, worded.generation, ?_⟩
    rintro _ ⟨⟩
    rw [resolved]
    exact resolve_words worded.applied contents.canonical.2.number
  | gap | retryGap =>
    refine words_sent worded.frames ?_
    rintro _ _ _ ⟨⟩
    exact ⟨contents.canonical.2, worded.generation, nofun⟩
  | anchor lawful loads =>
    -- The snapshot is what the chain was read to be at this moment.
    obtain ⟨block, view⟩ := lawful.latest _ _ loads.read
    refine words_sent worded.frames ?_
    rintro _ _ _ ⟨⟩
    refine ⟨block, next, ?_⟩
    rintro _ ⟨⟩
    exact view
  | activate lawful _ _ loads =>
    obtain ⟨block, view⟩ := lawful.latest _ _ loads.read
    refine words_sent (words_sent worded.frames ?_) nofun
    rintro _ _ _ ⟨⟩
    refine ⟨block, next, ?_⟩
    rintro _ ⟨⟩
    exact view
  | _ => exact worded.frames

theorem worded_step {state after : State} (step : Step Env.Words offers state after)
    (worded : Worded state) : Worded after where
  filled := filled_step (spreads_measured words) worded.filled step
  applied := by
    refine applies_step (fun _ _ _ applied admitted => ?_) worded.applied step
    exact words _ _ admitted
  generation := generation_step words step worded
  events := events_of_emits step worded.events fun _ _ _ => emits_numbers words worded
  frames := frames_step words step worded

end

def Sized (limit : Nat) (event : Wire.Event) : Prop :=
  (∃ gap, event = .gap gap) ∨ 67 + event.encodedLen ≤ limit

theorem emits_sized {stream : StreamConfig} {world : Env → Prop} {state : State}
    {generation : Generation} {event : Wire.Event} {store : Store}
    (bounded : stream.maxFrameBytes < 2 ^ 32)
    (limit : state.publisher.shared.maxFrameBytes = stream.maxFrameBytes)
    (shaped : Shaped (Fits stream) state)
    (emits : Emits world (Configured stream) state generation event store) :
    Sized stream.maxFrameBytes event := by
  have sized {config : Config} (same : config.stream = stream) (valid : config.Valid)
      (built : Built config state.publisher.shared event) : Sized stream.maxFrameBytes event := by
    subst same
    exact .inr (built_encodedLen valid bounded limit built)
  have working (working : state.phase.Working) : Sized stream.maxFrameBytes event := by
    obtain ⟨config, same, valid, built⟩ := emits_built shaped working emits
    exact sized same valid built
  cases emits with
  | gapped => exact .inl ⟨_, rfl⟩
  | retired | headed | fenced => exact working trivial
  | @anchored phase p env watchSet loaded lawful loads wanted =>
    -- The only event of a phase that may not be working.
    have values := loads.whole.values
    rw [length_configured] at values
    rcases wanted with rfl | admitted
    · exact sized rfl shaped.dictionary (.snapshot _ values)
    · exact sized rfl (Config.valid_of_validate admitted) (.snapshot _ values)
  | _ => exact working trivial

section

variable {config : Config} {options : Publisher.ServiceOptions} {env : Env}
  {generation : Generation} {start : Publisher} {loop : Loop}

theorem sized_reaches (valid : config.Valid) (bounded : config.stream.maxFrameBytes < 2 ^ 32)
    (stream : options.stream = config.stream)
    (started : Publisher.startService env options (WatchSet.compile generation config.watch) =
      some start)
    (reached : Loop.Reaches (Allowed (fun _ => True) (Configured config.stream)) start loop) :
    ∀ frame ∈ loop.publisher.shared.frames, ∀ event ∈ frame.envelope.event,
      67 + event.encodedLen ≤ config.stream.maxFrameBytes := by
  have invariant : Shaped (Fits config.stream) (.ofLoop loop) ∧
      loop.publisher.shared.maxFrameBytes = config.stream.maxFrameBytes ∧
      ∀ frame ∈ loop.publisher.shared.frames, ∀ event ∈ frame.envelope.event,
        Sized config.stream.maxFrameBytes event := by
    refine @reaches_invariant _ _ (fun state => Shaped (Fits config.stream) state ∧
      state.publisher.shared.maxFrameBytes = config.stream.maxFrameBytes ∧
      ∀ frame ∈ state.publisher.shared.frames, ∀ event ∈ frame.envelope.event,
        Sized config.stream.maxFrameBytes event) _ _ reached ?_ ?_
    · refine ⟨shaped_initial (fits_config valid) started, ?_⟩
      obtain ⟨_, _, rfl⟩ := Publisher.startService_eq_some.mp started
      exact ⟨congrArg StreamConfig.maxFrameBytes stream, fun _ member => absurd member List.not_mem_nil⟩
    · rintro state after ⟨shaped, limit, sized⟩ step
      refine ⟨shaped_step configured_fits shaped step, (grows_step step).limit.trans limit, ?_⟩
      exact events_of_emits step sized fun _ _ _ => emits_sized bounded limit shaped
  obtain ⟨shaped, limit, sized⟩ := invariant
  intro frame member event carries
  rcases sized frame member event carries with ⟨gap, rfl⟩ | fits
  · have silent : start.shared.frames = [] := by
      obtain ⟨_, _, rfl⟩ := Publisher.startService_eq_some.mp started
      rfl
    have known := namedGaps_reaches silent reached frame member gap carries
    exact built_encodedLen valid bounded limit (.gap gap.lastContiguousSequence known)
  · exact fits

end

end Machine

theorem Machine.Tracks.last_le {bootId : Bytes} {monitor : Monitor} {loop : Loop}
    (tracks : Machine.Tracks bootId monitor (.ofLoop loop)) :
    monitor.last ≤ loop.publisher.shared.sequence := by
  obtain ⟨publisher, control⟩ := loop
  have staged := tracks.staged
  rw [tracks.last]
  cases control with
  | idle => exact staged.2.ge
  | recovering announced =>
    cases announced with
    | false => exact staged.2
    | true => exact staged.2.ge

namespace Monitor

structure Bounds (bootId : Bytes) (monitor : Monitor) (frame : PublishedFrame) : Prop where
  version : frame.envelope.protocolVersion = Wire.protocolVersion
  boot : frame.envelope.bootId = bootId
  sequence : frame.sequence ≤ monitor.last
  generation : frame.envelope.configGeneration ≤ monitor.active.generation
  carries : ∃ event, frame.envelope.event = some event
  gap : ∀ gap, frame.envelope.event = some (.gap gap) →
    gap.lastContiguousSequence ≤ monitor.last

variable {bootId : Bytes} {start monitor after : Monitor} {frame : PublishedFrame}
  {frames : List PublishedFrame}

theorem bounds_emits (emitted : Emits bootId monitor frame after) :
    Bounds bootId after frame ∧ monitor.last ≤ after.last ∧
      monitor.active.generation ≤ after.active.generation := by
  have bounds {sequence : Nat} {generation : Generation} {event : Wire.Event}
      (stamped : Stamped bootId frame.envelope sequence generation event)
      (last : sequence ≤ after.last) (known : generation ≤ after.active.generation)
      (gap : ∀ gap, event = .gap gap → gap.lastContiguousSequence ≤ after.last) :
      Bounds bootId after frame :=
    ⟨stamped.version, stamped.boot, stamped.sequence.trans_le last,
      stamped.generation.trans_le known, ⟨_, stamped.event⟩, fun inner read => gap inner (stamped.same read)⟩
  cases emitted with
  | plain _ kind stamped =>
    refine ⟨bounds stamped (Nat.le_refl _) (Nat.le_refl _) ?_, Nat.le_succ _, Nat.le_refl _⟩
    rintro _ rfl
    exact kind.elim
  | headed _ _ same stamped announced =>
    subst announced
    have generation := congrArg WatchSet.generation same
    exact ⟨bounds stamped (Nat.le_refl _) generation.ge nofun, Nat.le_succ _, generation.ge⟩
  | fenced _ _ stamped announced =>
    subst announced
    exact ⟨bounds stamped (Nat.le_refl _) (Nat.le_refl _) nofun, Nat.le_succ _, Nat.le_refl _⟩
  | configured _ newer _ stamped announced =>
    subst announced
    exact ⟨bounds stamped (Nat.le_refl _) (Nat.le_refl _) nofun, Nat.le_succ _, Nat.le_of_lt newer⟩
  | introduced _ _ stamped =>
    exact ⟨bounds stamped (Nat.le_refl _) (Nat.le_refl _) nofun, Nat.le_succ _, Nat.le_refl _⟩
  | gapped _ later stamped announced =>
    subst announced
    refine ⟨bounds stamped (Nat.le_refl _) (Nat.le_refl _) ?_, later.le, Nat.le_refl _⟩
    rintro _ ⟨⟩
    exact later.le
  | anchored _ same _ stamped announced =>
    subst announced
    have generation := congrArg WatchSet.generation same
    exact ⟨bounds stamped (Nat.le_refl _) generation.ge nofun, Nat.le_succ _, generation.ge⟩

theorem bounds_stream (stream : Stream bootId start frames monitor) :
    ∀ frame ∈ frames, Bounds bootId monitor frame := by
  induction stream with
  | nil => exact fun _ member => absurd member List.not_mem_nil
  | concat _ emitted ih =>
    obtain ⟨bounds, last, generation⟩ := bounds_emits emitted
    intro frame member
    rcases List.mem_append.mp member with earlier | newest
    · have known := ih frame earlier
      exact ⟨known.version, known.boot, known.sequence.trans last,
        Nat.le_trans known.generation generation, known.carries, fun gap read => (known.gap gap read).trans last⟩
    · cases List.mem_singleton.mp newest
      exact bounds

end Monitor

namespace Machine

/-- The inputs of a service that was configured with `stream`, in machine words. -/
def Wired (stream : StreamConfig) (p : Publisher) (input : Input) : Prop :=
  Engine stream p input ∧ input.Words

theorem worded_initial {options : Publisher.ServiceOptions} {env : Env} {watchSet : WatchSet}
    {start : Publisher} (words : env.Words) (fresh : watchSet.generation < 2 ^ 64)
    (started : Publisher.startService env options watchSet = some start) :
    Worded ⟨.idle, start⟩ ∧ start.shared.published.Words := by
  obtain ⟨loaded, starts, rfl⟩ := Publisher.startService_eq_some.mp started
  obtain ⟨block, view⟩ := words.latest _ _ starts.read
  have typed := watchSet_of_dictionary starts.dictionary
  have known : loaded.projection.watchSet.generation < 2 ^ 64 := by
    rw [typed]
    exact fresh
  refine ⟨⟨⟨contents_initial env options watchSet ⟨rfl, block⟩, trivial⟩, trivial, known, ?_, ?_⟩,
    block, known, ?_⟩
  · exact fun _ member => absurd member List.not_mem_nil
  · exact fun _ member => absurd member List.not_mem_nil
  · rintro _ ⟨⟩
    exact view

theorem ranged_of_bounds {bootId : Bytes} {monitor : Monitor} {frame : PublishedFrame}
    {state : State} (worded : Worded state) (counted : monitor.last < 2 ^ 64)
    (generation : monitor.active.generation < 2 ^ 64)
    (bounds : Monitor.Bounds bootId monitor frame) (member : frame ∈ state.publisher.shared.frames) :
    frame.envelope.Ranged := by
  refine ⟨?_, bounds.sequence.trans_lt counted, Nat.lt_of_le_of_lt bounds.generation generation,
    (worded.frames frame member).clock, ?_⟩
  · rw [bounds.version]
    decide
  · intro event carries
    have numbers := worded.events frame member event carries
    cases event with
    | gap gap => exact (bounds.gap gap carries).trans_lt counted
    | _ => exact numbers

end Machine

namespace Session

variable {allowed : Publisher → Env → Input → Prop} {start : Publisher} {session : Session}

theorem reaches_mono {wider : Publisher → Env → Input → Prop}
    (admits : ∀ p env input, allowed p env input → wider p env input)
    (reached : Reaches allowed start session) : Reaches wider start session := by
  refine Relation.ReflTransGen.mono (fun before after step => ?_) _ _ reached
  cases step with
  | publish round => exact .publish (Machine.round_mono admits round)
  | write next => exact .write next
  | subscribe connecting => exact .subscribe connecting
  | position subscribed => exact .position subscribed
  | accept positioned accepted => exact .accept positioned accepted
  | greet serving encodes => exact .greet serving encodes
  | forward serving next later => exact .forward serving next later
  | skip serving next earlier => exact .skip serving next earlier
  | signal => exact .signal
  | close returns => exact .close returns
  | abort signalled => exact .abort signalled

structure Greeted (limit : Nat) (envelope : Wire.Envelope) : Prop where
  clock : envelope.emittedAtMonotonicNs < 2 ^ 64
  encodes : ∃ frame, Wire.encodeFrame envelope limit = .ok frame

theorem sent_origin (reached : Reaches allowed start session) :
    ∀ envelope ∈ session.connection.sent,
      Greeted session.shared.maxFrameBytes envelope ∨
        ∃ frame ∈ session.memory.sent, frame.envelope = envelope := by
  induction reached with
  | refl => exact fun _ member => absurd member List.not_mem_nil
  | @tail before after _ step ih =>
    cases step with
    | publish round =>
      have limit := (Machine.grows_round round).limit
      intro envelope member
      rw [show (before.enqueue _).shared.maxFrameBytes = before.shared.maxFrameBytes from limit]
      exact ih envelope member
    | @write write rest next =>
      intro envelope member
      rcases ih envelope member with greeted | ⟨frame, known, same⟩
      · exact .inl greeted
      · refine .inr ⟨frame, ?_, same⟩
        cases write with
        | entry => exact List.mem_append_left _ known
        | state | position => exact known
    | greet serving encodes =>
      intro envelope member
      rcases List.mem_append.mp member with earlier | last
      · exact ih envelope earlier
      · cases List.mem_singleton.mp last
        have payload := Wire.encodeFrame_payload encodes
        refine .inl ⟨?_, ?_⟩
        · rw [payload]
          exact lt_of_le_of_lt (min_le_right _ _) (by decide)
        · rw [payload]
          exact ⟨_, encodes⟩
    | forward _ next =>
      intro envelope member
      rcases List.mem_append.mp member with earlier | last
      · exact ih envelope earlier
      · cases List.mem_singleton.mp last
        exact .inr ⟨_, List.mem_of_getElem? next, rfl⟩
    | _ => exact ih

theorem sent_observed {options : Publisher.ServiceOptions} {env : Env} {watchSet : WatchSet}
    {handshake : Handshake} (started : Publisher.startService env options watchSet = some start)
    (reached : Reaches allowed start session)
    (joined : session.connection.handshake = some handshake) :
    ∃ phase, Dump.observeAll session.connection.sent = .ok phase := by
  have coherent := Monitor.coherent_initial started
  obtain ⟨loopReached, exposes⟩ := exposes_reaches started reached
  obtain ⟨monitor, stream, tracks⟩ := Machine.streaming_reaches started loopReached
  change Monitor.Stream options.bootId _ session.shared.frames monitor at stream
  obtain ⟨pending, serves⟩ := serves_reaches started reached joined
  obtain ⟨hello, config, shown, greets, sent⟩ := sent_prefix exposes serves
  obtain ⟨earlier, ⟨more, whole⟩, joins⟩ := serves.joined
  rw [live_of_joins coherent stream joins whole] at sent
  rw [← whole] at stream
  obtain ⟨origin, before, later⟩ := stream.split
  have originLast : origin.last = handshake.baseline :=
    (Monitor.position_stream before).symm.trans joins.baseline
  have first : Expects options.bootId handshake origin monitor more hello config shown .hello
      (hello :: config :: shown :: more.map PublishedFrame.envelope) := rfl
  exact Acceptor.run_of_expected Dump.observeEnvelope
    (Expects options.bootId handshake origin monitor more hello config shown)
    (fun _ _ _ expects => expects_next (tracks.boot ▸ greets) later originLast expects) first sent

end Session

open Machine

namespace FrameReader

variable {codec : Codec} {limit offset : Nat} {frames : List Wire.Frame} {reader : FrameReader}

theorem complete_all (long : (bytesOf codec frames).length ≤ offset) :
    complete codec offset frames = frames := by
  induction frames generalizing offset with
  | nil => rfl
  | cons frame rest ih =>
    rw [bytesOf, List.flatMap_cons, List.length_append] at long
    rw [complete, if_pos (by omega), ih (by rw [bytesOf]; omega)]

theorem results_cut (sound : ∀ frame ∈ frames, Sound codec limit frame)
    (wider : limit ≤ reader.maxFrameBytes)
    (cut : reader.inner.remaining = (bytesOf codec frames).take offset) :
    ∃ ending, (ending = .ok none ∨ ending = .error .unexpectedEof) ∧
      ((bytesOf codec frames).length ≤ offset → ending = .ok none) ∧
      results codec ((complete codec offset frames).length + 1) reader =
        (complete codec offset frames).map (fun frame => .ok (some frame.payload)) ++ [ending] := by
  have within := @complete_initial codec frames offset
  have kept : ∀ frame ∈ complete codec offset frames, Sound codec limit frame :=
    fun frame member => sound frame (within.subset member)
  rcases @take_bytesOf codec frames offset with boundary | ⟨frame, member, part, positive, short, broken⟩
  · have all := told_bytesOf kept wider 1 []
    rw [List.append_nil, ← boundary, ← cut] at all
    exact ⟨.ok none, .inl rfl, fun _ => rfl, (results_eq_told _ _).trans all⟩
  · have fails := (sound frame member).outcome_broken wider positive short
    refine ⟨.error .unexpectedEof, .inr rfl, fun long => ?_, ?_⟩
    · -- Nothing was cut off, so there is no part of a further frame.
      rw [List.take_of_length_le long, complete_all long] at broken
      have empty : (frame.bytes codec).take part = [] := List.self_eq_append_right.mp broken
      have length := congrArg List.length empty
      rw [List.length_take, List.length_nil] at length
      omega
    · rw [results_eq_told, cut, broken, told_bytesOf kept wider, told, fails]
      rfl

end FrameReader

section

variable {config : Config} {options : Publisher.ServiceOptions} {env : Env}
  {generation : Generation} {start : Publisher} {session : Session} {handshake : Handshake}

structure Wire.Envelope.Deliverable (limit : Nat) (envelope : Wire.Envelope) : Prop where
  ranged : envelope.Ranged
  encodes : ∃ frame, Wire.encodeFrame envelope limit = .ok frame

theorem mapM_encodeFrame {limit : Nat} {envelopes : List Wire.Envelope}
    (each : ∀ envelope ∈ envelopes, ∃ frame, Wire.encodeFrame envelope limit = .ok frame) :
    ∃ frames, envelopes.mapM (Wire.encodeFrame · limit) = .ok frames := by
  induction envelopes with
  | nil => exact ⟨[], rfl⟩
  | cons envelope rest ih =>
    obtain ⟨frame, encoded⟩ := each envelope List.mem_cons_self
    obtain ⟨frames, others⟩ := ih fun other member => each other (List.mem_cons_of_mem _ member)
    exact ⟨frame :: frames, by rw [List.mapM_cons, encoded, others]; rfl⟩

theorem Session.event_of_greeting {bootId : Bytes} {greeting : List Wire.Envelope}
    {done : List Wire.Event} (greets : Session.Greets bootId handshake greeting done)
    {envelope : Wire.Envelope} (member : envelope ∈ greeting) :
    ∃ event ∈ done,
      Monitor.Stamped bootId envelope handshake.baseline handshake.generation event := by
  induction greets with
  | nil => exact absurd member List.not_mem_nil
  | cons stamped _ ih =>
    rcases List.mem_cons.mp member with rfl | later
    · exact ⟨_, List.mem_cons_self, stamped⟩
    · obtain ⟨event, known, same⟩ := ih later
      exact ⟨event, List.mem_cons_of_mem _ known, same⟩

theorem words_of_joins {state : State} {frames joined : List PublishedFrame}
    (initially : start.shared.published.Words) (worded : Worded state)
    (same : state.publisher.shared.frames = frames) (within : joined <+: frames)
    (joins : Session.Joins start handshake joined) :
    handshake.canonical.block.Words ∧ handshake.canonical.watchSet.generation < 2 ^ 64 ∧
      handshake.forkchoice.Words := by
  obtain ⟨_, view, canonical, _, _⟩ := Session.accepted_of_accept joins.accepted
  have words : (publishedAfter start joined).Words := by
    rcases Publication.latest_cases PublishedFrame.stored start.shared.published joined with
      first | ⟨frame, member, stored⟩
    · rw [publishedAfter, first]
      exact initially
    · rw [← same] at within
      exact (worded.frames frame (within.subset member)).stored _ stored
  rw [← canonical]
  exact ⟨words.block, words.generation, words.view _ view⟩

theorem greeting_ranged {shared : Shared} {event : Wire.Event}
    (chain : shared.chainId < 2 ^ 64) (capabilities : shared.capabilities < 2 ^ 64)
    (block : handshake.canonical.block.Words) (view : handshake.forkchoice.Words)
    (listed : event ∈ handshake.events shared) : event.Ranged := by
  simp only [Handshake.events, List.mem_cons, List.not_mem_nil, or_false] at listed
  rcases listed with rfl | rfl | rfl
  · exact ⟨chain, capabilities⟩
  · exact configActivated_ranged _
  · exact snapshot_ranged block view

theorem worded_reaches {stream : StreamConfig} {loop : Loop} {watchSet : WatchSet}
    (words : env.Words) (fresh : watchSet.generation < 2 ^ 64)
    (started : Publisher.startService env options watchSet = some start)
    (reached : Loop.Reaches (Allowed Env.Words (Wired stream)) start loop) :
    Worded (.ofLoop loop) :=
  reaches_invariant reached (worded_initial words fresh started).1 fun _ _ worded step =>
    worded_step (fun _ _ admitted => admitted.2) step worded

theorem frames_deliverable (valid : config.Valid) (bounded : config.stream.maxFrameBytes < 2 ^ 32)
    (stream : options.stream = config.stream) (boot : options.bootId.length ≤ 16)
    (words : env.Words) (fresh : generation < 2 ^ 64)
    (started : Publisher.startService env options (WatchSet.compile generation config.watch) =
      some start) {loop : Loop}
    (reached : Loop.Reaches (Allowed Env.Words (Wired config.stream)) start loop)
    (counted : loop.publisher.shared.sequence < 2 ^ 64) :
    ∀ frame ∈ loop.publisher.shared.frames,
      frame.envelope.Deliverable config.stream.maxFrameBytes := by
  obtain ⟨monitor, trace, tracks⟩ := Machine.streaming_reaches started reached
  have worded := worded_reaches words fresh started reached
  have active : monitor.active.generation < 2 ^ 64 := by
    rw [tracks.active]
    exact worded.generation
  -- The sizes are proved for any environment, so the bound on its words is dropped.
  have sized := sized_reaches valid bounded stream started
    (Machine.reaches_mono (fun _ _ _ admitted => ⟨trivial, admitted.2.1.1⟩) reached)
  intro frame member
  have bound := Monitor.bounds_stream trace frame member
  obtain ⟨event, carries⟩ := bound.carries
  have room := sized frame member event carries
  have whole := envelope_encodedLen (by rw [bound.boot]; exact boot) carries
  refine ⟨ranged_of_bounds worded (tracks.last_le.trans_lt counted) active bound member, ?_⟩
  unfold Wire.encodeFrame
  rw [if_neg (by omega), if_neg (by omega)]
  exact ⟨_, rfl⟩

theorem greeting_deliverable (stream : options.stream = config.stream)
    (chain : options.chainId < 2 ^ 64) (words : env.Words) (fresh : generation < 2 ^ 64)
    (started : Publisher.startService env options (WatchSet.compile generation config.watch) =
      some start)
    (reached : Loop.Reaches (Allowed Env.Words (Wired config.stream)) start session.loop)
    (counted : session.shared.sequence < 2 ^ 64) {joined : List PublishedFrame}
    (within : joined <+: session.shared.frames) (joins : Session.Joins start handshake joined)
    {envelope : Wire.Envelope} {event : Wire.Event}
    (listed : event ∈ handshake.events session.shared)
    (stamped : Monitor.Stamped session.shared.bootId envelope handshake.baseline
      handshake.generation event)
    (greeted : Session.Greeted session.shared.maxFrameBytes envelope) :
    envelope.Deliverable config.stream.maxFrameBytes := by
  obtain ⟨monitor, trace, tracks⟩ := Machine.streaming_reaches started reached
  obtain ⟨block, known, view⟩ := words_of_joins (worded_initial words fresh started).2
    (worded_reaches words fresh started reached) rfl within joins
  have grows := grows_reaches reached
  obtain ⟨_, _, made⟩ := Publisher.startService_eq_some.mp started
  have limit : session.shared.maxFrameBytes = config.stream.maxFrameBytes := by
    rw [← stream]
    exact grows.limit.trans (by rw [made]; rfl)
  have baseline : handshake.baseline ≤ monitor.last := by
    rw [← joins.baseline, ← Monitor.position_stream trace]
    exact (Monitor.ordered_stream (Monitor.coherent_initial started) trace).position_le within
  have ranged : event.Ranged := by
    have hello : session.shared.hello = start.shared.hello := grows.hello
    refine greeting_ranged ?_ ?_ block view listed
    · rw [show session.shared.chainId = start.shared.chainId from
        congrArg Wire.Hello.chainId hello, made]
      exact chain
    · rw [show session.shared.capabilities = start.shared.capabilities from
        congrArg Wire.Hello.capabilities hello, made]
      change advertisedCapabilities options.stream.publishExecuted < 2 ^ 64
      cases options.stream.publishExecuted <;> decide
  refine ⟨⟨?_, ?_, ?_, greeted.clock, ?_⟩, limit ▸ greeted.encodes⟩
  · rw [stamped.version]
    decide
  · rw [stamped.sequence]
    exact baseline.trans_lt (tracks.last_le.trans_lt counted)
  · rw [stamped.generation]
    exact known
  · intro other read
    cases stamped.same read
    exact ranged

theorem sent_deliverable (valid : config.Valid) (bounded : config.stream.maxFrameBytes < 2 ^ 32)
    (stream : options.stream = config.stream) (boot : options.bootId.length ≤ 16)
    (chain : options.chainId < 2 ^ 64) (words : env.Words) (fresh : generation < 2 ^ 64)
    (started : Publisher.startService env options (WatchSet.compile generation config.watch) =
      some start)
    (reached : Session.Reaches (Allowed Env.Words (Wired config.stream)) start session)
    (joined : session.connection.handshake = some handshake)
    (counted : session.shared.sequence < 2 ^ 64) :
    ∀ envelope ∈ session.connection.sent, envelope.Deliverable config.stream.maxFrameBytes := by
  obtain ⟨loopReached, exposes⟩ := Session.exposes_reaches started reached
  obtain ⟨pending, serves⟩ := Session.serves_reaches started reached joined
  have ring : session.memory.sent <+: session.shared.frames := by
    obtain ⟨_, written, outstanding, _⟩ := exposes
    obtain ⟨counted, earlier, within, _⟩ := outstanding.counted
    exact (earlier.trans within).trans outstanding.within
  have published (frame : PublishedFrame) (member : frame ∈ session.memory.sent) :
      frame.envelope.Deliverable config.stream.maxFrameBytes :=
    frames_deliverable valid bounded stream boot words fresh started loopReached counted frame
      (ring.subset member)
  intro envelope member
  rcases Session.sent_origin reached envelope member with greeted | ⟨frame, known, rfl⟩
  · obtain ⟨before, within, joins⟩ := serves.joined
    obtain ⟨done, greeting, events, greets, sent⟩ := serves.sent
    rw [sent] at member
    rcases List.mem_append.mp member with early | forwarded
    · obtain ⟨event, listed, stamped⟩ := Session.event_of_greeting greets early
      exact greeting_deliverable stream chain words fresh started loopReached counted within joins
        (events ▸ List.mem_append_left _ listed) stamped greeted
    · obtain ⟨frame, known, rfl⟩ := List.mem_map.mp forwarded
      exact published frame (List.mem_of_mem_take (List.mem_of_mem_filter known))
  · exact published frame known

end

/-- Under an accepted configuration a consumer that reads the socket in any chunks, up to any
offset, with a limit not below the server's, gets a beginning of what was sent, accepts it, and then
finds the end of the stream. -/
theorem stream_delivered (codec : Codec) {config : Config} (accepted : config.validate = .ok ())
    (bounded : config.stream.maxFrameBytes < 2 ^ 32) {options : Publisher.ServiceOptions} {env : Env}
    {generation : Generation} {start : Publisher} (stream : options.stream = config.stream)
    (boot : options.bootId.length ≤ 16) (chain : options.chainId < 2 ^ 64) (words : env.Words)
    (fresh : generation < 2 ^ 64)
    (started : Publisher.startService env options (WatchSet.compile generation config.watch) =
      some start) {session : Session} {handshake : Handshake}
    (reached : Session.Reaches (Allowed Env.Words (Wired config.stream)) start session)
    (joined : session.connection.handshake = some handshake)
    (counted : session.shared.sequence < 2 ^ 64)
    (inverts : ∀ envelope ∈ session.connection.sent, envelope.Ranged → codec.Inverts envelope) :
    ∃ frames, session.connection.sent.mapM (Wire.encodeFrame · config.stream.maxFrameBytes) =
        .ok frames ∧
      ∀ (reader : FrameReader) (offset : Nat), config.stream.maxFrameBytes ≤ reader.maxFrameBytes →
        reader.inner.remaining = (FrameReader.bytesOf codec frames).take offset →
        ∃ received ending, received <+: session.connection.sent ∧
          (ending = .ok none ∨ ending = .error .unexpectedEof) ∧
          ((FrameReader.bytesOf codec frames).length ≤ offset →
            received = session.connection.sent ∧ ending = .ok none) ∧
          FrameReader.results codec (received.length + 1) reader =
            received.map (fun envelope => .ok (some envelope)) ++ [ending] ∧
          (∃ phase, Dump.observeAll received = .ok phase) ∧
          ∃ consumer, Dump.Consumer.checkAll received = .ok consumer := by
  have valid := Config.valid_of_validate accepted
  have deliverable := sent_deliverable valid bounded stream boot chain words fresh started reached
    joined counted
  obtain ⟨phase, observed⟩ := Session.sent_observed started reached joined
  obtain ⟨⟨consumer, checked⟩, _⟩ := sent_passes valid stream started
    (Session.reaches_mono (fun _ _ _ admitted => ⟨trivial, admitted.2.1⟩) reached) joined
  obtain ⟨frames, encoded⟩ := mapM_encodeFrame fun envelope member =>
    (deliverable envelope member).encodes
  obtain ⟨payloads, sound⟩ := FrameReader.sound_of_encoded encoded fun envelope member =>
    inverts envelope member (deliverable envelope member).ranged
  refine ⟨frames, encoded, fun reader offset wider cut => ?_⟩
  obtain ⟨ending, kind, whole, results⟩ := FrameReader.results_cut sound wider cut
  have within : (FrameReader.complete codec offset frames).map Wire.Frame.payload <+:
      session.connection.sent := by
    rw [← payloads]
    exact (FrameReader.complete_initial frames offset).map _
  refine ⟨_, ending, within, kind, fun long => ⟨?_, whole long⟩, ?_,
    Acceptor.run_of_prefix _ observed within, Acceptor.run_of_prefix _ checked within⟩
  · rw [FrameReader.complete_all long, payloads]
  · rw [List.length_map, List.map_map]
    exact results

theorem Sample.forked_words : Sample.forkedEnv.Words := by
  constructor
  · rintro _ _ ⟨⟩
    have block : (Sample.block 1).Words := ⟨by decide, by decide⟩
    exact ⟨block, (by decide : 1 < 2 ^ 64), nofun, nofun⟩
  · intro _ _ _ read
    cases read

theorem Sample.words_started :
    Publisher.startService Sample.forkedEnv Sample.options
      (WatchSet.compile 1 Sample.watchSet.configured) = some Sample.start :=
  Publisher.startService_eq_some.mpr ⟨Sample.loaded 1, ⟨Sample.starts.config, Sample.starts.nonempty,
    rfl, Sample.starts.dictionary, Sample.starts.view, Sample.starts.frames⟩, rfl⟩

namespace Sample

def sentEnvelopes : List Wire.Envelope :=
  (handshake.events start.shared).map (start.shared.envelope forkedEnv 0 1) ++
    (handled (fallback 2 1) (.start start)).publisher.shared.frames.map PublishedFrame.envelope

def word (last : UInt8) : Bytes := List.replicate 31 0 ++ [last]

def sentBytes : List Bytes :=
  [[8, 2, 32, 1, 82, 45, 10, 5, 48, 46, 49, 46, 48, 16, 1, 26, 32] ++ word 0 ++ [32, 111],
    [8, 2, 32, 1, 90, 65, 10, 63, 18, 5, 118, 97, 108, 117, 101, 26, 20] ++ List.replicate 20 0 ++
      [34, 32] ++ word 0,
    [8, 2, 32, 1, 98, 146, 1, 10, 70, 8, 1, 18, 32] ++ word 1 ++ [26, 32] ++ word 0 ++ [18, 32] ++
      word 1 ++ [26, 38, 10, 36, 8, 1, 18, 32] ++ word 1,
    [8, 2, 24, 1, 32, 1, 40, 1, 106, 111, 8, 2, 18, 70, 8, 2, 18, 32] ++ word 2 ++ [26, 32] ++
      word 1 ++ [26, 32] ++ word 2 ++ [34, 1, 1]]

def sentCodec : Codec where
  encode envelope := ((sentEnvelopes.zip sentBytes).lookup envelope).getD []
  decode bytes := (sentBytes.zip sentEnvelopes).lookup bytes

theorem sentCodec_inverts : ∀ envelope ∈ sentEnvelopes, sentCodec.Inverts envelope := by
  have inverts : sentEnvelopes.all (fun envelope =>
      (sentCodec.encode envelope).length = envelope.encodedLen ∧
        sentCodec.decode (sentCodec.encode envelope) = some envelope) = true := by decide +kernel
  intro envelope member
  have both := of_decide_eq_true (List.all_eq_true.mp inverts envelope member)
  exact ⟨both.1, both.2⟩

theorem words_joins {allowed : Publisher → Env → Input → Prop}
    (admitted : allowed start forkedEnv (.event (fallback 2 1))) :
    ∃ session, Session.Reaches allowed start session ∧
      session.connection.handshake = some handshake ∧ session.shared.sequence < 2 ^ 64 ∧
      session.connection.sent = sentEnvelopes := by
  have published : Session.Step allowed (.start start) _ :=
    .publish ⟨forkedEnv, .event (fallback 2 1), admitted, rfl⟩
  have read := ((Relation.ReflTransGen.refl.tail published).tail (.subscribe rfl)).tail (.position rfl)
  have accepted := read.tail (@Session.Step.accept _ _ _ handshake rfl rfl)
  have greeted := ((accepted.tail (@Session.Step.greet _ _ forkedEnv _ _ _ _ rfl rfl)).tail
    (@Session.Step.greet _ _ forkedEnv _ _ _ _ rfl rfl)).tail
    (@Session.Step.greet _ _ forkedEnv _ _ _ _ rfl rfl)
  have exposed := (greeted.tail (.write rfl)).tail (.write rfl)
  exact ⟨_, exposed.tail (.forward rfl rfl (by decide +kernel)), rfl, by decide +kernel,
    by decide +kernel⟩

end Sample

theorem stream_delivered_sample :
    ∃ session, Session.Reaches (Allowed Env.Words (Wired .default)) Sample.start session ∧
      session.connection.sent = Sample.sentEnvelopes ∧ session.connection.sent.length = 4 ∧
      ∃ frames, session.connection.sent.mapM
          (Wire.encodeFrame · StreamConfig.default.maxFrameBytes) = .ok frames ∧
        ∀ reader : FrameReader, StreamConfig.default.maxFrameBytes ≤ reader.maxFrameBytes →
          reader.inner.remaining = FrameReader.bytesOf Sample.sentCodec frames →
          FrameReader.results Sample.sentCodec 5 reader =
            session.connection.sent.map (fun envelope => .ok (some envelope)) ++ [.ok none] := by
  have admitted : Allowed Env.Words (Wired .default) Sample.start Sample.forkedEnv
      (.event (Sample.fallback 2 1)) :=
    ⟨Sample.forked_words, ⟨trivial, nofun⟩, by decide, by decide⟩
  obtain ⟨session, reached, joined, counted, sent⟩ := Sample.words_joins admitted
  have length : session.connection.sent.length = 4 := by
    rw [sent]
    decide +kernel
  obtain ⟨frames, encoded, delivered⟩ := stream_delivered Sample.sentCodec
    (by decide : (Config.mk .default Sample.watchSet.configured).validate = .ok ()) (by decide) rfl
    (by decide) (by decide) Sample.forked_words (by decide) Sample.words_started reached joined
    counted fun envelope member _ => Sample.sentCodec_inverts envelope (sent ▸ member)
  refine ⟨session, reached, sent, length, frames, encoded, fun reader wider whole => ?_⟩
  obtain ⟨received, ending, _, _, complete, results, _⟩ := delivered reader
    (FrameReader.bytesOf Sample.sentCodec frames).length wider (by rw [List.take_length]; exact whole)
  obtain ⟨rfl, rfl⟩ := complete (Nat.le_refl _)
  rw [length] at results
  exact results

end Statefeed
