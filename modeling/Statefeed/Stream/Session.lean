import Statefeed.Stream.Refinement

set_option autoImplicit false

namespace Statefeed

open Publication

structure Shared.Grows (before after : Shared) : Prop where
  frames : before.frames <+: after.frames
  hello : after.hello = before.hello
  boot : after.bootId = before.bootId
  limit : after.maxFrameBytes = before.maxFrameBytes

theorem Shared.Grows.refl (shared : Shared) : shared.Grows shared :=
  ⟨List.prefix_refl _, rfl, rfl, rfl⟩

theorem Shared.Grows.trans {first second third : Shared} (left : first.Grows second)
    (right : second.Grows third) : first.Grows third :=
  ⟨left.frames.trans right.frames, right.hello.trans left.hello, right.boot.trans left.boot,
    right.limit.trans left.limit⟩

theorem Shared.grows_sent (env : Env) (generation : Generation) (event : Wire.Event)
    (nextState : Option (Projection × Option ForkchoiceMeta × Bool)) (shared : Shared) :
    shared.Grows (shared.sent env generation event nextState) :=
  ⟨List.prefix_append _ _, rfl, rfl, rfl⟩

namespace Machine

variable {world : Env → Prop} {offers : Publisher → Input → Prop}

theorem grows_step {state after : State} (step : Step world offers state after) :
    state.publisher.shared.Grows after.publisher.shared := by
  cases step with
  | validate | announce | retire | reject | head | fence | gap | retryGap | anchor =>
    exact Shared.grows_sent ..
  | retryBurns | burn => exact ⟨List.prefix_refl _, rfl, rfl, rfl⟩
  | activate => exact (Shared.grows_sent ..).trans (Shared.grows_sent ..)
  | _ => exact Shared.Grows.refl _

theorem grows_round {allowed : Publisher → Env → Input → Prop} {loop after : Loop}
    (round : Loop.Round allowed loop after) :
    loop.publisher.shared.Grows after.publisher.shared := by
  obtain ⟨env, input, _, taken⟩ := round
  have steps : Steps (fun _ => True) (fun _ _ => True) (.ofLoop loop) (.ofLoop after) :=
    round_steps ⟨env, input, ⟨trivial, trivial⟩, taken⟩
  change (State.ofLoop loop).publisher.shared.Grows (State.ofLoop after).publisher.shared
  generalize State.ofLoop after = final at steps ⊢
  induction steps with
  | refl => exact .refl _
  | tail _ step ih => exact ih.trans (grows_step step)

theorem grows_reaches {allowed : Publisher → Env → Input → Prop} {start : Publisher} {loop : Loop}
    (reached : Loop.Reaches allowed start loop) : start.shared.Grows loop.publisher.shared := by
  induction reached with
  | refl => exact .refl _
  | tail _ round ih => exact ih.trans (grows_round round)

end Machine

namespace Session

def forwarded (session : Session) (handshake : Handshake) : List Wire.Envelope :=
  ((session.memory.sent.take session.connection.received).filter
    (handshake.baseline < ·.sequence)).map PublishedFrame.envelope

/-- The envelopes carry the events of the handshake, stamped with its baseline and generation. -/
def Greets (bootId : Bytes) (handshake : Handshake) : List Wire.Envelope → List Wire.Event → Prop :=
  List.Forall₂ fun envelope event =>
    Monitor.Stamped bootId envelope handshake.baseline handshake.generation event

structure Joins (start : Publisher) (handshake : Handshake) (joined : List PublishedFrame) :
    Prop where
  baseline : position PublishedFrame.sequence start.shared.publishedSequence joined =
    handshake.baseline
  accepted : Handshake.accept handshake.baseline (publishedAfter start joined) = .ok handshake

structure Serves (start : Publisher) (session : Session) (handshake : Handshake)
    (rest : List Wire.Event) : Prop where
  joined : ∃ joined, joined <+: session.shared.frames ∧ Joins start handshake joined
  sent : ∃ done greeting, handshake.events session.shared = done ++ rest ∧
    Greets session.shared.bootId handshake greeting done ∧
    session.connection.sent = greeting ++ session.forwarded handshake
  quiet : rest ≠ [] → session.forwarded handshake = []

def Attached (start : Publisher) (session : Session) (written : List PublishedFrame) :
    ConnectionStage → Prop
  | .connecting | .subscribed =>
    session.connection.handshake = none ∧ session.connection.sent = []
  | .positioned committedSequence =>
    session.connection.handshake = none ∧ session.connection.sent = [] ∧
    ∃ counted, session.memory.sent.take session.connection.received <+: counted ∧
      counted <+: written ∧
      position PublishedFrame.sequence start.shared.publishedSequence counted = committedSequence
  | .serving handshake rest =>
    session.connection.handshake = some handshake ∧ Serves start session handshake rest
  | .closed => ∀ handshake, session.connection.handshake = some handshake →
    ∃ rest, Serves start session handshake rest

structure Exposes (start : Publisher) (session : Session) : Prop where
  received : session.connection.received ≤ session.memory.sent.length
  attached : ∃ written, Outstanding PublishedFrame.sequence PublishedFrame.stored
      (Session.start start).memory session.shared.frames written session.memory session.pending ∧
    Attached start session written session.connection.stage

variable {start : Publisher} {session : Session} {handshake : Handshake} {rest : List Wire.Event}
  {written further : List PublishedFrame} {stage : ConnectionStage}

theorem Attached.mono {after : Session} (attached : Attached start session written stage)
    (connection : after.connection = session.connection)
    (received : after.memory.sent.take session.connection.received =
      session.memory.sent.take session.connection.received)
    (grows : session.shared.Grows after.shared) (more : written <+: further) :
    Attached start after further stage := by
  have same (handshake : Handshake) : after.forwarded handshake = session.forwarded handshake := by
    simp [forwarded, connection, received]
  have serves {handshake : Handshake} {rest : List Wire.Event}
      (serves : Serves start session handshake rest) : Serves start after handshake rest := by
    obtain ⟨⟨joined, within, joins⟩, ⟨done, greeting, events, greets, sent⟩, quiet⟩ := serves
    refine ⟨⟨joined, within.trans grows.frames, joins⟩, ⟨done, greeting, ?_, ?_, ?_⟩, ?_⟩
    · rw [← events]
      simp [Handshake.events, grows.hello]
    · rw [grows.boot]
      exact greets
    · rw [connection, same]
      exact sent
    · rw [same]
      exact quiet
  cases stage with
  | connecting | subscribed =>
    simp only [Attached, connection] at attached ⊢
    exact attached
  | positioned committedSequence =>
    obtain ⟨none, sent, counted, earlier, within, position⟩ := attached
    simp only [Attached, connection, received]
    exact ⟨none, sent, counted, earlier, within.trans more, position⟩
  | serving =>
    simp only [Attached, connection] at attached ⊢
    exact ⟨attached.1, serves attached.2⟩
  | closed =>
    simp only [Attached, connection] at attached ⊢
    intro handshake known
    obtain ⟨rest, given⟩ := attached handshake known
    exact ⟨rest, serves given⟩

structure Accepted (committedSequence : Nat) (published : PublishedState) (handshake : Handshake) :
    Prop where
  settled : published.recovering = false
  view : published.forkchoice = some handshake.forkchoice
  canonical : published.canonical = handshake.canonical
  baseline : handshake.baseline = max committedSequence published.effectiveSequence
  again : Handshake.accept handshake.baseline published = .ok handshake

theorem accepted_of_accept {committedSequence : Nat} {published : PublishedState}
    (accepted : Handshake.accept committedSequence published = .ok handshake) :
    Accepted committedSequence published handshake := by
  unfold Handshake.accept at accepted
  split at accepted
  · cases accepted
  split at accepted
  · cases accepted
  split at accepted
  · cases accepted
  · cases accepted
    constructor <;> simp_all [Handshake.accept]

theorem serves_accept {bootId : Bytes} {monitor : Monitor} {committedSequence : Nat}
    (coherent : (Monitor.initial start).Coherent)
    (stream : Monitor.Stream bootId (Monitor.initial start) session.shared.frames monitor)
    (outstanding : Outstanding PublishedFrame.sequence PublishedFrame.stored
      (Session.start start).memory session.shared.frames written session.memory session.pending)
    (attached : Attached start session written (.positioned committedSequence))
    (accepted : Handshake.accept committedSequence session.memory.state = .ok handshake) :
    Serves start session handshake (handshake.events session.shared) := by
  obtain ⟨_, unsent, counted, earlier, within, rfl⟩ := attached
  have ordered := Monitor.ordered_stream coherent stream
  have writtenOrdered := ordered.of_prefix outstanding.within
  obtain ⟨joined, after, before, state, baseline⟩ := writtenOrdered.join within
  obtain ⟨_, _, _, largest, again⟩ := accepted_of_accept accepted
  rw [outstanding.state] at largest again
  have joinedBaseline : position PublishedFrame.sequence start.shared.publishedSequence joined =
      handshake.baseline := baseline.trans largest.symm
  have quiet : session.forwarded handshake = [] := by
    -- Everything received so far precedes the join, so its sequence is at most the baseline.
    simp only [forwarded, List.map_eq_nil_iff, List.filter_eq_nil_iff, decide_eq_true_eq, not_lt]
    intro frame member
    have least := (ordered.of_prefix (before.trans outstanding.within)).stamp_le
      ((earlier.trans after).subset member)
    exact least.trans joinedBaseline.le
  refine ⟨⟨joined, before.trans outstanding.within, joinedBaseline, ?_⟩, ⟨[], [], ?_⟩, fun _ => quiet⟩
  · rw [show publishedAfter start joined = _ from state]
    exact again
  · exact ⟨rfl, .nil, by rw [unsent, quiet]; rfl⟩

theorem forwarded_next {frame : PublishedFrame}
    (next : session.memory.sent[session.connection.received]? = some frame)
    (connection : Connection)
    (received : connection.received = session.connection.received + 1) :
    (session.connect connection).forwarded handshake =
      session.forwarded handshake ++
        if handshake.baseline < frame.sequence then [frame.envelope] else [] := by
  have longer : session.memory.sent.take (session.connection.received + 1) =
      session.memory.sent.take session.connection.received ++ [frame] := by
    rw [List.take_add_one, next]
    rfl
  unfold forwarded connect
  simp only [received, longer, List.filter_append, List.map_append]
  by_cases later : handshake.baseline < frame.sequence <;> simp [later]

theorem Serves.connected (serves : Serves start session handshake rest) (connection : Connection)
    (received : connection.received = session.connection.received)
    (sent : connection.sent = session.connection.sent) :
    Serves start (session.connect connection) handshake rest := by
  have same : (session.connect connection).forwarded handshake = session.forwarded handshake := by
    simp [forwarded, connect, received]
  obtain ⟨joined, ⟨done, greeting, events, greets, whole⟩, quiet⟩ := serves
  refine ⟨joined, ⟨done, greeting, events, greets, ?_⟩, ?_⟩
  · rw [same]
    exact sent.trans whole
  · rw [same]
    exact quiet

theorem Serves.greet {env : Env} {event : Wire.Event} {frame : Wire.Frame}
    (serves : Serves start session handshake (event :: rest))
    (encodes : Wire.encodeFrame (session.shared.envelope env handshake.baseline
      handshake.generation event) session.shared.maxFrameBytes = .ok frame)
    (connection : Connection) (received : connection.received = session.connection.received)
    (sent : connection.sent = session.connection.sent ++ [frame.payload]) :
    Serves start (session.connect connection) handshake rest := by
  have none : session.forwarded handshake = [] := serves.quiet (by simp)
  have same : (session.connect connection).forwarded handshake = [] := by
    simpa [forwarded, connect, received] using none
  obtain ⟨joined, ⟨done, greeting, events, greets, whole⟩, _⟩ := serves
  have payload := Wire.encodeFrame_payload encodes
  have stamped : Monitor.Stamped session.shared.bootId frame.payload handshake.baseline
      handshake.generation event := by
    rw [payload]
    exact ⟨rfl, rfl, rfl, rfl, rfl⟩
  refine ⟨joined, ⟨done ++ [event], greeting ++ [frame.payload], ?_, ?_, ?_⟩, fun _ => same⟩
  · exact events.trans (by simp)
  · exact List.rel_append greets (.cons stamped .nil)
  · rw [same, List.append_nil]
    rw [none, List.append_nil] at whole
    exact sent.trans (by rw [whole])

theorem Serves.receive {frame : PublishedFrame} (serves : Serves start session handshake [])
    (next : session.memory.sent[session.connection.received]? = some frame)
    (connection : Connection) (received : connection.received = session.connection.received + 1)
    (sent : connection.sent = session.connection.sent ++
      if handshake.baseline < frame.sequence then [frame.envelope] else []) :
    Serves start (session.connect connection) handshake [] := by
  obtain ⟨joined, ⟨done, greeting, events, greets, whole⟩, _⟩ := serves
  refine ⟨joined, ⟨done, greeting, events, greets, ?_⟩, by simp⟩
  rw [forwarded_next next connection received, ← List.append_assoc, ← whole]
  exact sent

theorem Attached.closed (attached : Attached start session written stage)
    (connection : Connection) (known : connection.handshake = session.connection.handshake)
    (received : connection.received = session.connection.received)
    (sent : connection.sent = session.connection.sent) :
    Attached start (session.connect connection) written .closed := by
  intro handshake joined
  have current : session.connection.handshake = some handshake := known.symm.trans joined
  have given : ∃ rest, Serves start session handshake rest := by
    cases stage with
    | connecting | subscribed | positioned =>
      have unknown := attached.1
      rw [current] at unknown
      cases unknown
    | serving other rest =>
      have same := attached.1
      rw [current] at same
      cases same
      exact ⟨rest, attached.2⟩
    | closed => exact attached handshake current
  obtain ⟨rest, serves⟩ := given
  exact ⟨rest, serves.connected _ received sent⟩

variable {allowed : Publisher → Env → Input → Prop} {env : Env}
  {options : Publisher.ServiceOptions} {watchSet : WatchSet}

theorem exposes_step (started : Publisher.startService env options watchSet = some start)
    {after : Session} (reached : Loop.Reaches allowed start session.loop)
    (exposes : Exposes start session) (step : Step allowed session after) :
    Exposes start after := by
  obtain ⟨bound, written, outstanding, attached⟩ := exposes
  cases step with
  | @publish loop round =>
    -- A round only appends frames; their writes join those that are still to be made.
    have grows : session.shared.Grows loop.publisher.shared := Machine.grows_round round
    obtain ⟨more, whole⟩ := grows.frames
    have pending : loop.publisher.shared.frames.drop session.shared.frames.length = more := by
      simp [← whole]
    refine ⟨bound, written, ?_, attached.mono rfl rfl grows (List.prefix_refl _)⟩
    have appended : Outstanding _ _ _ (session.shared.frames ++ more) _ _ _ := outstanding.append
    rw [whole] at appended
    simp only [enqueue, pending]
    exact appended
  | @write write rest next =>
    rw [next] at outstanding
    obtain ⟨further, longer, outstanding⟩ := outstanding.write
    have sent : ∃ extra, (session.memory.apply write).sent = session.memory.sent ++ extra := by
      cases write with
      | entry frame => exact ⟨[frame], rfl⟩
      | state | position => exact ⟨[], by simp [Register.apply]⟩
    obtain ⟨extra, sent⟩ := sent
    refine ⟨?_, further, outstanding, attached.mono rfl ?_ (Shared.Grows.refl _) longer⟩
    · rw [sent, List.length_append]
      exact Nat.le_add_right_of_le bound
    · rw [sent]
      exact List.take_append_of_le_length bound
  | subscribe connecting =>
    rw [connecting] at attached
    exact ⟨Nat.le_refl _, written, outstanding, attached⟩
  | position subscribed =>
    rw [subscribed] at attached
    -- The position is read after the subscription, so it covers all that the ring had then.
    obtain ⟨counted, earlier, within, position⟩ := outstanding.counted
    exact ⟨bound, written, outstanding, attached.1, attached.2, counted,
      (List.take_prefix _ _).trans earlier, within, position.symm⟩
  | accept positioned accepted =>
    rw [positioned] at attached
    obtain ⟨_, stream, _⟩ := Machine.streaming_reaches started reached
    have serves := serves_accept (Monitor.coherent_initial started) stream outstanding attached
      accepted
    exact ⟨bound, written, outstanding, rfl, serves.connected _ rfl rfl⟩
  | greet serving encodes =>
    rw [serving] at attached
    exact ⟨bound, written, outstanding, attached.1, attached.2.greet encodes _ rfl rfl⟩
  | forward serving next later =>
    rw [serving] at attached
    have inside := (List.getElem?_eq_some_iff.mp next).1
    refine ⟨inside, written, outstanding, ?_⟩
    change Attached start _ written session.connection.stage
    rw [serving]
    exact ⟨attached.1, attached.2.receive next _ rfl (by simp [later])⟩
  | skip serving next earlier =>
    rw [serving] at attached
    have inside := (List.getElem?_eq_some_iff.mp next).1
    refine ⟨inside, written, outstanding, ?_⟩
    change Attached start _ written session.connection.stage
    rw [serving]
    exact ⟨attached.1, attached.2.receive next _ rfl (by simp [earlier])⟩
  | signal =>
    exact ⟨bound, written, outstanding,
      attached.mono rfl rfl (Shared.Grows.refl _) (List.prefix_refl _)⟩
  | close | abort => exact ⟨bound, written, outstanding, attached.closed _ rfl rfl rfl⟩

theorem exposes_reaches (started : Publisher.startService env options watchSet = some start)
    (reached : Reaches allowed start session) :
    Loop.Reaches allowed start session.loop ∧ Exposes start session := by
  induction reached with
  | refl =>
    obtain ⟨_, _, rfl⟩ := Publisher.startService_eq_some.mp started
    exact ⟨.refl, Nat.le_refl _, [], .start _ rfl, rfl, rfl⟩
  | tail _ step ih =>
    obtain ⟨loopReached, exposes⟩ := ih
    refine ⟨?_, exposes_step started loopReached exposes step⟩
    cases step with
    | publish round => exact loopReached.tail round
    | _ => exact loopReached

theorem Exposes.taken (exposes : Exposes start session) :
    session.memory.sent.take session.connection.received =
      session.shared.frames.take session.connection.received := by
  obtain ⟨bound, written, outstanding, _⟩ := exposes
  obtain ⟨counted, earlier, within, _⟩ := outstanding.counted
  obtain ⟨rest, whole⟩ := (earlier.trans within).trans outstanding.within
  rw [← whole, List.take_append_of_le_length bound]

theorem serves_reaches (started : Publisher.startService env options watchSet = some start)
    (reached : Reaches allowed start session)
    (accepted : session.connection.handshake = some handshake) :
    ∃ rest, Serves start session handshake rest := by
  obtain ⟨_, _, written, _, attached⟩ := exposes_reaches started reached
  have closed := attached.closed { session.connection with stage := .closed } rfl rfl rfl
  obtain ⟨rest, serves⟩ := closed handshake accepted
  exact ⟨rest, serves.connected session.connection rfl rfl⟩

end Session

end Statefeed
