import Statefeed.Model.Dump
import Statefeed.Stream.Joining

set_option autoImplicit false

namespace Statefeed

open Publication Dump

namespace Monitor

variable {bootId : Bytes} {monitor after : Monitor} {frame : PublishedFrame} {required : Bool}

def Due (monitor : Monitor) (required : Bool) : Prop :=
  required = true → monitor.stage = .configured ∨ monitor.stage = .gapped

theorem Due.idle (due : monitor.Due required)
    (ready : monitor.stage = .live ∨ monitor.stage = .headed) : required = false := by
  by_contra other
  have stage := due (by simpa using other)
  rcases ready with live | headed <;> simp_all

theorem observe_emits (emitted : Emits bootId monitor frame after) (due : monitor.Due required) :
    ∃ next, observeEnvelope (.live monitor.last required) frame.envelope =
        .ok (.live after.last next) ∧ after.Due next := by
  cases emitted with
  | @plain event live kind stamped =>
    cases due.idle (.inl live)
    refine ⟨false, ?_, by simp [Due]⟩
    cases event with
    | blockState | blockValidated | blockRejected | candidatesRetired =>
      simp [observeEnvelope, stamped.event, stamped.sequence, observe, observeLive, isHello,
        isConfigActivated]
    | _ => exact kind.elim
  | headed live _ _ stamped =>
    cases due.idle (.inl live)
    refine ⟨false, ?_, by simp [Due]⟩
    simp [observeEnvelope, stamped.event, stamped.sequence, observe, observeLive, isHello,
      isConfigActivated]
  | fenced ready _ stamped =>
    cases due.idle ready
    refine ⟨false, ?_, by simp [Due]⟩
    simp [observeEnvelope, stamped.event, stamped.sequence, observe, observeLive, isHello,
      isConfigActivated]
  | configured live _ _ stamped =>
    cases due.idle (.inl live)
    refine ⟨true, ?_, fun _ => .inl rfl⟩
    simp [observeEnvelope, stamped.event, stamped.sequence, observe, observeLive, isHello,
      isConfigActivated]
  | introduced _ _ stamped | anchored _ _ _ stamped =>
    refine ⟨false, ?_, by simp [Due]⟩
    cases required <;>
      simp [observeEnvelope, stamped.event, stamped.sequence, observe, observeLive, isHello,
        isConfigActivated, isSnapshot]
  | gapped ready later stamped =>
    cases due.idle ready
    refine ⟨true, ?_, fun _ => .inr rfl⟩
    simp [observeEnvelope, stamped.event, stamped.sequence, observe, observeLive, isHello, later]

theorem gap_emits {gap : Wire.Gap} (emitted : Emits bootId monitor frame after)
    (read : frame.envelope.event = some (.gap gap)) :
    gap.lastContiguousSequence = monitor.last := by
  cases emitted with
  | plain _ kind stamped =>
    cases stamped.same read
    exact kind.elim
  | gapped _ _ stamped =>
    cases stamped.same read
    rfl
  | headed _ _ _ stamped | fenced _ _ stamped | configured _ _ _ stamped
  | introduced _ _ stamped | anchored _ _ _ stamped => cases stamped.same read

theorem not_hello_emits {hello : Wire.Hello} (emitted : Emits bootId monitor frame after) :
    frame.envelope.event ≠ some (.hello hello) := by
  intro read
  cases emitted with
  | plain _ kind stamped =>
    cases stamped.same read
    exact kind.elim
  | headed _ _ _ stamped | fenced _ _ stamped | configured _ _ _ stamped
  | introduced _ _ stamped | gapped _ _ stamped | anchored _ _ _ stamped =>
    cases stamped.same read

end Monitor

theorem observe_hello {envelope : Wire.Envelope} {next : StreamPhase}
    (taken : observeEnvelope .hello envelope = .ok next) :
    ∃ greeting, envelope.event = some (.hello greeting) := by
  unfold observeEnvelope at taken
  split at taken
  · cases taken
  next event read =>
  cases event with
  | hello greeting => exact ⟨greeting, read⟩
  | _ => cases taken

theorem sequence_of_validate {sequence baseline : Nat} {generation expected : Generation}
    (accepted : validateHandshakePosition sequence generation baseline expected = .ok ()) :
    sequence = baseline := by
  unfold validateHandshakePosition at accepted
  split at accepted
  · cases accepted
  · next same => exact not_not.mp same

theorem observe_greeting {baseline : Nat} {generation : Generation} {envelope : Wire.Envelope}
    {next : StreamPhase}
    (taken : observeEnvelope (.config baseline generation) envelope = .ok next ∨
      observeEnvelope (.initialSnapshot baseline generation) envelope = .ok next) :
    envelope.sequence = baseline := by
  unfold observeEnvelope at taken
  cases read : envelope.event with
  | none => simp [read] at taken
  | some event =>
    simp only [read] at taken
    cases checked : validateHandshakePosition envelope.sequence envelope.configGeneration baseline
        generation with
    | ok => exact sequence_of_validate checked
    | error => cases event <;> simp [observe, checked, bind, Except.bind] at taken

theorem observe_live {lastSequence : Nat} {required : Bool} {envelope : Wire.Envelope}
    {next : StreamPhase} (taken : observeEnvelope (.live lastSequence required) envelope = .ok next) :
    envelope.sequence = lastSequence + 1 ∨ lastSequence < envelope.sequence ∧
      ∃ gap, envelope.event = some (.gap gap) ∧ gap.lastContiguousSequence = lastSequence := by
  unfold observeEnvelope at taken
  split at taken
  · cases taken
  next event read =>
  simp only [observe, observeLive] at taken
  split at taken
  · cases taken
  split at taken
  · split at taken
    · cases taken
    split at taken
    · cases taken
    · next same => exact .inl (not_not.mp same)
  split at taken
  · split at taken
    · cases taken
    split at taken
    · cases taken
    · next contiguous later =>
      exact .inr ⟨not_not.mp later, _, read, not_not.mp contiguous⟩
  · split at taken
    · cases taken
    · next same => exact .inl (not_not.mp same)

section

variable {bootId : Bytes} {shared : Shared} {handshake : Handshake} {origin final monitor : Monitor}
  {more left : List PublishedFrame} {hello config shown : Wire.Envelope}

def Expects (bootId : Bytes) (handshake : Handshake) (origin final : Monitor)
    (more : List PublishedFrame) (hello config shown : Wire.Envelope) (phase : StreamPhase)
    (rest : List Wire.Envelope) : Prop :=
  match phase with
  | .hello => rest = hello :: config :: shown :: more.map PublishedFrame.envelope
  | .config baseline generation => baseline = handshake.baseline ∧
      generation = handshake.generation ∧ rest = config :: shown :: more.map PublishedFrame.envelope
  | .initialSnapshot baseline generation => baseline = handshake.baseline ∧
      generation = handshake.generation ∧ rest = shown :: more.map PublishedFrame.envelope
  | .live lastSequence required => ∃ done left monitor, more = done ++ left ∧
      Monitor.Stream bootId origin done monitor ∧ Monitor.Stream bootId monitor left final ∧
      lastSequence = monitor.last ∧ monitor.Due required ∧ rest = left.map PublishedFrame.envelope

theorem greets_events
    (greets : Session.Greets bootId handshake [hello, config, shown] (handshake.events shared)) :
    Monitor.Stamped bootId hello handshake.baseline handshake.generation (.hello shared.hello) ∧
    Monitor.Stamped bootId config handshake.baseline handshake.generation
      (.configActivated (configActivated handshake.canonical.watchSet)) ∧
    Monitor.Stamped bootId shown handshake.baseline handshake.generation
      (.snapshot (snapshot handshake.canonical handshake.forkchoice)) := by
  simpa [Session.Greets, Handshake.events] using greets

theorem expects_next
    (greets : Session.Greets bootId handshake [hello, config, shown] (handshake.events shared))
    (stream : Monitor.Stream bootId origin more final) (joined : origin.last = handshake.baseline)
    {phase : StreamPhase} {envelope : Wire.Envelope} {rest : List Wire.Envelope}
    (expects : Expects bootId handshake origin final more hello config shown phase
      (envelope :: rest)) :
    ∃ next, observeEnvelope phase envelope = .ok next ∧
      Expects bootId handshake origin final more hello config shown next rest := by
  obtain ⟨helloStamped, configStamped, shownStamped⟩ := greets_events greets
  cases phase with
  | hello =>
    obtain ⟨rfl, rfl⟩ := List.cons.inj expects
    refine ⟨.config envelope.sequence envelope.configGeneration, ?_, helloStamped.sequence,
      helloStamped.generation, rfl⟩
    simp [observeEnvelope, helloStamped.event, observe]
  | config =>
    obtain ⟨rfl, rfl, whole⟩ := expects
    obtain ⟨rfl, rfl⟩ := List.cons.inj whole
    refine ⟨.initialSnapshot handshake.baseline handshake.generation, ?_, rfl, rfl, rfl⟩
    simp [observeEnvelope, configStamped.event, configStamped.sequence, configStamped.generation,
      observe, validateHandshakePosition, bind, Except.bind]
  | initialSnapshot =>
    obtain ⟨rfl, rfl, whole⟩ := expects
    obtain ⟨rfl, rfl⟩ := List.cons.inj whole
    refine ⟨.live handshake.baseline false, ?_, [], more, origin, rfl, .nil, stream, joined.symm,
      by simp [Monitor.Due], rfl⟩
    simp [observeEnvelope, shownStamped.event, shownStamped.sequence, shownStamped.generation,
      observe, validateHandshakePosition, bind, Except.bind]
  | live lastSequence required =>
    obtain ⟨done, left, monitor, rfl, earlier, later, rfl, due, whole⟩ := expects
    cases left with
    | nil => simp at whole
    | cons frame left =>
      obtain ⟨rfl, rfl⟩ := List.cons.inj whole
      obtain ⟨middle, emitted, later⟩ := later.cons_inv
      obtain ⟨next, taken, dueNext⟩ := Monitor.observe_emits emitted due
      exact ⟨_, taken, done ++ [frame], left, middle, by simp, earlier.concat emitted, later, rfl,
        dueNext, rfl⟩

theorem next_of_observe {frame : PublishedFrame} {required : Bool} {next : StreamPhase}
    (coherent : monitor.Coherent) (later : Monitor.Stream bootId monitor left final)
    (member : frame ∈ left)
    (taken : observeEnvelope (.live monitor.last required) frame.envelope = .ok next) :
    ∃ rest, left = frame :: rest := by
  cases left with
  | nil => simp at member
  | cons first left =>
    rcases List.mem_cons.mp member with rfl | member
    · exact ⟨left, rfl⟩
    -- A later frame is too far ahead, and the gaps among them start later.
    obtain ⟨middle, emitted, later⟩ := later.cons_inv
    have advances := Monitor.advances_emits emitted
    have coherentMiddle := Monitor.coherent_emits coherent emitted
    obtain ⟨before, after, rfl⟩ := List.append_of_mem member
    obtain ⟨source, _, earlier, emittedFrame⟩ := later.each before frame after rfl
    have ordered := Monitor.ordered_stream coherentMiddle earlier
    have sourceLast := ordered.position_le List.nil_prefix
    have farther := (Monitor.advances_emits emittedFrame).later
    rw [Monitor.position_stream earlier] at sourceLast
    have start : middle.last ≤ source.last := sourceLast
    have firstLater := advances.later
    have middleLast := advances.last
    exfalso
    rcases observe_live taken with adjacent | ⟨_, gap, read, contiguous⟩
    · have sequence : frame.sequence = monitor.last + 1 := adjacent
      omega
    · have reported := Monitor.gap_emits emittedFrame read
      omega

theorem expects_only
    (greets : Session.Greets bootId handshake [hello, config, shown] (handshake.events shared))
    (coherent : origin.Coherent) (stream : Monitor.Stream bootId origin more final)
    (joined : origin.last = handshake.baseline) {phase next : StreamPhase}
    {envelope : Wire.Envelope} {rest : List Wire.Envelope}
    (expects : Expects bootId handshake origin final more hello config shown phase rest)
    (offered : envelope ∈ hello :: config :: shown :: more.map PublishedFrame.envelope)
    (taken : observeEnvelope phase envelope = .ok next) : ∃ more, rest = envelope :: more := by
  obtain ⟨helloStamped, configStamped, shownStamped⟩ := greets_events greets
  -- A live frame has a sequence past the baseline, and never carries a greeting.
  have live : ∀ frame ∈ more, handshake.baseline < frame.sequence ∧
      ∀ greeting, frame.envelope.event ≠ some (.hello greeting) := by
    intro frame member
    obtain ⟨before, after, rfl⟩ := List.append_of_mem member
    obtain ⟨source, _, earlier, emitted⟩ := stream.each before frame after rfl
    have ordered := Monitor.ordered_stream coherent earlier
    have sourceLast := ordered.position_le List.nil_prefix
    rw [Monitor.position_stream earlier] at sourceLast
    have start : origin.last ≤ source.last := sourceLast
    have farther := (Monitor.advances_emits emitted).later
    exact ⟨by omega, fun greeting => Monitor.not_hello_emits emitted⟩
  simp only [List.mem_cons, List.mem_map] at offered
  cases phase with
  | hello =>
    rcases offered with rfl | rfl | rfl | ⟨frame, member, rfl⟩
    · exact ⟨_, expects⟩
    · simp [observeEnvelope, configStamped.event, observe] at taken
    · simp [observeEnvelope, shownStamped.event, observe] at taken
    · obtain ⟨greeting, read⟩ := observe_hello taken
      exact absurd read ((live frame member).2 greeting)
  | config =>
    obtain ⟨rfl, rfl, rfl⟩ := expects
    rcases offered with rfl | rfl | rfl | ⟨frame, member, rfl⟩
    · simp [observeEnvelope, helloStamped.event, observe] at taken
    · exact ⟨_, rfl⟩
    · simp [observeEnvelope, shownStamped.event, observe] at taken
    · have past := (live frame member).1
      exact absurd (observe_greeting (.inl taken)) past.ne'
  | initialSnapshot =>
    obtain ⟨rfl, rfl, rfl⟩ := expects
    rcases offered with rfl | rfl | rfl | ⟨frame, member, rfl⟩
    · simp [observeEnvelope, helloStamped.event, observe] at taken
    · simp [observeEnvelope, configStamped.event, observe] at taken
    · exact ⟨_, rfl⟩
    · have past := (live frame member).1
      exact absurd (observe_greeting (.inr taken)) past.ne'
  | live lastSequence required =>
    obtain ⟨done, left, monitor, rfl, earlier, later, rfl, due, rfl⟩ := expects
    have ordered := Monitor.ordered_stream coherent earlier
    -- Everything sent so far has a sequence at most the last one, so only the next frame fits.
    have past : monitor.last < envelope.sequence := by
      rcases observe_live taken with adjacent | ⟨farther, _⟩ <;> omega
    have start : origin.last ≤ monitor.last := by
      have bound := ordered.position_le List.nil_prefix
      rwa [Monitor.position_stream earlier] at bound
    rcases offered with rfl | rfl | rfl | ⟨frame, member, rfl⟩
    · rw [helloStamped.sequence] at past
      omega
    · rw [configStamped.sequence] at past
      omega
    · rw [shownStamped.sequence] at past
      omega
    rcases List.mem_append.mp member with member | member
    · have bound := ordered.stamp_le member
      rw [Monitor.position_stream earlier] at bound
      exact absurd past (Nat.not_lt.mpr bound)
    · obtain ⟨rest, rfl⟩ := next_of_observe (Monitor.coherent_stream coherent earlier) later member taken
      exact ⟨_, rfl⟩

theorem greets_complete {greeting : List Wire.Envelope} {done : List Wire.Event}
    (greets : Session.Greets bootId handshake greeting done) (rest : List Wire.Event) :
    ∃ unsent, unsent.length = rest.length ∧
      Session.Greets bootId handshake (greeting ++ unsent) (done ++ rest) := by
  have unsent : ∃ unsent, Session.Greets bootId handshake unsent rest := by
    induction rest with
    | nil => exact ⟨[], .nil⟩
    | cons event rest ih =>
      obtain ⟨unsent, greets⟩ := ih
      have stamped : Monitor.Stamped bootId
          ⟨Wire.protocolVersion, bootId, handshake.baseline, handshake.generation, 0, some event⟩
          handshake.baseline handshake.generation event := ⟨rfl, rfl, rfl, rfl, rfl⟩
      exact ⟨_ :: unsent, .cons stamped greets⟩
  obtain ⟨unsent, more⟩ := unsent
  exact ⟨unsent, more.length_eq, List.rel_append greets more⟩

end

/-- What the server puts on a connection after the handshake: the frames past its baseline. -/
def Session.live (session : Session) (handshake : Handshake) : List Wire.Envelope :=
  (session.shared.frames.filter (handshake.baseline < ·.sequence)).map PublishedFrame.envelope

theorem Session.live_of_joins {bootId : Bytes} {start : Publisher} {session : Session}
    {handshake : Handshake} {joined more : List PublishedFrame} {monitor : Monitor}
    (coherent : (Monitor.initial start).Coherent)
    (stream : Monitor.Stream bootId (Monitor.initial start) session.shared.frames monitor)
    (joins : Session.Joins start handshake joined) (whole : joined ++ more = session.shared.frames) :
    session.live handshake = more.map PublishedFrame.envelope := by
  have ordered := Monitor.ordered_stream coherent stream
  rw [← whole] at ordered
  rw [Session.live, ← whole, ← joins.baseline]
  exact congrArg _ ordered.filter_past

theorem sent_prefix {start : Publisher} {session : Session} {handshake : Handshake}
    {rest : List Wire.Event} (exposes : Session.Exposes start session)
    (serves : Session.Serves start session handshake rest) :
    ∃ hello config shown,
      Session.Greets session.shared.bootId handshake [hello, config, shown]
        (handshake.events session.shared) ∧
      session.connection.sent <+: hello :: config :: shown :: session.live handshake := by
  obtain ⟨_, ⟨done, greeting, events, greets, sent⟩, quiet⟩ := serves
  obtain ⟨unsent, sameLength, greets⟩ := greets_complete greets rest
  rw [← events] at greets
  have forwarded : session.forwarded handshake <+: session.live handshake := by
    unfold Session.forwarded Session.live
    rw [exposes.taken]
    exact ((List.take_prefix _ _).filter _).map _
  have whole : session.connection.sent <+: (greeting ++ unsent) ++ session.live handshake := by
    rw [sent]
    cases rest with
    | nil =>
      rw [List.eq_nil_of_length_eq_zero sameLength, List.append_nil]
      exact (List.prefix_append_right_inj _).mpr forwarded
    | cons event rest =>
      rw [quiet (by simp), List.append_nil, List.append_assoc]
      exact List.prefix_append _ _
  generalize greeting ++ unsent = full at greets whole
  have three := greets.length_eq
  match full, three with
  | [hello, config, shown], _ => exact ⟨hello, config, shown, greets, whole⟩

/-- The cursor accepts a sequence of frames drawn from a connection exactly if it is a beginning
of what the server publishes to it. -/
theorem cursor_accepts_iff_prefix {allowed : Publisher → Env → Input → Prop} {env : Env}
    {options : Publisher.ServiceOptions} {watchSet : WatchSet} {start : Publisher}
    {session : Session} {handshake : Handshake}
    (started : Publisher.startService env options watchSet = some start)
    (reached : Session.Reaches allowed start session)
    (accepted : session.connection.handshake = some handshake) :
    ∃ hello config shown,
      Session.Greets options.bootId handshake [hello, config, shown]
        (handshake.events start.shared) ∧
      session.connection.sent <+: hello :: config :: shown :: session.live handshake ∧
      (∃ phase, observeAll session.connection.sent = .ok phase) ∧
      ∀ delivered,
        (∀ envelope ∈ delivered, envelope ∈ hello :: config :: shown :: session.live handshake) →
        ((∃ phase, observeAll delivered = .ok phase) ↔
          delivered <+: hello :: config :: shown :: session.live handshake) := by
  have coherent := Monitor.coherent_initial started
  obtain ⟨loopReached, exposes⟩ := Session.exposes_reaches started reached
  obtain ⟨monitor, stream, tracks⟩ := Machine.streaming_reaches started loopReached
  change Monitor.Stream options.bootId _ session.shared.frames monitor at stream
  obtain ⟨pending, serves⟩ := Session.serves_reaches started reached accepted
  obtain ⟨hello, config, shown, greets, sent⟩ := sent_prefix exposes serves
  obtain ⟨joined, ⟨more, whole⟩, joins⟩ := serves.joined
  have live := Session.live_of_joins coherent stream joins whole
  rw [← whole] at stream
  obtain ⟨origin, earlier, later⟩ := stream.split
  have originLast : origin.last = handshake.baseline :=
    (Monitor.position_stream earlier).symm.trans joins.baseline
  -- The cursor starts where the handshake joined, so the stream is split there.
  have originCoherent := Monitor.coherent_stream coherent earlier
  have accepts : ∀ delivered,
      (∀ envelope ∈ delivered, envelope ∈ hello :: config :: shown :: session.live handshake) →
      ((∃ phase, observeAll delivered = .ok phase) ↔
        delivered <+: hello :: config :: shown :: session.live handshake) := by
    intro delivered drawn
    rw [live] at drawn ⊢
    have first : Expects options.bootId handshake origin monitor more hello config shown .hello
        (hello :: config :: shown :: more.map PublishedFrame.envelope) := rfl
    exact Acceptor.run_iff_prefix observeEnvelope
      (Expects options.bootId handshake origin monitor more hello config shown)
      (· ∈ hello :: config :: shown :: more.map PublishedFrame.envelope)
      (fun _ _ _ expects => expects_next (tracks.boot ▸ greets) later originLast expects)
      (fun _ _ _ _ expects offered taken =>
        expects_only (tracks.boot ▸ greets) originCoherent later originLast expects offered taken)
      first drawn
  have sameEvents : handshake.events session.shared = handshake.events start.shared := by
    simp [Handshake.events, Session.shared, (Machine.grows_reaches loopReached).hello]
  refine ⟨hello, config, shown, ?_, sent, ?_, accepts⟩
  · rw [← sameEvents, ← tracks.boot]
    exact greets
  · exact (accepts _ fun _ member => sent.subset member).mpr sent

theorem cursor_accepts_iff_prefix_sample :
    ∃ session, Session.Reaches (fun _ _ _ => True) Sample.start session ∧
      session.connection.sent.length = 5 ∧
      (∃ phase, observeAll (session.connection.sent.take 4) = .ok phase) ∧
      ¬ ∃ phase, observeAll (session.connection.sent.eraseIdx 3) = .ok phase := by
  obtain ⟨session, reached, accepted, _, sequences, _⟩ := Sample.joins_late
  obtain ⟨_, _, _, _, sent, _, accepts⟩ := cursor_accepts_iff_prefix Sample.started reached accepted
  have length : session.connection.sent.length = 5 := by
    rw [← List.length_map, sequences]
    rfl
  refine ⟨session, reached, length, ?_, ?_⟩
  · have beginning := (List.take_prefix 4 _).trans sent
    exact (accepts _ fun _ member => beginning.subset member).mpr beginning
  · -- The frame of sequence 3 is lost, and the next one is not the fourth that was sent.
    rw [accepts _ fun _ member => sent.subset (List.mem_of_mem_eraseIdx member)]
    intro beginning
    have same := List.prefix_of_prefix_length_le beginning ((List.take_prefix 4 _).trans sent)
      (by simp [length, List.length_eraseIdx])
    have shown := same.map (·.sequence)
    rw [List.map_take, ← List.eraseIdx_map, sequences] at shown
    revert shown
    decide

end Statefeed
