import Statefeed.Model.Sample
import Statefeed.Stream.Session

set_option autoImplicit false

namespace Statefeed

open Publication

structure View where
  dictionary : List Wire.WatchKey
  generation : Generation
  block : Option Wire.BlockRef
  values : Bytes
  forkchoice : Option Wire.ForkchoiceView
  waiting : Bool

namespace View

def blank : View where
  dictionary := []
  generation := 0
  block := none
  values := []
  forkchoice := none
  waiting := true

def see (view : View) (envelope : Wire.Envelope) : View :=
  match envelope.event with
  | some (.configActivated config) =>
    { view with
      dictionary := config.keys
      generation := envelope.configGeneration
      waiting := true }
  | some (.snapshot shown) =>
    { view with
      block := shown.block
      values := shown.values
      forkchoice := shown.forkchoice
      waiting := false }
  | some (.canonicalHead head) => { view with block := head.block, values := head.values }
  | some (.forkchoiceApplied applied) => { view with forkchoice := applied.view }
  | some (.gap _) => { view with waiting := true }
  | _ => view

def after (view : View) (envelopes : List Wire.Envelope) : View := envelopes.foldl see view

def ofHandshake (handshake : Handshake) : View where
  dictionary := (configActivated handshake.canonical.watchSet).keys
  generation := handshake.generation
  block := some (blockRef handshake.canonical.block)
  values := handshake.canonical.values
  forkchoice := some (forkchoiceView handshake.forkchoice)
  waiting := false

theorem after_append (view : View) (first second : List Wire.Envelope) :
    view.after (first ++ second) = (view.after first).after second := by
  simp [after]

theorem after_greeting {bootId : Bytes} {handshake : Handshake} {shared : Shared}
    {greeting : List Wire.Envelope}
    (greets : Session.Greets bootId handshake greeting (handshake.events shared)) (view : View) :
    view.after greeting = ofHandshake handshake := by
  cases greets with
  | cons hello greets =>
    cases greets with
    | cons config greets =>
      cases greets with
      | cons shown greets =>
        cases greets with
        | nil =>
          simp [after, see, hello.event, config.event, shown.event, ofHandshake, snapshot,
            config.generation]

def Knows (view : View) (monitor : Monitor) : Prop :=
  view.dictionary = (configActivated monitor.active).keys ∧
  view.generation = monitor.active.generation ∧
  match monitor.stage with
  | .live => view.waiting = false ∧ view.block = some (blockRef monitor.head) ∧
      view.values = monitor.published.canonical.values ∧
      view.forkchoice = monitor.published.forkchoice.map forkchoiceView
  | .headed => view.waiting = false ∧ view.block = some (blockRef monitor.head) ∧
      view.values = monitor.published.canonical.values
  | .configured | .gapped => view.waiting = true

variable {bootId : Bytes} {view early late : View} {monitor next origin : Monitor}
  {frame : PublishedFrame} {frames : List PublishedFrame}

theorem see_plain {event : Wire.Event} {envelope : Wire.Envelope} (kind : Monitor.Plain event)
    (read : envelope.event = some event) : view.see envelope = view := by
  cases event with
  | blockState | blockValidated | blockRejected | candidatesRetired => simp [see, read]
  | _ => exact kind.elim

theorem knows_emits (knows : Knows view monitor)
    (emitted : Monitor.Emits bootId monitor frame next) : Knows (view.see frame.envelope) next := by
  obtain ⟨dictionary, generation, known⟩ := knows
  cases emitted with
  | plain live kind stamped =>
    rw [see_plain kind stamped.event]
    rw [live] at known
    refine ⟨dictionary, generation, ?_⟩
    simp only [live]
    exact known
  | headed live _ sameDictionary stamped announced =>
    subst announced
    rw [live] at known
    simp only [see, stamped.event]
    refine ⟨?_, ?_, known.1, rfl, rfl⟩
    · rw [dictionary, ← sameDictionary]
      rfl
    · rw [generation, ← sameDictionary]
      rfl
  | fenced ready _ stamped announced =>
    subst announced
    simp only [see, stamped.event]
    refine ⟨dictionary, generation, ?_⟩
    -- A fence follows a head or stands alone; the view is its own either way.
    rcases ready with live | headed
    · rw [live] at known
      exact ⟨known.1, known.2.1, known.2.2.1, rfl⟩
    · rw [headed] at known
      exact ⟨known.1, known.2.1, known.2.2, rfl⟩
  | configured _ _ _ stamped announced =>
    subst announced
    simp only [see, stamped.event]
    exact ⟨rfl, stamped.generation, rfl⟩
  | introduced _ view stamped =>
    simp only [see, stamped.event]
    refine ⟨dictionary, generation, rfl, rfl, rfl, ?_⟩
    rw [view]
    rfl
  | gapped _ _ stamped announced =>
    subst announced
    simp only [see, stamped.event]
    -- After a gap nothing but the dictionary is known, until the next snapshot.
    exact ⟨dictionary, generation, rfl⟩
  | anchored _ sameDictionary _ stamped announced =>
    subst announced
    simp only [see, stamped.event]
    refine ⟨?_, ?_, rfl, rfl, rfl, rfl⟩
    · rw [dictionary, ← sameDictionary]
      rfl
    · rw [generation, ← sameDictionary]
      rfl

theorem knows_stream (knows : Knows view origin)
    (stream : Monitor.Stream bootId origin frames monitor) :
    Knows (view.after (frames.map PublishedFrame.envelope)) monitor := by
  induction stream with
  | nil => exact knows
  | concat _ emitted ih =>
    rw [List.map_append, after_append]
    exact knows_emits ih emitted

/-- The late view can be used in place of the early one as soon as the early one is complete. -/
def Agrees (early late : View) : Prop :=
  early.dictionary = late.dictionary ∧ early.generation = late.generation ∧
    (early.waiting = false → early = late)

theorem agrees_see (agrees : Agrees early late) (envelope : Wire.Envelope) :
    Agrees (early.see envelope) (late.see envelope) := by
  obtain ⟨dictionary, generation, complete⟩ := agrees
  cases read : envelope.event with
  | none => simpa [see, read] using ⟨dictionary, generation, complete⟩
  | some event =>
    cases event with
    | configActivated => simp [see, read, Agrees]
    | snapshot => simp [see, read, Agrees, dictionary, generation]
    | gap => simp [see, read, Agrees, dictionary, generation]
    | canonicalHead | forkchoiceApplied =>
      simp only [see, read]
      refine ⟨dictionary, generation, fun settled => ?_⟩
      rw [complete settled]
    | _ => simpa [see, read] using ⟨dictionary, generation, complete⟩

theorem agrees_after (agrees : Agrees early late) (envelopes : List Wire.Envelope) :
    Agrees (early.after envelopes) (late.after envelopes) := by
  induction envelopes generalizing early late with
  | nil => exact agrees
  | cons envelope rest ih => exact ih (agrees_see agrees envelope)

theorem knows_initial {start : Publisher} {first : Handshake}
    (accepted : Handshake.accept start.shared.publishedSequence start.shared.published = .ok first) :
    Knows (ofHandshake first) (Monitor.initial start) := by
  obtain ⟨_, view, canonical, _, _⟩ := Session.accepted_of_accept accepted
  refine ⟨?_, ?_, rfl, ?_, ?_, ?_⟩
  · simp [ofHandshake, Monitor.active, Monitor.initial, canonical]
  · simp [ofHandshake, Handshake.generation, Monitor.active, Monitor.initial, canonical]
  · simp [ofHandshake, Monitor.head, Monitor.initial, canonical]
  · simp [ofHandshake, Monitor.initial, canonical]
  · simp [ofHandshake, Monitor.initial, view]

theorem agrees_handshake {handshake : Handshake} {committedSequence : Nat}
    (coherent : monitor.Coherent) (knows : Knows view monitor)
    (accepted : Handshake.accept committedSequence monitor.published = .ok handshake) :
    Agrees view (ofHandshake handshake) := by
  obtain ⟨settled, fence, canonical, _, _⟩ := Session.accepted_of_accept accepted
  obtain ⟨dictionary, generation, known⟩ := knows
  have sameDictionary : view.dictionary = (ofHandshake handshake).dictionary := by
    simp [dictionary, ofHandshake, Monitor.active, canonical]
  have sameGeneration : view.generation = (ofHandshake handshake).generation := by
    simp [generation, ofHandshake, Handshake.generation, Monitor.active, canonical]
  refine ⟨sameDictionary, sameGeneration, fun complete => ?_⟩
  have agreed := coherent.2
  cases stage : monitor.stage with
  | live =>
    rw [stage] at known
    obtain ⟨_, block, values, forkchoice⟩ := known
    obtain ⟨_, _, _, _, _, _⟩ := view
    simp_all [ofHandshake, Monitor.head]
  | headed | gapped =>
    rw [stage, fence] at agreed
    simp at agreed
  | configured =>
    rw [stage, complete] at known
    cases known

end View

section

variable {allowed : Publisher → Env → Input → Prop} {env : Env}
  {options : Publisher.ServiceOptions} {watchSet : WatchSet} {start : Publisher}
  {session : Session} {handshake : Handshake}

theorem View.after_joining {bootId : Bytes} {first : Handshake}
    {firstGreeting greeting : List Wire.Envelope} {frames joined seen : List PublishedFrame}
    {monitor : Monitor} (coherent : (Monitor.initial start).Coherent)
    (stream : Monitor.Stream bootId (Monitor.initial start) frames monitor)
    (within : joined <+: frames) (joins : Session.Joins start handshake joined)
    (firstAccepted : Handshake.accept start.shared.publishedSequence start.shared.published = .ok first)
    (firstGreets : Session.Greets options.bootId first firstGreeting (first.events start.shared))
    (greets : Session.Greets options.bootId handshake greeting (handshake.events start.shared))
    (seenWithin : seen <+: frames)
    (least : handshake.baseline ≤
      position PublishedFrame.sequence start.shared.publishedSequence seen)
    (settled : (View.blank.after
      (firstGreeting ++ seen.map PublishedFrame.envelope)).waiting = false) :
    View.blank.after (greeting ++
        (seen.filter (handshake.baseline < ·.sequence)).map PublishedFrame.envelope) =
      View.blank.after (firstGreeting ++ seen.map PublishedFrame.envelope) := by
  have ordered := Monitor.ordered_stream coherent stream
  rw [← joins.baseline] at least
  obtain ⟨more, rfl⟩ := ordered.prefix_of_position_le within seenWithin least
  have past : (joined ++ more).filter (handshake.baseline < ·.sequence) = more := by
    rw [← joins.baseline]
    exact (ordered.of_prefix seenWithin).filter_past
  obtain ⟨_, split⟩ := (List.prefix_append joined more).trans seenWithin
  rw [← split] at stream
  obtain ⟨middle, earlier, _⟩ := stream.split
  have knows := View.knows_stream (View.knows_initial firstAccepted) earlier
  have shown : publishedAfter start joined = middle.published := Monitor.latest_stream earlier
  have agrees := View.agrees_handshake (Monitor.coherent_stream coherent earlier) knows
    (shown ▸ joins.accepted)
  have later := View.agrees_after agrees (more.map PublishedFrame.envelope)
  have whole : View.blank.after (firstGreeting ++ (joined ++ more).map PublishedFrame.envelope) =
      ((View.ofHandshake first).after (joined.map PublishedFrame.envelope)).after
        (more.map PublishedFrame.envelope) := by
    rw [View.after_append, View.after_greeting firstGreets, List.map_append, View.after_append]
  rw [whole] at settled ⊢
  rw [View.after_append, View.after_greeting greets, past]
  exact (later.2.2 settled).symm

theorem late_joiner_equivalent
    (started : Publisher.startService env options watchSet = some start)
    (reached : Session.Reaches allowed start session)
    (accepted : session.connection.handshake = some handshake) :
    (∀ first firstGreeting greeting seen rest,
      Handshake.accept start.shared.publishedSequence start.shared.published = .ok first →
      Session.Greets options.bootId first firstGreeting (first.events start.shared) →
      Session.Greets options.bootId handshake greeting (handshake.events start.shared) →
      session.shared.frames = seen ++ rest →
      handshake.baseline ≤
        position PublishedFrame.sequence start.shared.publishedSequence seen →
      (View.blank.after (firstGreeting ++ seen.map PublishedFrame.envelope)).waiting = false →
      View.blank.after (greeting ++
          (seen.filter (handshake.baseline < ·.sequence)).map PublishedFrame.envelope) =
        View.blank.after (firstGreeting ++ seen.map PublishedFrame.envelope)) ∧
    (session.shared.frames.map PublishedFrame.sequence).Pairwise (· < ·) ∧
    (∃ greeting done rest, handshake.events start.shared = done ++ rest ∧
      Session.Greets options.bootId handshake greeting done ∧
      session.connection.sent = greeting ++
        ((session.shared.frames.take session.connection.received).filter
          (handshake.baseline < ·.sequence)).map PublishedFrame.envelope ∧
      (rest ≠ [] → session.connection.sent = greeting)) ∧
    (session.connection.stage = .serving handshake [] →
      session.connection.received < session.memory.sent.length →
      ∃ after, Session.Step allowed session after ∧
        after.connection.received = session.connection.received + 1) := by
  have coherent := Monitor.coherent_initial started
  obtain ⟨loopReached, exposes⟩ := Session.exposes_reaches started reached
  obtain ⟨monitor, stream, tracks⟩ := Machine.streaming_reaches started loopReached
  change Monitor.Stream options.bootId _ session.shared.frames monitor at stream
  have ordered := Monitor.ordered_stream coherent stream
  obtain ⟨pending, ⟨joined, within, joins⟩, ⟨done, greeting, events, greets, sent⟩, quiet⟩ :=
    Session.serves_reaches started reached accepted
  refine ⟨?_, ordered.pairwise, ?_, ?_⟩
  · intro first firstGreeting greeting seen rest firstAccepted firstGreets greets whole least settled
    exact View.after_joining coherent stream within joins firstAccepted firstGreets greets
      ⟨rest, whole.symm⟩ least settled
  · have hello := (Machine.grows_reaches loopReached).hello
    have sameEvents : handshake.events session.shared = handshake.events start.shared := by
      simp [Handshake.events, Session.shared, hello]
    refine ⟨greeting, done, pending, sameEvents ▸ events, ?_, ?_, ?_⟩
    · rw [← tracks.boot]
      exact greets
    · rw [sent, Session.forwarded, exposes.taken]
    · intro unfinished
      rw [sent, quiet unfinished, List.append_nil]
  · intro serving more
    have next : session.memory.sent[session.connection.received]? = some _ :=
      List.getElem?_eq_getElem more
    by_cases later : handshake.baseline < (session.memory.sent[session.connection.received]).sequence
    · exact ⟨_, .forward serving next later, rfl⟩
    · exact ⟨_, .skip serving next later, rfl⟩

end

def Sample.handshake : Handshake where
  baseline := 0
  canonical := Sample.projection Sample.watchSet 1
  forkchoice := Sample.forkchoice 1

theorem Sample.joins {allowed : Publisher → Env → Input → Prop}
    (admitted : allowed Sample.start (Sample.env 1 0) (.event (Sample.fallback 2 1))) :
    ∃ session, Session.Reaches allowed Sample.start session ∧
      session.connection.handshake = some Sample.handshake ∧ session.shared.frames.length = 1 ∧
      session.connection.sent.length = 4 := by
  have published : Session.Step allowed (.start Sample.start) _ :=
    .publish ⟨Sample.env 1 0, .event (Sample.fallback 2 1), admitted, rfl⟩
  have read := ((Relation.ReflTransGen.refl.tail published).tail (.subscribe rfl)).tail (.position rfl)
  have accepted := read.tail (@Session.Step.accept _ _ _ Sample.handshake rfl rfl)
  have greeted := ((accepted.tail (@Session.Step.greet _ _ (Sample.env 1 0) _ _ _ _ rfl rfl)).tail
    (@Session.Step.greet _ _ (Sample.env 1 0) _ _ _ _ rfl rfl)).tail
    (@Session.Step.greet _ _ (Sample.env 1 0) _ _ _ _ rfl rfl)
  have exposed := (greeted.tail (.write rfl)).tail (.write rfl)
  exact ⟨_, exposed.tail (.forward rfl rfl (by decide +kernel)), rfl, by decide +kernel,
    by decide +kernel⟩

theorem Session.flushes {allowed : Publisher → Env → Input → Prop} (session : Session) :
    Relation.ReflTransGen (Session.Step allowed) session
      { session with
        memory := session.pending.foldl Register.apply session.memory
        pending := [] } := by
  obtain ⟨loop, memory, pending, shutdown, connection⟩ := session
  induction pending generalizing memory with
  | nil => exact .refl
  | cons write rest ih => exact .head (.write rfl) (ih (memory.apply write))

def Sample.greets (handshake : Handshake) : List Wire.Envelope :=
  (handshake.events Sample.start.shared).map
    (Sample.start.shared.envelope (Sample.env 1 0) handshake.baseline handshake.generation)

theorem Sample.greets_sound (handshake : Handshake) :
    Session.Greets Sample.options.bootId handshake (Sample.greets handshake)
      (handshake.events Sample.start.shared) :=
  .cons ⟨rfl, rfl, rfl, rfl, rfl⟩ (.cons ⟨rfl, rfl, rfl, rfl, rfl⟩
    (.cons ⟨rfl, rfl, rfl, rfl, rfl⟩ .nil))

def Sample.lateHandshake : Handshake where
  baseline := 2
  canonical := Sample.projection Sample.watchSet 2
  forkchoice := Sample.forkchoice 2

theorem Sample.joins_late :
    ∃ session, Session.Reaches (fun _ _ _ => True) Sample.start session ∧
      session.connection.handshake = some Sample.lateHandshake ∧
      session.shared.frames.map PublishedFrame.sequence = [1, 2, 3, 4] ∧
      session.connection.sent.map (·.sequence) = [2, 2, 2, 3, 4] ∧
      (View.blank.after (Sample.greets Sample.handshake ++
        session.shared.frames.map PublishedFrame.envelope)).waiting = false := by
  have first : Session.Step (fun _ _ _ => True) (.start Sample.start) _ :=
    .publish ⟨Sample.env 1 0, .event (Sample.applied 2 1), trivial, Sample.next_event rfl⟩
  have exposed := (Relation.ReflTransGen.refl.tail first).trans (Session.flushes _)
  have read := (exposed.tail (.subscribe rfl)).tail (.position rfl)
  have accepted := read.tail (@Session.Step.accept _ _ _ Sample.lateHandshake rfl rfl)
  have greeted := ((accepted.tail (@Session.Step.greet _ _ (Sample.env 1 0) _ _ _ _ rfl rfl)).tail
    (@Session.Step.greet _ _ (Sample.env 1 0) _ _ _ _ rfl rfl)).tail
    (@Session.Step.greet _ _ (Sample.env 1 0) _ _ _ _ rfl rfl)
  have second := greeted.tail (.publish ⟨Sample.env 1 0, .event (Sample.applied 3 2), trivial,
    Sample.next_event (by decide +kernel)⟩)
  have again := second.trans (Session.flushes _)
  have forwarded := (again.tail (.forward rfl rfl (by decide +kernel))).tail
    (.forward rfl rfl (by decide +kernel))
  exact ⟨_, forwarded, rfl, by decide +kernel, by decide +kernel, by decide +kernel⟩

theorem late_joiner_equivalent_sample :
    ∃ session, Session.Reaches (fun _ _ _ => True) Sample.start session ∧
      session.shared.frames.map PublishedFrame.sequence = [1, 2, 3, 4] ∧
      View.blank.after (Sample.greets Sample.lateHandshake ++
          (session.shared.frames.filter (2 < ·.sequence)).map PublishedFrame.envelope) =
        View.blank.after (Sample.greets Sample.handshake ++
          session.shared.frames.map PublishedFrame.envelope) := by
  obtain ⟨session, reached, accepted, sequences, _, settled⟩ := Sample.joins_late
  have least : 2 ≤ position PublishedFrame.sequence Sample.start.shared.publishedSequence
      session.shared.frames := by
    obtain ⟨last, found, sequence⟩ : ∃ last, session.shared.frames.getLast? = some last ∧
        last.sequence = 4 := by
      have ends := congrArg List.getLast? sequences
      rw [List.getLast?_map] at ends
      exact Option.map_eq_some_iff.mp ends
    obtain ⟨earlier, whole⟩ := List.getLast?_eq_some_iff.mp found
    rw [whole, position_concat, sequence]
    decide
  refine ⟨session, reached, sequences, ?_⟩
  exact (late_joiner_equivalent Sample.started reached accepted).1 Sample.handshake
    (Sample.greets Sample.handshake) (Sample.greets Sample.lateHandshake) session.shared.frames []
    rfl (Sample.greets_sound _) (Sample.greets_sound _) (List.append_nil _).symm least settled

end Statefeed
