import Statefeed.Model.Server
import Statefeed.Stream.Cursor

set_option autoImplicit false

namespace Statefeed

open Publication

namespace Server

variable {allowed : Publisher → Env → Input → Prop} {start : Publisher} {server after : Server}

/-- The service as one of its consumers sees it. -/
def session (server : Server) (connection : Connection) : Session where
  loop := server.loop
  memory := server.memory
  pending := server.pending
  shutdown := server.shutdown
  connection

theorem session_advances {connection next : Connection}
    (advances : Connection.Advances server.shared server.memory connection next) :
    Session.Step allowed (server.session connection) (server.session next) := by
  cases advances with
  | subscribe connecting => exact .subscribe connecting
  | position subscribed => exact .position subscribed
  | accept positioned accepted => exact .accept positioned accepted
  | greet serving encodes => exact .greet serving encodes
  | forward serving _ next later => exact .forward serving next later
  | skip serving _ next earlier => exact .skip serving next earlier

def Separate (allowed : Publisher → Env → Input → Prop) (start : Publisher) (server : Server) :
    Prop :=
  ∀ connection ∈ Connection.fresh :: server.consumers,
    Session.Reaches allowed start (server.session connection)

theorem separate_step (separate : Separate allowed start server)
    (step : Step allowed server after) : Separate allowed start after := by
  intro connection member
  -- A step of one consumer leaves the sessions of the others as they are.
  have replaced {index : Nat} {next : Connection}
      (served : Session.Reaches allowed start (server.session next))
      (member : connection ∈ Connection.fresh :: server.consumers.set index next) :
      Session.Reaches allowed start (server.session connection) := by
    rcases List.mem_cons.mp member with rfl | member
    · exact separate _ List.mem_cons_self
    rcases List.mem_or_eq_of_mem_set member with other | rfl
    · exact separate _ (List.mem_cons_of_mem _ other)
    · exact served
  cases step with
  | publish round => exact (separate _ member).tail (.publish round)
  | write next => exact (separate _ member).tail (.write next)
  | accept =>
    have known : connection ∈ Connection.fresh :: server.consumers := by
      simp only [List.mem_cons, List.mem_append, List.not_mem_nil, or_false] at member ⊢
      tauto
    exact separate _ known
  | turnAway => exact separate _ member
  | signal => exact (separate _ member).tail .signal
  | serve found advances =>
    have earlier := separate _ (List.mem_cons_of_mem _ (List.mem_of_getElem? found))
    exact replaced (earlier.tail (session_advances advances)) member
  | «return» found returns =>
    have earlier := separate _ (List.mem_cons_of_mem _ (List.mem_of_getElem? found))
    exact replaced (earlier.tail (.close returns)) member
  | stop _ signalled =>
    rcases List.mem_cons.mp member with rfl | member
    · exact separate _ List.mem_cons_self
    obtain ⟨other, known, rfl⟩ := List.mem_map.mp member
    exact (separate _ (List.mem_cons_of_mem _ known)).tail (.abort signalled)

/-- What a step of the service does to the connection at `index`. -/
inductive Turn (server after : Server) (index : Nat) (connection : Connection) : Connection → Prop
  | waits : Turn server after index connection connection
  -- The consumer's own task takes a step, which nobody else sees.
  | own {next : Connection}
      (task : Connection.Advances server.shared server.memory connection next ∨
        connection.Returns server.shared server.memory server.shutdown ∧ next = connection.close)
      (others : ∀ other, other ≠ index → after.consumers[other]? = server.consumers[other]?)
      (loop : after.loop = server.loop) (memory : after.memory = server.memory)
      (pending : after.pending = server.pending) : Turn server after index connection next
  | aborted (signalled : server.shutdown = true) :
      Turn server after index connection connection.close

theorem turn_step {index : Nat} {connection : Connection} (step : Step allowed server after)
    (found : server.consumers[index]? = some connection) :
    ∃ next, after.consumers[index]? = some next ∧ Turn server after index connection next := by
  have inside := (List.getElem?_eq_some_iff.mp found).1
  -- A task that replaces the connection of its own index.
  have replaced {after : Server} {place : Nat} {current next : Connection}
      (known : server.consumers[place]? = some current)
      (consumers : after.consumers = server.consumers.set place next)
      (taken : place = index → current = connection → Turn server after index connection next) :
      ∃ next, after.consumers[index]? = some next ∧ Turn server after index connection next := by
    rw [consumers]
    by_cases same : place = index
    · subst same
      refine ⟨next, List.getElem?_set_self inside, taken rfl ?_⟩
      exact Option.some.inj (known.symm.trans found)
    · exact ⟨connection, (List.getElem?_set_ne same).trans found, .waits⟩
  have others {place other : Nat} {next : Connection} (same : place = index) (apart : other ≠ index) :
      (server.consumers.set place next)[other]? = server.consumers[other]? :=
    List.getElem?_set_ne (same ▸ apart.symm)
  cases step with
  | publish | write | turnAway | signal => exact ⟨connection, found, .waits⟩
  | accept =>
    exact ⟨connection, (List.getElem?_append_left inside).trans found, .waits⟩
  | serve known advances =>
    refine replaced known rfl fun same current => ?_
    subst current
    exact .own (.inl advances) (fun _ apart => others same apart) rfl rfl rfl
  | «return» known returns =>
    refine replaced known rfl fun same current => ?_
    subst current
    exact .own (.inr ⟨returns, rfl⟩) (fun _ apart => others same apart) rfl rfl rfl
  | stop _ signalled =>
    refine ⟨connection.close, ?_, .aborted signalled⟩
    rw [List.getElem?_map, found]
    rfl

/-- Every permit is free or held by the task of one consumer. -/
structure Accounted (maxConsumers : Nat) (server : Server) : Prop where
  permits : server.served + server.permits = maxConsumers
  stopped : server.listening = false → server.served = 0

theorem isOpen_advances {shared : Shared} {memory : Register PublishedFrame PublishedState}
    {connection next : Connection}
    (advances : Connection.Advances shared memory connection next) :
    connection.isOpen = true ∧ next.isOpen = true := by
  cases advances with
  | subscribe stage | position stage | accept stage | greet stage =>
    simp [Connection.isOpen, stage]
  | forward stage | skip stage => simp [Connection.isOpen, stage]

theorem isOpen_returns {shared : Shared} {memory : Register PublishedFrame PublishedState}
    {connection : Connection} {shutdown : Bool}
    (returns : connection.Returns shared memory shutdown) : connection.isOpen = true := by
  cases returns with
  | refused stage | unencoded stage | ungreeted stage | unwritten stage | lagged stage
  | stopped stage =>
    simp [Connection.isOpen, stage]

theorem served_set {index : Nat} {connection next : Connection}
    (found : server.consumers[index]? = some connection) (opened : connection.isOpen = true) :
    (server.consumers.set index next).countP Connection.isOpen + 1 =
        server.served + (if next.isOpen then 1 else 0) ∧
      0 < server.served := by
  obtain ⟨inside, rfl⟩ := List.getElem?_eq_some_iff.mp found
  have positive : 0 < server.served := List.countP_pos_iff.mpr ⟨_, List.getElem_mem inside, opened⟩
  rw [List.countP_set inside, if_pos opened]
  unfold served at *
  exact ⟨by omega, positive⟩

theorem accounted_step {maxConsumers : Nat} (accounted : Accounted maxConsumers server)
    (step : Step allowed server after) : Accounted maxConsumers after := by
  obtain ⟨permits, stopped⟩ := accounted
  cases step with
  | publish | write | turnAway | signal => exact ⟨permits, stopped⟩
  | accept listening free =>
    refine ⟨?_, fun ended => ?_⟩
    · have more : (server.consumers ++ [Connection.fresh]).countP Connection.isOpen =
          server.served + 1 := by
        simp [served, Connection.isOpen, Connection.fresh]
      simp only [served] at more permits ⊢
      omega
    · simp [listening] at ended
  | serve found advances =>
    obtain ⟨opened, still⟩ := isOpen_advances advances
    obtain ⟨count, positive⟩ := served_set found opened
    rw [if_pos still] at count
    have same := Nat.add_right_cancel count
    refine ⟨?_, fun ended => same.trans (stopped ended)⟩
    exact (congrArg (· + server.permits) same).trans permits
  | @«return» index connection found returns =>
    obtain ⟨count, positive⟩ := served_set found (isOpen_returns returns)
    refine ⟨?_, fun ended => absurd (stopped ended) positive.ne'⟩
    have fewer : (server.consumers.set index connection.close).countP Connection.isOpen + 1 =
        server.served := count
    simp only [served] at fewer permits ⊢
    omega
  | stop =>
    have none : (server.consumers.map Connection.close).countP Connection.isOpen = 0 := by
      simp [List.countP_eq_zero, Connection.isOpen, Connection.close]
    refine ⟨?_, fun _ => none⟩
    simp only [served] at none permits ⊢
    omega

variable {stream : StreamConfig}

theorem separate_reaches (reached : Reaches allowed stream start server) :
    Separate allowed start server := by
  induction reached with
  | refl =>
    intro connection member
    rcases List.mem_singleton.mp member with rfl
    exact .refl
  | tail _ step ih => exact separate_step ih step

theorem accounted_reaches (reached : Reaches allowed stream start server) :
    Accounted stream.maxConsumers server := by
  induction reached with
  | refl => exact ⟨by simp [served, Server.start], by simp [Server.start]⟩
  | tail _ step ih => exact accounted_step ih step

end Server

namespace View

variable {bootId : Bytes} {view : View} {monitor next origin : Monitor} {frame : PublishedFrame}
  {frames : List PublishedFrame}

def Informed (view : View) (monitor : Monitor) : Prop :=
  Knows view monitor ∨ monitor.stage = .configured ∧
    ∃ committedSequence handshake,
      Handshake.accept committedSequence monitor.published = .ok handshake ∧
      view = ofHandshake handshake

theorem informed_handshake {handshake : Handshake} {committedSequence : Nat}
    (coherent : monitor.Coherent)
    (accepted : Handshake.accept committedSequence monitor.published = .ok handshake) :
    Informed (ofHandshake handshake) monitor := by
  obtain ⟨_, fence, canonical, _, _⟩ := Session.accepted_of_accept accepted
  have agreed := coherent.2
  cases stage : monitor.stage with
  | live =>
    refine .inl ⟨?_, ?_, ?_⟩
    · simp [ofHandshake, Monitor.active, canonical]
    · simp [ofHandshake, Handshake.generation, Monitor.active, canonical]
    · simp [stage, ofHandshake, Monitor.head, canonical, fence]
  | configured => exact .inr ⟨stage, _, _, accepted, rfl⟩
  | headed | gapped =>
    rw [stage, fence] at agreed
    simp at agreed

theorem informed_emits (informed : Informed view monitor)
    (emitted : Monitor.Emits bootId monitor frame next) :
    Informed (view.see frame.envelope) next := by
  rcases informed with knows | ⟨configured, _, handshake, accepted, rfl⟩
  · exact .inl (knows_emits knows emitted)
  obtain ⟨_, _, canonical, _, _⟩ := Session.accepted_of_accept accepted
  cases emitted with
  | introduced _ known stamped =>
    simp only [see, stamped.event]
    refine .inl ⟨?_, ?_, rfl, rfl, rfl, ?_⟩
    · simp [ofHandshake, Monitor.active, canonical]
    · simp [ofHandshake, Handshake.generation, Monitor.active, canonical]
    · rw [known]
      rfl
  | plain other | headed other | configured other | anchored other =>
    rw [configured] at other
    cases other
  | fenced other | gapped other =>
    rw [configured] at other
    rcases other with other | other <;> cases other

theorem informed_stream (informed : Informed view origin)
    (stream : Monitor.Stream bootId origin frames monitor) :
    Informed (view.after (frames.map PublishedFrame.envelope)) monitor := by
  induction stream with
  | nil => exact informed
  | concat _ emitted ih =>
    rw [List.map_append, after_append]
    exact informed_emits ih emitted

theorem agrees_informed {handshake : Handshake} {committedSequence : Nat}
    (coherent : monitor.Coherent) (informed : Informed view monitor)
    (accepted : Handshake.accept committedSequence monitor.published = .ok handshake) :
    Agrees view (ofHandshake handshake) := by
  rcases informed with knows | ⟨_, _, other, earlier, rfl⟩
  · exact agrees_handshake coherent knows accepted
  obtain ⟨_, fence, canonical, _, _⟩ := Session.accepted_of_accept accepted
  obtain ⟨_, otherFence, otherCanonical, _, _⟩ := Session.accepted_of_accept earlier
  have sameCanonical : other.canonical = handshake.canonical := otherCanonical.symm.trans canonical
  have sameFence : other.forkchoice = handshake.forkchoice :=
    Option.some.inj (otherFence.symm.trans fence)
  have same : ofHandshake other = ofHandshake handshake := by
    simp [ofHandshake, Handshake.generation, sameCanonical, sameFence]
  exact ⟨by rw [same], by rw [same], fun _ => same⟩

end View

/-- What a consumer has read: the greeting after the frames of `joined`, and then those of
`more`. -/
structure Reads (start : Publisher) (bootId : Bytes) (frames : List PublishedFrame)
    (seen : List Wire.Envelope) (handshake : Handshake) (joined more : List PublishedFrame) :
    Prop where
  joins : Session.Joins start handshake joined
  within : joined ++ more <+: frames
  seen : ∃ shared greeting, Session.Greets bootId handshake greeting (handshake.events shared) ∧
    seen = greeting ++ more.map PublishedFrame.envelope

section

variable {start : Publisher} {bootId : Bytes} {frames joined more : List PublishedFrame}
  {seen : List Wire.Envelope} {handshake : Handshake} {monitor : Monitor}

theorem Reads.view (reads : Reads start bootId frames seen handshake joined more) :
    View.blank.after seen =
      (View.ofHandshake handshake).after (more.map PublishedFrame.envelope) := by
  obtain ⟨_, _, greets, rfl⟩ := reads.seen
  rw [View.after_append, View.after_greeting greets]

theorem greets_sequence {greeting : List Wire.Envelope} {events : List Wire.Event}
    {envelope : Wire.Envelope} (greets : Session.Greets bootId handshake greeting events)
    (member : envelope ∈ greeting) : envelope.sequence = handshake.baseline := by
  induction greets with
  | nil => cases member
  | cons stamped _ ih =>
    rcases List.mem_cons.mp member with rfl | member
    · exact stamped.sequence
    · exact ih member

theorem Reads.position {last : Wire.Envelope}
    (reads : Reads start bootId frames seen handshake joined more)
    (ends : seen.getLast? = some last) :
    position PublishedFrame.sequence start.shared.publishedSequence (joined ++ more) =
      last.sequence := by
  obtain ⟨shared, greeting, greets, whole⟩ := reads.seen
  rw [whole] at ends
  rcases List.eq_nil_or_concat' more with rfl | ⟨more, frame, rfl⟩
  · have stamped := greets_sequence greets (List.mem_of_getLast? (by simpa using ends))
    rw [List.append_nil, reads.joins.baseline, stamped]
  · rw [← List.append_assoc, position_concat]
    have final : frame.envelope = last := by simpa using ends
    rw [← final]
    rfl

theorem reads_of_serves {session : Session} {rest : List Wire.Event}
    (coherent : (Monitor.initial start).Coherent)
    (stream : Monitor.Stream bootId (Monitor.initial start) session.shared.frames monitor)
    (exposes : Session.Exposes start session)
    (serves : Session.Serves start session handshake rest) (within : seen <+: session.connection.sent)
    (greeted : 3 ≤ seen.length) :
    ∃ joined more, Reads start session.shared.bootId session.shared.frames seen handshake joined more := by
  obtain ⟨hello, config, shown, greets, sent⟩ := sent_prefix exposes serves
  obtain ⟨joined, ⟨more, whole⟩, joins⟩ := serves.joined
  rw [Session.live_of_joins coherent stream joins whole] at sent
  have upto : seen <+: [hello, config, shown] ++ more.map PublishedFrame.envelope := within.trans sent
  obtain ⟨tail, rfl⟩ := List.prefix_of_prefix_length_le (List.prefix_append _ _) upto greeted
  obtain ⟨left, split⟩ := (List.prefix_append_right_inj _).mp upto
  obtain ⟨read, unread, rfl, rfl, _⟩ := List.map_eq_append_iff.mp split.symm
  refine ⟨joined, read, joins, ?_, _, _, greets, rfl⟩
  exact ⟨unread, by rw [← whole, List.append_assoc]⟩

theorem Reads.agrees {other : List Wire.Envelope} {otherHandshake : Handshake}
    {otherJoined otherMore : List PublishedFrame} (coherent : (Monitor.initial start).Coherent)
    (stream : Monitor.Stream bootId (Monitor.initial start) frames monitor)
    (reads : Reads start bootId frames seen handshake joined more)
    (otherReads : Reads start bootId frames other otherHandshake otherJoined otherMore)
    (same : joined ++ more = otherJoined ++ otherMore) (earlier : joined <+: otherJoined) :
    View.Agrees (View.blank.after seen) (View.blank.after other) := by
  obtain ⟨between, rfl⟩ := earlier
  rw [List.append_assoc, List.append_cancel_left_eq] at same
  obtain ⟨rest, whole⟩ := otherReads.within
  rw [← whole, List.append_assoc, List.append_assoc] at stream
  obtain ⟨middle, before, stream⟩ := stream.split
  obtain ⟨point, through, _⟩ := stream.split
  have middleCoherent := Monitor.coherent_stream coherent before
  have middleShown : publishedAfter start joined = middle.published := Monitor.latest_stream before
  have pointShown : publishedAfter start (joined ++ between) = point.published :=
    Monitor.latest_stream (before.append through)
  have informed := View.informed_stream
    (View.informed_handshake middleCoherent (middleShown ▸ reads.joins.accepted)) through
  have agrees := View.agrees_informed (Monitor.coherent_stream middleCoherent through) informed
    (pointShown ▸ otherReads.joins.accepted)
  rw [reads.view, otherReads.view, same, List.map_append, View.after_append]
  exact View.agrees_after agrees _

end

section

variable {allowed : Publisher → Env → Input → Prop} {env : Env}
  {options : Publisher.ServiceOptions} {watchSet : WatchSet} {start : Publisher}
  {stream : StreamConfig} {server : Server}

theorem consumers_isolated (reached : Server.Reaches allowed stream start server) :
    server.served + server.permits = stream.maxConsumers ∧
    (server.listening = false → server.served = 0) ∧
    (∀ connection ∈ server.consumers,
      Session.Reaches allowed start (server.session connection)) ∧
    ∀ after, Server.Step allowed server after → ∀ index connection,
      server.consumers[index]? = some connection →
      ∃ next, after.consumers[index]? = some next ∧
        Server.Turn server after index connection next := by
  obtain ⟨permits, stopped⟩ := Server.accounted_reaches reached
  refine ⟨permits, stopped, fun connection member => ?_, fun _ step _ _ => Server.turn_step step⟩
  exact Server.separate_reaches reached connection (List.mem_cons_of_mem _ member)

theorem Server.reads (started : Publisher.startService env options watchSet = some start)
    (reached : Server.Reaches allowed stream start server) {connection : Connection}
    {handshake : Handshake} {seen : List Wire.Envelope} (member : connection ∈ server.consumers)
    (accepted : connection.handshake = some handshake) (within : seen <+: connection.sent)
    (greeted : 3 ≤ seen.length) :
    ∃ joined more, Reads start options.bootId server.shared.frames seen handshake joined more := by
  have session := separate_reaches reached connection (List.mem_cons_of_mem _ member)
  obtain ⟨loopReached, exposes⟩ := Session.exposes_reaches started session
  obtain ⟨monitor, stream, tracks⟩ := Machine.streaming_reaches started loopReached
  obtain ⟨rest, serves⟩ := Session.serves_reaches started session accepted
  obtain ⟨joined, more, reads⟩ := reads_of_serves (Monitor.coherent_initial started) stream exposes
    serves within greeted
  exact ⟨joined, more, tracks.boot ▸ reads⟩

/-- Any two consumers know the same after the same sequence, whenever each of them connected and
however far each of them has got since. -/
theorem consumers_agree (started : Publisher.startService env options watchSet = some start)
    (reached : Server.Reaches allowed stream start server) {left right : Connection}
    {leftHandshake rightHandshake : Handshake} {leftSeen rightSeen : List Wire.Envelope}
    {leftLast rightLast : Wire.Envelope} (leftServed : left ∈ server.consumers)
    (rightServed : right ∈ server.consumers) (leftAccepted : left.handshake = some leftHandshake)
    (rightAccepted : right.handshake = some rightHandshake) (leftWithin : leftSeen <+: left.sent)
    (rightWithin : rightSeen <+: right.sent) (leftGreeted : 3 ≤ leftSeen.length)
    (rightGreeted : 3 ≤ rightSeen.length) (leftEnds : leftSeen.getLast? = some leftLast)
    (rightEnds : rightSeen.getLast? = some rightLast)
    (level : leftLast.sequence = rightLast.sequence) :
    (View.blank.after leftSeen).dictionary = (View.blank.after rightSeen).dictionary ∧
    (View.blank.after leftSeen).generation = (View.blank.after rightSeen).generation ∧
    ((View.blank.after leftSeen).waiting = false → (View.blank.after rightSeen).waiting = false →
      View.blank.after leftSeen = View.blank.after rightSeen) := by
  have session := Server.separate_reaches reached left (List.mem_cons_of_mem _ leftServed)
  obtain ⟨loopReached, _⟩ := Session.exposes_reaches started session
  obtain ⟨monitor, stream, _⟩ := Machine.streaming_reaches started loopReached
  change Monitor.Stream options.bootId _ server.shared.frames monitor at stream
  have coherent := Monitor.coherent_initial started
  have ordered := Monitor.ordered_stream coherent stream
  obtain ⟨leftJoined, leftMore, leftReads⟩ :=
    Server.reads started reached leftServed leftAccepted leftWithin leftGreeted
  obtain ⟨rightJoined, rightMore, rightReads⟩ :=
    Server.reads started reached rightServed rightAccepted rightWithin rightGreeted
  have samePosition := ((leftReads.position leftEnds).trans level).trans
    (rightReads.position rightEnds).symm
  have same := ordered.eq_of_position_eq leftReads.within rightReads.within samePosition
  rcases List.prefix_or_prefix_of_prefix (List.prefix_append leftJoined leftMore)
      (same ▸ List.prefix_append rightJoined rightMore) with earlier | later
  · obtain ⟨dictionary, generation, complete⟩ :=
      leftReads.agrees coherent stream rightReads same earlier
    exact ⟨dictionary, generation, fun settled _ => complete settled⟩
  · obtain ⟨dictionary, generation, complete⟩ :=
      rightReads.agrees coherent stream leftReads same.symm later
    exact ⟨dictionary.symm, generation.symm, fun _ settled => (complete settled).symm⟩

end

def Sample.laterHandshake : Handshake := { Sample.handshake with baseline := 1 }

theorem Sample.serves_two {allowed : Publisher → Env → Input → Prop}
    (admitted : allowed Sample.start (Sample.env 1 0) (.event (Sample.fallback 2 1))) :
    ∃ server first second,
      Server.Reaches allowed Sample.options.stream Sample.start server ∧
      server.consumers = [first, second] ∧ first.handshake = some Sample.handshake ∧
      second.handshake = some Sample.laterHandshake ∧ first.sent.length = 4 ∧
      second.sent.length = 3 ∧ first.sent.getLast?.map (·.sequence) = some 1 ∧
      second.sent.getLast?.map (·.sequence) = some 1 ∧
      (View.blank.after first.sent).waiting = false ∧
      (View.blank.after second.sent).waiting = false ∧
      ∃ before after greeted,
        Server.Reaches allowed Sample.options.stream Sample.start before ∧
        before.consumers = [first, greeted] ∧ greeted.sent.length = 2 ∧
        Server.Step allowed before after ∧ after.consumers = [first, greeted.close] := by
  have published : Server.Step allowed
      (.start Sample.options.stream.maxConsumers Sample.start) _ :=
    .publish ⟨Sample.env 1 0, .event (Sample.fallback 2 1), admitted, rfl⟩
  have entered := (Relation.ReflTransGen.refl.tail published).tail (.accept rfl rfl)
  have read := (entered.tail (@Server.Step.serve _ _ 0 _ _ rfl (.subscribe rfl))).tail
    (@Server.Step.serve _ _ 0 _ _ rfl (.position rfl))
  have accepted := read.tail
    (@Server.Step.serve _ _ 0 _ _ rfl
      (@Connection.Advances.accept _ _ _ _ Sample.handshake rfl rfl))
  have greeted := ((accepted.tail (@Server.Step.serve _ _ 0 _ _ rfl
      (@Connection.Advances.greet _ _ _ (Sample.env 1 0) _ _ _ _ rfl rfl))).tail
    (@Server.Step.serve _ _ 0 _ _ rfl
      (@Connection.Advances.greet _ _ _ (Sample.env 1 0) _ _ _ _ rfl rfl))).tail
    (@Server.Step.serve _ _ 0 _ _ rfl
      (@Connection.Advances.greet _ _ _ (Sample.env 1 0) _ _ _ _ rfl rfl))
  have exposed := (greeted.tail (.write rfl)).tail (.write rfl)
  have forwarded := exposed.tail (@Server.Step.serve _ _ 0 _ _ rfl
    (.forward rfl (Nat.le_trans Nat.one_le_two_pow (Nat.le_add_left _ _)) rfl (by decide +kernel)))
  have second := ((forwarded.tail (.accept rfl rfl)).tail
    (@Server.Step.serve _ _ 1 _ _ rfl (.subscribe rfl))).tail
    (@Server.Step.serve _ _ 1 _ _ rfl (.position rfl))
  have accepted := second.tail
    (@Server.Step.serve _ _ 1 _ _ rfl
      (@Connection.Advances.accept _ _ _ _ Sample.laterHandshake rfl rfl))
  have half := (accepted.tail (@Server.Step.serve _ _ 1 _ _ rfl
      (@Connection.Advances.greet _ _ _ (Sample.env 1 0) _ _ _ _ rfl rfl))).tail
    (@Server.Step.serve _ _ 1 _ _ rfl
      (@Connection.Advances.greet _ _ _ (Sample.env 1 0) _ _ _ _ rfl rfl))
  have greeted := half.tail (@Server.Step.serve _ _ 1 _ _ rfl
      (@Connection.Advances.greet _ _ _ (Sample.env 1 0) _ _ _ _ rfl rfl))
  refine ⟨_, _, _, greeted, rfl, rfl, rfl, by decide +kernel, by decide +kernel, by decide +kernel,
    by decide +kernel, by decide +kernel, by decide +kernel, _, _, _, half, rfl, by decide +kernel,
    @Server.Step.return _ _ 1 _ rfl
      (@Connection.Returns.ungreeted _ _ _ _ (Sample.env 1 0) _ _ _ _ rfl rfl), rfl⟩

theorem consumers_isolated_sample :
    ∃ server after first second,
      Server.Reaches (fun _ _ _ => True) Sample.options.stream Sample.start server ∧
      server.consumers = [first, second] ∧ after.consumers = [first, second.close] ∧
      server.served + server.permits = Sample.options.stream.maxConsumers ∧
      Session.Reaches (fun _ _ _ => True) Sample.start (server.session second) ∧
      Server.Turn server after 0 first first ∧ Server.Turn server after 1 second second.close := by
  obtain ⟨_, first, _, _, _, _, _, _, _, _, _, _, _, server, after, second, reached, consumers, _,
    step, left⟩ := @Sample.serves_two (fun _ _ _ => True) trivial
  obtain ⟨permits, _, sessions, turns⟩ := consumers_isolated reached
  obtain ⟨kept, firstKept, firstTurn⟩ := turns after step 0 first (by rw [consumers]; rfl)
  obtain ⟨gone, secondGone, secondTurn⟩ := turns after step 1 second (by rw [consumers]; rfl)
  rw [left] at firstKept secondGone
  cases firstKept
  cases secondGone
  exact ⟨server, after, first, second, reached, consumers, left, permits,
    sessions second (by simp [consumers]), firstTurn, secondTurn⟩

theorem consumers_agree_sample :
    ∃ server first second,
      Server.Reaches (fun _ _ _ => True) Sample.options.stream Sample.start server ∧
      server.consumers = [first, second] ∧ first.sent.length = 4 ∧ second.sent.length = 3 ∧
      View.blank.after first.sent = View.blank.after second.sent := by
  obtain ⟨server, first, second, reached, consumers, firstAccepted, secondAccepted, firstSent,
    secondSent, firstEnds, secondEnds, firstSettled, secondSettled, _⟩ :=
    @Sample.serves_two (fun _ _ _ => True) trivial
  obtain ⟨firstLast, firstEnds, firstSequence⟩ := Option.map_eq_some_iff.mp firstEnds
  obtain ⟨secondLast, secondEnds, secondSequence⟩ := Option.map_eq_some_iff.mp secondEnds
  refine ⟨server, first, second, reached, consumers, firstSent, secondSent, ?_⟩
  exact (consumers_agree Sample.started reached (by simp [consumers]) (by simp [consumers])
    firstAccepted secondAccepted (List.prefix_refl _) (List.prefix_refl _) (by omega) (by omega)
    firstEnds secondEnds (firstSequence.trans secondSequence.symm)).2.2 firstSettled secondSettled

end Statefeed
