import Statefeed.Stream.Cursor

set_option autoImplicit false

namespace Statefeed

def WatchSet.Succeeds (older newer : WatchSet) : Prop :=
  newer = older ∨ older.generation < newer.generation

namespace WatchSet.Succeeds

variable {first second third : WatchSet}

theorem refl (watchSet : WatchSet) : watchSet.Succeeds watchSet := .inl rfl

theorem trans (left : first.Succeeds second) (right : second.Succeeds third) :
    first.Succeeds third := by
  rcases left with rfl | left
  · exact right
  · rcases right with rfl | right
    · exact .inr left
    · exact .inr (left.trans right)

theorem generation_le (succeeds : first.Succeeds second) :
    first.generation ≤ second.generation := by
  rcases succeeds with rfl | later
  · exact Nat.le_refl _
  · exact later.le

theorem eq_of_generation (succeeds : first.Succeeds second)
    (same : first.generation = second.generation) : first = second := by
  rcases succeeds with rfl | later
  · rfl
  · exact absurd same later.ne

end WatchSet.Succeeds

namespace Monitor

variable {bootId : Bytes} {start monitor after : Monitor} {frame : PublishedFrame}
  {frames : List PublishedFrame}

inductive Labels (monitor : Monitor) (frame : PublishedFrame) (after : Monitor) : Prop
  | current (plain : ∀ config, frame.envelope.event ≠ some (.configActivated config))
      (stamped : frame.envelope.configGeneration = after.active.generation)
      (kept : after.active = monitor.active) : Labels monitor frame after
  | next (read : frame.envelope.event = some (.configActivated (configActivated after.active)))
      (stamped : frame.envelope.configGeneration = after.active.generation)
      (newer : monitor.active.generation < after.active.generation) : Labels monitor frame after

theorem labels_emits (emitted : Emits bootId monitor frame after) : Labels monitor frame after := by
  cases emitted with
  | @plain event _ kind stamped _ =>
    refine .current (fun config read => ?_) stamped.generation rfl
    cases stamped.same read
    exact kind
  | headed _ _ sameDictionary stamped announced _ =>
    subst announced
    refine .current (fun config read => ?_) ?_ sameDictionary
    · cases stamped.same read
    · exact stamped.generation.trans (congrArg WatchSet.generation sameDictionary.symm)
  | fenced _ _ stamped announced _ | gapped _ _ stamped announced _ =>
    subst announced
    refine .current (fun config read => ?_) stamped.generation rfl
    cases stamped.same read
  | configured _ newer _ stamped announced _ =>
    subst announced
    exact .next stamped.event stamped.generation newer
  | introduced _ _ stamped _ =>
    refine .current (fun config read => ?_) stamped.generation rfl
    cases stamped.same read
  | anchored _ sameDictionary _ stamped announced _ =>
    subst announced
    refine .current (fun config read => ?_) ?_ sameDictionary
    · cases stamped.same read
    · exact stamped.generation.trans (congrArg WatchSet.generation sameDictionary.symm)

theorem Labels.succeeds (labels : Labels monitor frame after) :
    monitor.active.Succeeds after.active := by
  cases labels with
  | current _ _ kept => exact .inl kept
  | next _ _ newer => exact .inr newer

theorem succeeds_stream (stream : Stream bootId start frames monitor) :
    start.active.Succeeds monitor.active := by
  induction stream with
  | nil => exact .refl _
  | concat _ emitted ih => exact ih.trans (labels_emits emitted).succeeds

theorem unambiguous_stream {earlier later : List PublishedFrame} {first second : Monitor}
    (before : Stream bootId start earlier first) (after : Stream bootId start later second)
    (within : earlier <+: later) (same : first.active.generation = second.active.generation) :
    first.active = second.active := by
  obtain ⟨rest, rfl⟩ := within
  obtain ⟨middle, reached, onward⟩ := after.split
  have published : first.published = middle.published :=
    (latest_stream before).symm.trans (latest_stream reached)
  have active : first.active = middle.active := congrArg (·.canonical.watchSet) published
  rw [active] at same ⊢
  exact (succeeds_stream onward).eq_of_generation same

end Monitor

def announce (known : Option (Generation × List Wire.WatchKey)) (envelope : Wire.Envelope) :
    Option (Generation × List Wire.WatchKey) :=
  match envelope.event with
  | some (.configActivated config) => some (envelope.configGeneration, config.keys)
  | _ => known

/-- The last dictionary among the envelopes, with its generation. -/
def announced (envelopes : List Wire.Envelope) : Option (Generation × List Wire.WatchKey) :=
  envelopes.foldl announce none

theorem announced_concat (envelopes : List Wire.Envelope) (envelope : Wire.Envelope) :
    announced (envelopes ++ [envelope]) = announce (announced envelopes) envelope := by
  simp [announced]

def dictionaryAt (start : Publisher) (joined : List PublishedFrame) : WatchSet :=
  (publishedAfter start joined).canonical.watchSet

structure Labelled (start : Publisher) (frames : List PublishedFrame) (before : List Wire.Envelope)
    (envelope : Wire.Envelope) : Prop where
  ascending : ∀ earlier ∈ before, earlier.configGeneration ≤ envelope.configGeneration
  known : (∃ hello, before = [] ∧ envelope.event = some (.hello hello)) ∨
    ∃ joined, joined <+: frames ∧
      (dictionaryAt start joined).generation = envelope.configGeneration ∧
      announced (before ++ [envelope]) =
        some (envelope.configGeneration, (configActivated (dictionaryAt start joined)).keys)

structure Follows (start : Publisher) (frames : List PublishedFrame)
    (received : List Wire.Envelope) (watchSet : WatchSet) : Prop where
  each : History.Each (Labelled start frames) received
  current : announced received = some (watchSet.generation, (configActivated watchSet).keys)
  bound : ∀ envelope ∈ received, envelope.configGeneration ≤ watchSet.generation

section

variable {bootId : Bytes} {start : Publisher} {frames joined more : List PublishedFrame}
  {received : List Wire.Envelope} {watchSet : WatchSet} {envelope : Wire.Envelope}

theorem Follows.keep (follows : Follows start frames received watchSet) (within : joined <+: frames)
    (known : dictionaryAt start joined = watchSet)
    (stamped : envelope.configGeneration = watchSet.generation)
    (plain : ∀ config, envelope.event ≠ some (.configActivated config)) :
    Follows start frames (received ++ [envelope]) watchSet := by
  have same : announced (received ++ [envelope]) =
      some (watchSet.generation, (configActivated watchSet).keys) := by
    rw [announced_concat, follows.current]
    unfold announce
    split
    · next config read => exact absurd read (plain config)
    · rfl
  refine ⟨History.each_concat.mpr ⟨follows.each, ?_, ?_⟩, same, ?_⟩
  · rw [stamped]
    exact follows.bound
  · exact .inr ⟨joined, within, by rw [known, stamped], by rw [same, known, stamped]⟩
  · intro other member
    rcases List.mem_append.mp member with earlier | last
    · exact follows.bound other earlier
    · cases List.mem_singleton.mp last
      exact stamped.le

theorem Labelled.follows (each : History.Each (Labelled start frames) received)
    (bound : ∀ other ∈ received, other.configGeneration ≤ watchSet.generation)
    (within : joined <+: frames) (known : dictionaryAt start joined = watchSet)
    (stamped : envelope.configGeneration = watchSet.generation)
    (read : envelope.event = some (.configActivated (configActivated watchSet))) :
    Follows start frames (received ++ [envelope]) watchSet := by
  have next : announced (received ++ [envelope]) =
      some (watchSet.generation, (configActivated watchSet).keys) := by
    rw [announced_concat]
    unfold announce
    rw [read, stamped]
  refine ⟨History.each_concat.mpr ⟨each, ?_, ?_⟩, next, ?_⟩
  · rw [stamped]
    exact bound
  · exact .inr ⟨joined, within, by rw [known, stamped], by rw [next, known, stamped]⟩
  · intro other member
    rcases List.mem_append.mp member with earlier | last
    · exact bound other earlier
    · cases List.mem_singleton.mp last
      exact stamped.le

theorem follows_stream {origin monitor : Monitor}
    (earlier : Monitor.Stream bootId (Monitor.initial start) joined origin)
    (stream : Monitor.Stream bootId origin more monitor) (within : joined ++ more <+: frames)
    (follows : Follows start frames received origin.active) :
    Follows start frames (received ++ more.map PublishedFrame.envelope) monitor.active := by
  induction stream with
  | nil => simpa using follows
  | @concat log state after frame trace emitted ih =>
    have before : joined ++ log <+: frames := by
      refine .trans ?_ within
      rw [← List.append_assoc]
      exact List.prefix_append _ _
    have known : dictionaryAt start (joined ++ (log ++ [frame])) = after.active := by
      have whole := earlier.append (trace.concat emitted)
      exact congrArg (·.canonical.watchSet) (Monitor.latest_stream whole)
    have ready := ih before
    rw [List.map_append, ← List.append_assoc]
    cases Monitor.labels_emits emitted with
    | current plain stamped kept =>
      rw [← kept] at ready
      exact ready.keep within known stamped plain
    | next read stamped newer =>
      exact Labelled.follows ready.each (fun other member => (ready.bound other member).trans newer.le)
        within known stamped read

theorem follows_greeting {shared : Shared} {handshake : Handshake} {hello config shown : Wire.Envelope}
    (greets : Session.Greets bootId handshake [hello, config, shown] (handshake.events shared))
    (within : joined <+: frames) (known : dictionaryAt start joined = handshake.canonical.watchSet) :
    Follows start frames [hello, config, shown] handshake.canonical.watchSet := by
  obtain ⟨helloStamped, configStamped, shownStamped⟩ := greets_events greets
  have first : History.Each (Labelled start frames) ([] ++ [hello]) := by
    refine History.each_concat.mpr ⟨History.each_nil, ?_, .inl ⟨_, rfl, helloStamped.event⟩⟩
    exact fun _ member => absurd member List.not_mem_nil
  have bound : ∀ other ∈ [hello], other.configGeneration ≤
      handshake.canonical.watchSet.generation := by
    intro other member
    cases List.mem_singleton.mp member
    exact helloStamped.generation.le
  have second := Labelled.follows first bound within known configStamped.generation
    configStamped.event
  refine second.keep within known shownStamped.generation fun other read => ?_
  cases shownStamped.same read

end

theorem sent_labelled {allowed : Publisher → Env → Input → Prop} {env : Env}
    {options : Publisher.ServiceOptions} {watchSet : WatchSet} {start : Publisher}
    {session : Session} {handshake : Handshake}
    (started : Publisher.startService env options watchSet = some start)
    (reached : Session.Reaches allowed start session)
    (accepted : session.connection.handshake = some handshake) :
    History.Each (Labelled start session.shared.frames) session.connection.sent := by
  obtain ⟨loopReached, exposes⟩ := Session.exposes_reaches started reached
  obtain ⟨pending, serves⟩ := Session.serves_reaches started reached accepted
  obtain ⟨monitor, stream, _⟩ := Machine.streaming_reaches started loopReached
  change Monitor.Stream _ _ session.shared.frames _ at stream
  obtain ⟨hello, config, shown, greets, sent⟩ := sent_prefix exposes serves
  obtain ⟨joined, ⟨more, whole⟩, joins⟩ := serves.joined
  have live := Session.live_of_joins (Monitor.coherent_initial started) stream joins whole
  rw [← whole] at stream
  obtain ⟨origin, earlier, later⟩ := stream.split
  obtain ⟨_, _, canonical, _, _⟩ := Session.accepted_of_accept joins.accepted
  have known : dictionaryAt start joined = handshake.canonical.watchSet :=
    congrArg Projection.watchSet canonical
  have active : dictionaryAt start joined = origin.active :=
    congrArg (·.canonical.watchSet) (Monitor.latest_stream earlier)
  have greeted := follows_greeting greets ⟨more, whole⟩ known
  rw [← known, active] at greeted
  have followed := follows_stream earlier later (whole ▸ List.prefix_refl _) greeted
  refine followed.each.of_prefix ?_
  rw [← live]
  exact sent

end Statefeed
