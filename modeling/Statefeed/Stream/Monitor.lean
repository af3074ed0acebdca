import Statefeed.Library.Trace
import Statefeed.Machine.Contents
import Statefeed.Model.Connection

set_option autoImplicit false

/-!
# The stream the publisher promises

`Monitor` is an automaton over published frames. It says which frame may follow which, with
which sequence and generation, and what a new connection is told after each of them. Every run
of the publisher writes a trace of it.
-/

namespace Statefeed

inductive StreamStage where
  -- The canonical projection and the forkchoice view agree.
  | live
  -- A canonical head was published and its fence was not.
  | headed
  -- A dictionary was published and its snapshot was not.
  | configured
  -- A gap was published and its snapshot was not.
  | gapped
deriving DecidableEq

structure Monitor where
  stage : StreamStage
  last : Nat
  published : PublishedState

namespace Monitor

def active (monitor : Monitor) : WatchSet := monitor.published.canonical.watchSet

/-- The block a consumer that follows the stream regards as canonical. -/
def head (monitor : Monitor) : BlockMeta := monitor.published.canonical.block

structure Stamped (bootId : Bytes) (envelope : Wire.Envelope) (sequence : Nat)
    (generation : Generation) (event : Wire.Event) : Prop where
  version : envelope.protocolVersion = Wire.protocolVersion
  boot : envelope.bootId = bootId
  sequence : envelope.sequence = sequence
  generation : envelope.configGeneration = generation
  event : envelope.event = some event

theorem Stamped.same {bootId : Bytes} {envelope : Wire.Envelope} {sequence : Nat}
    {generation : Generation} {event other : Wire.Event}
    (stamped : Stamped bootId envelope sequence generation event)
    (read : envelope.event = some other) : event = other :=
  Option.some.inj (stamped.event.symm.trans read)

def Plain : Wire.Event → Prop
  | .blockState _ | .blockValidated _ | .blockRejected _ | .candidatesRetired _ => True
  | _ => False

def Matches (view : ForkchoiceMeta) (block : BlockMeta) : Prop :=
  view.head.number = block.number ∧ view.head.hash = block.hash

inductive Emits (bootId : Bytes) : Monitor → PublishedFrame → Monitor → Prop
  | plain {monitor : Monitor} {frame : PublishedFrame} {event : Wire.Event}
      (live : monitor.stage = .live) (kind : Plain event)
      (stamped : Stamped bootId frame.envelope (monitor.last + 1) monitor.active.generation event)
      (stored : frame.stored = none) :
      Emits bootId monitor frame { monitor with last := monitor.last + 1 }
  | headed {monitor : Monitor} {frame : PublishedFrame} {projection : Projection}
      {changedBitmap : Bytes} {state : PublishedState} (live : monitor.stage = .live)
      (different : projection.block.hash ≠ monitor.head.hash)
      (sameDictionary : projection.watchSet = monitor.active)
      (stamped : Stamped bootId frame.envelope (monitor.last + 1) monitor.active.generation
        (.canonicalHead
          { previousBlockHash := B256.toVec monitor.head.hash
            block := some (blockRef projection.block)
            values := projection.values
            changedBitmap }))
      (announced : state =
        { canonical := projection, forkchoice := none, effectiveSequence := monitor.last + 1,
          recovering := false })
      (stored : frame.stored = some state) :
      Emits bootId monitor frame
        { stage := .headed, last := monitor.last + 1, published := state }
  | fenced {monitor : Monitor} {frame : PublishedFrame} {view : ForkchoiceMeta}
      {state : PublishedState} (unfenced : monitor.stage = .live ∨ monitor.stage = .headed)
      (matched : Matches view monitor.head)
      (stamped : Stamped bootId frame.envelope (monitor.last + 1) monitor.active.generation
        (.forkchoiceApplied { view := some (forkchoiceView view) }))
      (announced : state =
        { canonical := monitor.published.canonical, forkchoice := some view,
          effectiveSequence := monitor.last + 1, recovering := false })
      (stored : frame.stored = some state) :
      Emits bootId monitor frame
        { stage := .live, last := monitor.last + 1, published := state }
  | configured {monitor : Monitor} {frame : PublishedFrame} {projection : Projection}
      {view : ForkchoiceMeta} {state : PublishedState} (live : monitor.stage = .live)
      (newer : monitor.active.generation < projection.watchSet.generation)
      (matched : Matches view projection.block)
      (stamped : Stamped bootId frame.envelope (monitor.last + 1) projection.watchSet.generation
        (.configActivated (configActivated projection.watchSet)))
      (announced : state =
        { canonical := projection, forkchoice := some view,
          effectiveSequence := monitor.last + 1, recovering := false })
      (stored : frame.stored = some state) :
      Emits bootId monitor frame
        { stage := .configured, last := monitor.last + 1, published := state }
  | introduced {monitor : Monitor} {frame : PublishedFrame} {view : ForkchoiceMeta}
      (waiting : monitor.stage = .configured) (known : monitor.published.forkchoice = some view)
      (stamped : Stamped bootId frame.envelope (monitor.last + 1) monitor.active.generation
        (.snapshot (snapshot monitor.published.canonical view)))
      (stored : frame.stored = none) :
      Emits bootId monitor frame
        { monitor with stage := .live, last := monitor.last + 1 }
  | gapped {monitor : Monitor} {frame : PublishedFrame} {sequence : Nat} {reason : String}
      {state : PublishedState} (unfenced : monitor.stage = .live ∨ monitor.stage = .headed)
      (later : monitor.last < sequence)
      (stamped : Stamped bootId frame.envelope sequence monitor.active.generation
        (.gap { lastContiguousSequence := monitor.last, reason }))
      (announced : state =
        { canonical := monitor.published.canonical, forkchoice := none,
          effectiveSequence := sequence, recovering := true })
      (stored : frame.stored = some state) :
      Emits bootId monitor frame { stage := .gapped, last := sequence, published := state }
  | anchored {monitor : Monitor} {frame : PublishedFrame} {projection : Projection}
      {view : ForkchoiceMeta} {state : PublishedState} (waiting : monitor.stage = .gapped)
      (sameDictionary : projection.watchSet = monitor.active)
      (matched : Matches view projection.block)
      (stamped : Stamped bootId frame.envelope (monitor.last + 1) monitor.active.generation
        (.snapshot (snapshot projection view)))
      (announced : state =
        { canonical := projection, forkchoice := some view,
          effectiveSequence := monitor.last + 1, recovering := false })
      (stored : frame.stored = some state) :
      Emits bootId monitor frame
        { stage := .live, last := monitor.last + 1, published := state }

abbrev Stream (bootId : Bytes) (start : Monitor) : List PublishedFrame → Monitor → Prop :=
  Trace (Emits bootId) start

def Coherent (monitor : Monitor) : Prop :=
  monitor.published.effectiveSequence ≤ monitor.last ∧
    match monitor.stage with
    | .live | .configured => monitor.published.recovering = false ∧
        ∃ view, monitor.published.forkchoice = some view ∧ Matches view monitor.head
    | .headed => monitor.published.recovering = false ∧ monitor.published.forkchoice = none
    | .gapped => monitor.published.recovering = true ∧ monitor.published.forkchoice = none

variable {bootId : Bytes} {start monitor after : Monitor} {frame : PublishedFrame}
  {frames : List PublishedFrame}

theorem Coherent.bound (coherent : monitor.Coherent) :
    monitor.published.effectiveSequence ≤ monitor.last := coherent.1

theorem coherent_emits (coherent : monitor.Coherent) (emitted : Emits bootId monitor frame after) :
    after.Coherent := by
  have bound := coherent.bound
  cases emitted with
  | plain live =>
    obtain ⟨_, agreed⟩ := coherent
    rw [live] at agreed
    refine ⟨Nat.le_succ_of_le bound, ?_⟩
    simp only [live]
    exact agreed
  | headed _ _ _ _ announced =>
    subst announced
    exact ⟨Nat.le_refl _, rfl, rfl⟩
  | fenced _ matched _ announced =>
    subst announced
    exact ⟨Nat.le_refl _, rfl, _, rfl, matched⟩
  | configured _ _ matched _ announced =>
    subst announced
    exact ⟨Nat.le_refl _, rfl, _, rfl, matched⟩
  | introduced waiting =>
    obtain ⟨_, agreed⟩ := coherent
    rw [waiting] at agreed
    exact ⟨Nat.le_succ_of_le bound, agreed⟩
  | gapped _ _ _ announced =>
    subst announced
    exact ⟨Nat.le_refl _, rfl, rfl⟩
  | anchored _ _ matched _ announced =>
    subst announced
    exact ⟨Nat.le_refl _, rfl, _, rfl, matched⟩

theorem coherent_stream (coherent : start.Coherent) (stream : Stream bootId start frames monitor) :
    monitor.Coherent :=
  stream.invariant (fun _ monitor => monitor.Coherent) coherent
    fun _ _ _ _ holds emitted => coherent_emits holds emitted

/-- The monitor before the first frame: a service starts with a confirmed snapshot. -/
def initial (start : Publisher) : Monitor where
  stage := .live
  last := start.shared.publishedSequence
  published := start.shared.published

theorem matches_of_view {loaded : CanonicalSnapshot}
    (accepted : validateSnapshotView loaded = .ok ()) :
    Matches loaded.forkchoice loaded.projection.block := by
  unfold validateSnapshotView at accepted
  split at accepted
  · cases accepted
  · next same =>
    rw [not_or, not_not, not_not] at same
    exact same

theorem coherent_initial {env : Env} {options : Publisher.ServiceOptions} {watchSet : WatchSet}
    {start : Publisher} (started : Publisher.startService env options watchSet = some start) :
    (initial start).Coherent := by
  obtain ⟨loaded, starts, rfl⟩ := Publisher.startService_eq_some.mp started
  exact ⟨Nat.le_refl _, rfl, _, rfl, matches_of_view starts.view⟩

structure Advances (monitor : Monitor) (frame : PublishedFrame) (after : Monitor) : Prop where
  later : monitor.last < frame.sequence
  last : after.last = frame.sequence
  published : after.published = frame.stored.getD monitor.published
  tagged : ∀ state, frame.stored = some state → state.effectiveSequence = frame.sequence

theorem advances_emits (emitted : Emits bootId monitor frame after) :
    Advances monitor frame after := by
  cases emitted with
  | plain _ _ stamped stored | introduced _ _ stamped stored =>
    have sequence := stamped.sequence
    constructor <;> simp [PublishedFrame.sequence, sequence, stored]
  | headed _ _ _ stamped announced stored | fenced _ _ stamped announced stored
  | configured _ _ _ stamped announced stored | anchored _ _ _ stamped announced stored =>
    subst announced
    have sequence := stamped.sequence
    constructor <;> simp [PublishedFrame.sequence, sequence, stored]
  | gapped _ later stamped announced stored =>
    subst announced
    have sequence := stamped.sequence
    constructor <;> simp [PublishedFrame.sequence, sequence, stored, later]

theorem position_stream (stream : Stream bootId start frames monitor) :
    Publication.position PublishedFrame.sequence start.last frames = monitor.last := by
  induction stream with
  | nil => rfl
  | concat _ emitted _ => simp [(advances_emits emitted).last]

theorem latest_stream (stream : Stream bootId start frames monitor) :
    Publication.latest PublishedFrame.stored start.published frames = monitor.published := by
  induction stream with
  | nil => rfl
  | concat _ emitted ih => simp [(advances_emits emitted).published, ih]

theorem ordered_stream (coherent : start.Coherent) (stream : Stream bootId start frames monitor) :
    Publication.Ordered PublishedFrame.sequence PublishedFrame.stored
      PublishedState.effectiveSequence ⟨start.published, start.last, []⟩ frames := by
  refine ⟨coherent.bound, ?_, ?_⟩
  · refine stream.each.mono fun before frame _ emission => ?_
    obtain ⟨origin, after, earlier, emitted⟩ := emission
    rw [position_stream earlier]
    exact (advances_emits emitted).later
  · intro frame member state stored
    obtain ⟨before, rest, whole⟩ := List.append_of_mem member
    obtain ⟨origin, after, _, emitted⟩ := stream.each before frame rest whole
    exact (advances_emits emitted).tagged state stored

end Monitor

/-- The handshake state once the last of these frames is published. -/
def publishedAfter (start : Publisher) (frames : List PublishedFrame) : PublishedState :=
  Publication.latest PublishedFrame.stored start.shared.published frames

end Statefeed
