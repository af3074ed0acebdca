import Statefeed.Model.Connection
import Statefeed.Model.Sample
import Statefeed.Stream.Refinement

set_option autoImplicit false

namespace Statefeed

open Effect Effect.Op Publication

namespace Wire.Event

def shownBlock : Wire.Event → Option BlockRef
  | .canonicalHead head => head.block
  | .snapshot shown => shown.block
  | _ => none

-- Whether the canonical projection is left without a forkchoice view, for an event that decides it.
def unfences : Wire.Event → Option Bool
  | .canonicalHead _ | .gap _ => some true
  | .forkchoiceApplied _ | .snapshot _ => some false
  | _ => none

def isFence : Wire.Event → Bool
  | .forkchoiceApplied _ => true
  | _ => false

end Wire.Event

namespace PublishedFrame

def shownBlock (frame : PublishedFrame) : Option Wire.BlockRef :=
  frame.envelope.event.bind Wire.Event.shownBlock

def unfences (frame : PublishedFrame) : Option Bool :=
  frame.envelope.event.bind Wire.Event.unfences

def isFence (frame : PublishedFrame) : Bool := frame.envelope.event.any Wire.Event.isFence

end PublishedFrame

/-- The block in the closest canonical head or snapshot before this point of the stream. -/
def closestBlock (initial : Wire.BlockRef) (frames : List PublishedFrame) : Wire.BlockRef :=
  latest PublishedFrame.shownBlock initial frames

/-- The stream is between a canonical head and its fence, or between a gap and its snapshot. -/
def unfenced (frames : List PublishedFrame) : Bool := latest PublishedFrame.unfences false frames

structure Shows (start : Publisher) (frames : List PublishedFrame) (monitor : Monitor) : Prop where
  block : monitor.stage ≠ .configured →
    closestBlock (blockRef start.shared.published.canonical.block) frames = blockRef monitor.head
  fence : monitor.published.forkchoice = none ↔ unfenced frames = true

section

variable {bootId : Bytes} {start : Publisher} {monitor after : Monitor} {frame : PublishedFrame}
  {frames : List PublishedFrame} {event : Wire.Event} {sequence : Nat} {generation : Generation}

theorem closestBlock_concat (initial : Wire.BlockRef)
    (stamped : Monitor.Stamped bootId frame.envelope sequence generation event) :
    closestBlock initial (frames ++ [frame]) =
      event.shownBlock.getD (closestBlock initial frames) := by
  simp [closestBlock, PublishedFrame.shownBlock, stamped.event]

theorem unfenced_concat (stamped : Monitor.Stamped bootId frame.envelope sequence generation event) :
    unfenced (frames ++ [frame]) = event.unfences.getD (unfenced frames) := by
  simp [unfenced, PublishedFrame.unfences, stamped.event]

theorem shows_plain {event : Wire.Event} (kind : Monitor.Plain event) :
    event.shownBlock = none ∧ event.unfences = none := by
  cases event with
  | blockState | blockValidated | blockRejected | candidatesRetired => exact ⟨rfl, rfl⟩
  | _ => exact kind.elim

theorem shows_emits (shows : Shows start frames monitor) (coherent : monitor.Coherent)
    (emitted : Monitor.Emits bootId monitor frame after) :
    Shows start (frames ++ [frame]) after := by
  cases emitted with
  | plain live kind stamped stored =>
    obtain ⟨noBlock, noFence⟩ := shows_plain kind
    constructor
    · intro other
      rw [closestBlock_concat _ stamped, noBlock]
      exact shows.block other
    · rw [unfenced_concat stamped, noFence]
      exact shows.fence
  | headed live different sameDictionary stamped announced stored =>
    subst announced
    constructor
    · intro _
      rw [closestBlock_concat _ stamped]
      rfl
    · simp [unfenced_concat stamped, Wire.Event.unfences]
  | fenced ready matched stamped announced stored =>
    subst announced
    constructor
    · intro _
      rw [closestBlock_concat _ stamped]
      exact shows.block (by rcases ready with live | headed <;> simp [*])
    · simp [unfenced_concat stamped, Wire.Event.unfences]
  | configured live newer matched stamped announced stored =>
    subst announced
    have settled : unfenced frames = false := by
      have agreed := coherent.2
      rw [live] at agreed
      obtain ⟨_, view, known, _⟩ := agreed
      have fence := shows.fence
      rw [known] at fence
      simpa using fence
    constructor
    · simp
    · simp [unfenced_concat stamped, Wire.Event.unfences, settled]
  | introduced waiting known stamped stored =>
    constructor
    · intro _
      rw [closestBlock_concat _ stamped]
      rfl
    · simp [unfenced_concat stamped, Wire.Event.unfences, known]
  | gapped ready later stamped announced stored =>
    subst announced
    constructor
    · intro _
      rw [closestBlock_concat _ stamped]
      exact shows.block (by rcases ready with live | headed <;> simp [*])
    · simp [unfenced_concat stamped, Wire.Event.unfences]
  | anchored waiting sameDictionary matched stamped announced stored =>
    subst announced
    constructor
    · intro _
      rw [closestBlock_concat _ stamped]
      rfl
    · simp [unfenced_concat stamped, Wire.Event.unfences]

theorem shows_stream (coherent : (Monitor.initial start).Coherent)
    (stream : Monitor.Stream bootId (Monitor.initial start) frames monitor) :
    Shows start frames monitor := by
  have initial : Shows start [] (Monitor.initial start) := by
    obtain ⟨_, _, view, known, _⟩ := coherent
    exact ⟨fun _ => rfl, by simp [known, unfenced]⟩
  have both := stream.invariant
    (fun frames monitor => Shows start frames monitor ∧ monitor.Coherent) ⟨initial, coherent⟩
    fun _ _ _ _ holds emitted =>
      ⟨shows_emits holds.1 holds.2 emitted, Monitor.coherent_emits holds.2 emitted⟩
  exact both.1

def Continues (shown : Wire.BlockRef) : Wire.Event → Prop
  | .canonicalHead head => head.previousBlockHash = shown.hash ∧
      ∃ block, head.block = some block ∧ block.hash ≠ shown.hash
  | .forkchoiceApplied applied => ∃ view head, applied.view = some view ∧ view.head = some head ∧
      head.number = shown.number ∧ head.hash = shown.hash
  | _ => True

/-- A canonical head is followed by the fence of its block, or by a gap. -/
def FencedBy (next : Wire.Event) : Wire.Event → Prop
  | .canonicalHead head => (∃ gap, next = .gap gap) ∨
      ∃ applied view checkpoint block, next = .forkchoiceApplied applied ∧
        applied.view = some view ∧ view.head = some checkpoint ∧ head.block = some block ∧
        checkpoint.number = block.number ∧ checkpoint.hash = block.hash
  | _ => True

theorem continues_emits (block : monitor.stage ≠ .configured →
      closestBlock (blockRef start.shared.published.canonical.block) frames = blockRef monitor.head)
    (emitted : Monitor.Emits bootId monitor frame after)
    (read : frame.envelope.event = some event) :
    Continues (closestBlock (blockRef start.shared.published.canonical.block) frames) event := by
  cases emitted with
  | plain _ kind stamped =>
    cases stamped.same read
    cases event with
    | blockState | blockValidated | blockRejected | candidatesRetired => trivial
    | _ => exact kind.elim
  | headed live different _ stamped =>
    cases stamped.same read
    rw [block (by simp [live])]
    refine ⟨rfl, _, rfl, fun same => different ?_⟩
    exact B256.toVec_injective same
  | fenced ready matched stamped =>
    cases stamped.same read
    rw [block (by rcases ready with live | headed <;> simp [*])]
    exact ⟨_, _, rfl, rfl, matched.1, congrArg B256.toVec matched.2⟩
  | configured _ _ _ stamped | introduced _ _ stamped | gapped _ _ stamped
  | anchored _ _ _ stamped =>
    cases stamped.same read
    trivial

theorem headed_of_canonicalHead {head : Wire.CanonicalHead}
    (emitted : Monitor.Emits bootId monitor frame after)
    (read : frame.envelope.event = some (.canonicalHead head)) :
    after.stage = .headed ∧ head.block = some (blockRef after.head) := by
  cases emitted with
  | plain _ kind stamped =>
    cases stamped.same read
    exact kind.elim
  | headed _ _ _ stamped announced =>
    subst announced
    cases stamped.same read
    exact ⟨rfl, rfl⟩
  | fenced _ _ stamped | configured _ _ _ stamped | introduced _ _ stamped | gapped _ _ stamped
  | anchored _ _ _ stamped => cases stamped.same read

theorem fence_of_headed (headed : monitor.stage = .headed)
    (emitted : Monitor.Emits bootId monitor frame after)
    (read : frame.envelope.event = some event) :
    (∃ gap, event = .gap gap) ∨ ∃ view, event = .forkchoiceApplied { view := some (forkchoiceView view) } ∧
      Monitor.Matches view monitor.head := by
  cases emitted with
  | fenced _ matched stamped =>
    cases stamped.same read
    exact .inr ⟨_, rfl, matched⟩
  | gapped _ _ stamped =>
    cases stamped.same read
    exact .inl ⟨_, rfl⟩
  | plain other | headed other | configured other | introduced other | anchored other =>
    rw [headed] at other
    cases other

theorem fencedBy_stream {before rest : List PublishedFrame} {next : PublishedFrame}
    {following : Wire.Event} {origin : Monitor}
    (stream : Monitor.Stream bootId origin (before ++ frame :: next :: rest) monitor)
    (read : frame.envelope.event = some event)
    (readNext : next.envelope.event = some following) : FencedBy following event := by
  obtain ⟨_, _, rest⟩ := stream.split
  obtain ⟨headed, first, rest⟩ := rest.cons_inv
  obtain ⟨_, second, _⟩ := rest.cons_inv
  cases event with
  | canonicalHead head =>
    obtain ⟨stage, block⟩ := headed_of_canonicalHead first read
    rcases fence_of_headed stage second readNext with gap | ⟨view, rfl, matched⟩
    · exact .inl gap
    · exact .inr ⟨_, _, _, _, rfl, rfl, rfl, block, matched.1, congrArg B256.toVec matched.2⟩
  | _ => trivial

end

section

variable {α β : Type}

def Fences (count : Nat) (op : Op Publisher Error α) : Prop :=
  ∀ p, op.Ensures p
    (fun _ after => ∃ more, after.shared.frames = p.shared.frames ++ more ∧
      more.countP PublishedFrame.isFence = count)
    (fun _ _ => True)

variable {count : Nat} {first : Op Publisher Error α} {next : α → Op Publisher Error β}

theorem fences_bind {later : Nat} (before : Fences count first)
    (after : ∀ value, Fences later (next value)) : Fences (count + later) (first >>= next) := by
  intro p
  rw [ensures_bind]
  refine (before p).mono ?_ fun _ _ => id
  rintro value middle ⟨more, frames, counted⟩
  refine (after value middle).mono ?_ fun _ _ => id
  rintro _ final ⟨others, finalFrames, finalCounted⟩
  refine ⟨more ++ others, ?_, ?_⟩
  · rw [finalFrames, frames, List.append_assoc]
  · rw [List.countP_append, counted, finalCounted]

theorem fences_after (before : Fences 0 first) (after : ∀ value, Fences count (next value)) :
    Fences count (first >>= next) := by
  simpa using fences_bind before after

theorem fences_before (before : Fences count first) (after : ∀ value, Fences 0 (next value)) :
    Fences count (first >>= next) := by
  simpa using fences_bind before after

theorem fences_pure (value : α) : Fences 0 (Pure.pure value) := fun _ => ⟨[], by simp, rfl⟩

theorem fences_get : Fences 0 (Op.get : Op Publisher Error Publisher) := fun _ => ⟨[], by simp, rfl⟩

theorem fences_throw (failure : Error) : Fences count (Op.throw failure : Op Publisher Error α) :=
  fun _ => trivial

theorem fences_ofExcept (result : Except Error α) : Fences 0 (Op.ofExcept result) := by
  intro p
  rw [ensures_ofExcept]
  exact ⟨fun _ _ => ⟨[], by simp, rfl⟩, fun _ _ => trivial⟩

theorem fences_onStore (op : Op Store Error α) : Fences 0 (Publisher.onStore op) := by
  intro p
  unfold Publisher.onStore Ensures Op.focus
  rcases op p.store with ⟨_ | _, store⟩
  · trivial
  · exact ⟨[], by simp, rfl⟩

theorem fences_publish (env : Env) (generation : Generation) (event : Wire.Event)
    (nextState : Option (Projection × Option ForkchoiceMeta × Bool)) :
    Fences (if event.isFence then 1 else 0)
      (Publisher.onShared (Shared.publishInner env generation event nextState)) := by
  intro p
  refine (ensures_focus _ _ _).mpr ?_
  refine (Shared.publishInner_ensures env generation event nextState p.shared).mono ?_
    fun _ _ _ => trivial
  rintro _ _ ⟨_, rfl⟩
  refine ⟨_, rfl, ?_⟩
  cases fence : event.isFence <;> simp [PublishedFrame.isFence, Shared.envelope, fence]

theorem fences_publishRetired (env : Env) (generation : Generation) (hashes : List B256)
    (reason : Wire.RetirementReason) :
    Fences 0 (Publisher.onShared (Shared.publishRetired env generation hashes reason)) := by
  intro p
  refine (ensures_focus _ _ _).mpr ?_
  unfold Shared.publishRetired
  rw [ensures_bind, ensures_get]
  refine Ensures.forEach ⟨[], by simp, rfl⟩ ?_
  rintro batch _ shared ⟨more, frames, counted⟩
  rw [ensures_bind]
  refine (Shared.publishInner_ensures env generation _ none shared).mono ?_ fun _ _ _ => trivial
  rintro _ _ ⟨_, rfl⟩
  refine ⟨_, (congrArg (· ++ [_]) frames).trans (List.append_assoc ..), ?_⟩
  simp [counted, PublishedFrame.isFence, Shared.envelope, Wire.Event.isFence]

theorem fences_enforceLimits (env : Env) (projection : Projection) :
    Fences 0 (Publisher.enforceLimits env projection) := by
  apply fences_after (fences_onStore _)
  intro evicted
  apply fences_after (fences_publishRetired _ _ _ _)
  intro _
  apply fences_after (fences_onStore _)
  intro removed
  apply fences_publishRetired

theorem fences_publishCanonical (env : Env) (projection : Projection) (changedBitmap : Bytes) :
    Fences 0 (Publisher.publishCanonical env projection changedBitmap) := by
  apply fences_after fences_get
  intro p
  apply fences_after
  · apply fences_after (fences_onStore _)
    intro _
    apply fences_enforceLimits
  · intro _
    apply fences_after
    · exact fences_publish _ _ _ _
    intro _
    apply fences_after (fences_onStore _)
    intro _
    apply fences_pure

theorem fences_canonical (env : Env) (generation : Generation) (observedAt : Instant)
    (number : Option Nat) (hash : B256) :
    Fences 0 (Publisher.canonical env generation observedAt number hash) := by
  apply fences_after fences_get
  intro p
  split
  · apply fences_throw
  split
  · apply fences_pure
  split
  · apply fences_pure
  apply fences_after (fences_ofExcept _)
  intro projection
  apply fences_after (fences_ofExcept _)
  intro _
  split
  · apply fences_throw
  apply fences_after (fences_ofExcept _)
  intro _
  apply fences_after (fences_ofExcept _)
  intro changedBitmap
  apply fences_publishCanonical

theorem fences_publishForkchoice (env : Env) (applied : AppliedForkchoiceMeta) :
    Fences 1 (Publisher.publishForkchoice env applied) := by
  apply fences_after fences_get
  intro p
  split
  · apply fences_throw
  apply fences_after fences_get
  intro p
  apply fences_after (fences_ofExcept _)
  intro _
  apply fences_before (fences_publish _ _ _ _)
  intro _
  split
  · split
    · apply fences_after (fences_onStore _)
      intro _
      apply fences_after
      · apply fences_after (fences_onStore _)
        intro _
        apply fences_after (fences_publishRetired _ _ _ _)
        intro _
        apply fences_pure
      · intro _
        apply fences_pure
    · apply fences_pure
  · apply fences_pure

theorem fence_of_forkchoiceApplied {env : Env} {observedAt : Instant} {generation : Generation}
    {applied : AppliedForkchoiceMeta} {p after : Publisher}
    (later : p.snapshotAnchoredAt < observedAt)
    (handled : Publisher.handle env (.forkchoiceApplied observedAt generation applied) p =
      (.ok (), after)) :
    ∃ more, after.shared.frames = p.shared.frames ++ more ∧
      more.countP PublishedFrame.isFence = 1 := by
  have fences : (Publisher.forkchoiceApplied env generation observedAt applied).Ensures p
      (fun _ after => ∃ more, after.shared.frames = p.shared.frames ++ more ∧
        more.countP PublishedFrame.isFence = 1) (fun _ _ => True) := by
    unfold Publisher.forkchoiceApplied
    rw [ensures_bind, ensures_get]
    split
    · trivial
    rw [if_neg (not_le.mpr later)]
    split
    · exact fences_after (fences_canonical _ _ _ _ _) (fun _ => fences_publishForkchoice _ _) p
    · exact fences_publishForkchoice _ _ p
  have whole : (Publisher.handle env (.forkchoiceApplied observedAt generation applied)).Ensures p
      (fun _ after => ∃ more, after.shared.frames = p.shared.frames ++ more ∧
        more.countP PublishedFrame.isFence = 1) (fun _ _ => True) := by
    unfold Publisher.handle
    rw [ensures_bind, ensures_get, ensures_bind]
    exact fences
  unfold Ensures at whole
  rw [handled] at whole
  exact whole

end

theorem matches_of_coherent {monitor : Monitor} (coherent : monitor.Coherent)
    {view : ForkchoiceMeta} (known : monitor.published.forkchoice = some view) :
    Monitor.Matches view monitor.head := by
  have agreed := coherent.2
  cases stage : monitor.stage with
  | live | configured =>
    rw [stage, known] at agreed
    obtain ⟨_, other, same, matched⟩ := agreed
    cases same
    exact matched
  | headed | gapped =>
    rw [stage, known] at agreed
    simp at agreed

theorem accept_coherent {monitor : Monitor} (coherent : monitor.Coherent)
    (committedSequence : Nat) :
    Handshake.accept committedSequence monitor.published ≠ .error .incoherent := by
  unfold Handshake.accept
  split
  · simp
  split
  · simp
  · next view known =>
    have same := matches_of_coherent coherent known
    simp only [Monitor.Matches, Monitor.head] at same
    simp [same]

theorem canonical_chain_continuous {allowed : Publisher → Env → Input → Prop} {env : Env}
    {options : Publisher.ServiceOptions} {watchSet : WatchSet} {start : Publisher} {loop : Loop}
    (started : Publisher.startService env options watchSet = some start)
    (reached : Loop.Reaches allowed start loop) :
    History.Each (fun before frame => ∀ event, frame.envelope.event = some event →
        Continues (closestBlock (blockRef start.shared.published.canonical.block) before) event)
      loop.publisher.shared.frames ∧
    (∀ before frame next rest event following,
      loop.publisher.shared.frames = before ++ frame :: next :: rest →
      frame.envelope.event = some event → next.envelope.event = some following →
      FencedBy following event) ∧
    (∀ env observedAt generation applied after,
      loop.publisher.snapshotAnchoredAt < observedAt →
      Publisher.handle env (.forkchoiceApplied observedAt generation applied) loop.publisher =
        (.ok (), after) →
      ∃ more, after.shared.frames = loop.publisher.shared.frames ++ more ∧
        more.countP PublishedFrame.isFence = 1) ∧
    loop.publisher.shared.published = publishedAfter start loop.publisher.shared.frames ∧
    ∀ seen rest, loop.publisher.shared.frames = seen ++ rest →
      ((publishedAfter start seen).forkchoice = none ↔ unfenced seen = true) ∧
      (∀ view, (publishedAfter start seen).forkchoice = some view →
        Monitor.Matches view (publishedAfter start seen).canonical.block) ∧
      ∀ committedSequence, Handshake.accept committedSequence (publishedAfter start seen) ≠
        .error .incoherent := by
  obtain ⟨monitor, stream, tracks⟩ := Machine.streaming_reaches started reached
  change Monitor.Stream options.bootId _ loop.publisher.shared.frames monitor at stream
  have coherent := Monitor.coherent_initial started
  refine ⟨?_, ?_, ?_, ?_, ?_⟩
  · refine stream.each.mono fun before frame _ emission event read => ?_
    obtain ⟨origin, after, earlier, emitted⟩ := emission
    exact continues_emits (shows_stream coherent earlier).block emitted read
  · intro before frame next rest event following whole read readNext
    rw [whole] at stream
    exact fencedBy_stream stream read readNext
  · intro env observedAt generation applied after later handled
    exact fence_of_forkchoiceApplied later handled
  · exact tracks.published.symm.trans (Monitor.latest_stream stream).symm
  · intro seen rest whole
    rw [whole] at stream
    obtain ⟨middle, earlier, _⟩ := stream.split
    have shows := shows_stream coherent earlier
    rw [show publishedAfter start seen = middle.published from Monitor.latest_stream earlier]
    have settled := Monitor.coherent_stream coherent earlier
    exact ⟨shows.fence, fun view known => matches_of_coherent settled known,
      accept_coherent settled⟩

theorem canonical_chain_continuous_sample :
    ∃ loop, Loop.Reaches (fun _ _ _ => True) Sample.start loop ∧
      loop.publisher.shared.frames.length = 2 ∧
      History.Each (fun before frame => ∀ event, frame.envelope.event = some event →
          Continues (closestBlock (blockRef (Sample.block 1)) before) event)
        loop.publisher.shared.frames := by
  have reached : Loop.Reaches (fun _ _ _ => True) Sample.start
      (.settle "publisher_error"
        (Publisher.handle (Sample.env 1 0) (Sample.applied 2 1) Sample.start)) :=
    .single ⟨Sample.env 1 0, .event (Sample.applied 2 1), trivial, rfl⟩
  refine ⟨_, reached, by decide +kernel, ?_⟩
  exact (canonical_chain_continuous Sample.started reached).1

end Statefeed
