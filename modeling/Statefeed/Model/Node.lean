import Statefeed.Model.Loop
import Statefeed.Model.Waiting

set_option autoImplicit false

/-!
# The engine and the publisher of one node (`reth_integration.rs`)

The lifecycle callbacks of the engine are serialized by its event loop. They update the tracker,
stamp an event and try to enqueue it, while the publisher thread takes events from the queue and
reads the tracker in `load_latest`. The two threads take turns in any order, one shared operation
at a time. The provider is not part of the state: each of its answers is free, except that the
state of a block is that block's.
-/

namespace Statefeed

structure TrackedForkchoice where
  revision : Nat
  view : Option AppliedForkchoiceMeta

structure AppliedForkchoiceTracker where
  nextRevision : Nat
  latest : TrackedForkchoice

namespace AppliedForkchoiceTracker

def new : AppliedForkchoiceTracker where
  nextRevision := 0
  latest := { revision := 0, view := none }

-- The counter has 64 bits. The engine is the only writer and readers see the store alone.
def update (view : Option AppliedForkchoiceMeta) (tracker : AppliedForkchoiceTracker) :
    AppliedForkchoiceTracker :=
  let revision := (tracker.nextRevision + 1) % 2 ^ 64
  { nextRevision := revision, latest := { revision, view } }

end AppliedForkchoiceTracker

def maxCanonicalSnapshotAttempts : Nat := 4

inductive Selected where
  | applied (view : AppliedForkchoiceMeta)
  | provider (best : CheckpointMeta) (safe finalized : Option CheckpointMeta)

def Selected.hash : Selected → B256
  | applied view => view.headHash
  | provider best _ _ => best.hash

def Selected.forkchoice (number : Nat) : Selected → ForkchoiceMeta
  | applied view => view.resolve number
  | provider head safe finalized => { head, safe, finalized }

inductive Reading where
  | chainInfo
  | safe (best : CheckpointMeta)
  | finalized (best : CheckpointMeta) (safe : Option CheckpointMeta)
  | state (selected : Selected)
  -- The state could not be read: has anything changed meanwhile?
  | retracking (selected : Selected)
  | rechaining (best : CheckpointMeta) (changed : Bool)
  | clock (selected : Selected) (projection : Projection)

def Reading.first : Option AppliedForkchoiceMeta → Reading
  | some view => .state (.applied view)
  | none => .chainInfo

inductive Confirming where
  | tracker
  | chainInfo (unchanged : Bool)
  | safe (unchanged : Bool)
  | finalized (unchanged : Bool)

structure Attempt where
  number : Nat
  tracked : TrackedForkchoice

structure Draft where
  selected : Selected
  projection : Projection
  anchoredAt : Instant

def Draft.snapshot (draft : Draft) : CanonicalSnapshot where
  projection := draft.projection
  anchoredAt := draft.anchoredAt
  forkchoice := draft.selected.forkchoice draft.projection.block.number

inductive LoadLatest where
  | idle
  | tracking (number : Nat)
  | reading (attempt : Attempt) (next : Reading)
  | confirming (attempt : Attempt) (draft : Draft) (next : Confirming)
  | loaded (snapshot : CanonicalSnapshot) (revision : Nat)
  | failed

namespace LoadLatest

def retry (attempt : Attempt) (changed : Bool) : LoadLatest :=
  if changed ∧ attempt.number < maxCanonicalSnapshotAttempts then .tracking (attempt.number + 1)
  else .failed

def conclude (attempt : Attempt) (draft : Draft) (unchanged : Bool) : LoadLatest :=
  if unchanged then .loaded draft.snapshot attempt.tracked.revision else retry attempt true

/-- Reads whose failure `load_latest` returns at once. -/
inductive Fallible : LoadLatest → Prop
  | chainInfo {attempt : Attempt} : Fallible (.reading attempt .chainInfo)
  | safe {attempt : Attempt} {best : CheckpointMeta} : Fallible (.reading attempt (.safe best))
  | finalized {attempt : Attempt} {best : CheckpointMeta} {safe : Option CheckpointMeta} :
      Fallible (.reading attempt (.finalized best safe))
  | rechaining {attempt : Attempt} {best : CheckpointMeta} {changed : Bool} :
      Fallible (.reading attempt (.rechaining best changed))
  | confirming {attempt : Attempt} {draft : Draft} {next : Confirming}
      (provider : next ≠ .tracker) : Fallible (.confirming attempt draft next)

/-- One read of `load_latest`, when `latest` is tracked and the clock shows `now`. -/
inductive Reads (latest : TrackedForkchoice) (now : Instant) : LoadLatest → LoadLatest → Prop
  | track {number : Nat} :
      Reads latest now (.tracking number) (.reading ⟨number, latest⟩ (.first latest.view))
  | chainInfo {attempt : Attempt} (best : CheckpointMeta) :
      Reads latest now (.reading attempt .chainInfo) (.reading attempt (.safe best))
  | safe {attempt : Attempt} {best : CheckpointMeta} (safe : Option CheckpointMeta) :
      Reads latest now (.reading attempt (.safe best)) (.reading attempt (.finalized best safe))
  | finalized {attempt : Attempt} {best : CheckpointMeta} {safe : Option CheckpointMeta}
      (finalized : Option CheckpointMeta) :
      Reads latest now (.reading attempt (.finalized best safe))
        (.reading attempt (.state (.provider best safe finalized)))
  | state {attempt : Attempt} {selected : Selected} {projection : Projection}
      (identity : projection.block.hash = selected.hash) :
      Reads latest now (.reading attempt (.state selected))
        (.reading attempt (.clock selected projection))
  | stateFails {attempt : Attempt} {selected : Selected} :
      Reads latest now (.reading attempt (.state selected)) (.reading attempt (.retracking selected))
  | retrackApplied {attempt : Attempt} {view : AppliedForkchoiceMeta} :
      Reads latest now (.reading attempt (.retracking (.applied view)))
        (retry attempt (latest.revision ≠ attempt.tracked.revision))
  | retrackProvider {attempt : Attempt} {best : CheckpointMeta}
      {safe finalized : Option CheckpointMeta} :
      Reads latest now (.reading attempt (.retracking (.provider best safe finalized)))
        (.reading attempt (.rechaining best (latest.revision ≠ attempt.tracked.revision)))
  | rechain {attempt : Attempt} {best : CheckpointMeta} {changed : Bool}
      (confirmed : CheckpointMeta) :
      Reads latest now (.reading attempt (.rechaining best changed))
        (retry attempt (changed || confirmed.hash ≠ best.hash))
  | clock {attempt : Attempt} {selected : Selected} {projection : Projection} :
      Reads latest now (.reading attempt (.clock selected projection))
        (.confirming attempt ⟨selected, projection, now⟩ .tracker)
  | confirmApplied {attempt : Attempt} {draft : Draft} {view : AppliedForkchoiceMeta}
      (selected : draft.selected = .applied view) :
      Reads latest now (.confirming attempt draft .tracker)
        (conclude attempt draft (latest.revision = attempt.tracked.revision))
  | confirmProvider {attempt : Attempt} {draft : Draft} {best : CheckpointMeta}
      {safe finalized : Option CheckpointMeta}
      (selected : draft.selected = .provider best safe finalized) :
      Reads latest now (.confirming attempt draft .tracker)
        (.confirming attempt draft
          (.chainInfo (latest.revision = attempt.tracked.revision && latest.view.isNone)))
  | confirmChainInfo {attempt : Attempt} {draft : Draft} {best : CheckpointMeta}
      {safe finalized : Option CheckpointMeta} {unchanged : Bool}
      (selected : draft.selected = .provider best safe finalized) (confirmed : CheckpointMeta) :
      Reads latest now (.confirming attempt draft (.chainInfo unchanged))
        (.confirming attempt draft (.safe (unchanged && confirmed.hash = best.hash)))
  | confirmSafe {attempt : Attempt} {draft : Draft} {best : CheckpointMeta}
      {safe finalized : Option CheckpointMeta} {unchanged : Bool}
      (selected : draft.selected = .provider best safe finalized)
      (confirmed : Option CheckpointMeta) :
      Reads latest now (.confirming attempt draft (.safe unchanged))
        (.confirming attempt draft (.finalized (unchanged && confirmed = safe)))
  | confirmFinalized {attempt : Attempt} {draft : Draft} {best : CheckpointMeta}
      {safe finalized : Option CheckpointMeta} {unchanged : Bool}
      (selected : draft.selected = .provider best safe finalized)
      (confirmed : Option CheckpointMeta) :
      Reads latest now (.confirming attempt draft (.finalized unchanged))
        (conclude attempt draft (unchanged && confirmed = finalized))
  | fail {load : LoadLatest} (fallible : load.Fallible) : Reads latest now load .failed

/-- What the call returned; `none` also stands for a call that has not been made. -/
def result : LoadLatest → Option CanonicalSnapshot
  | loaded snapshot _ => some snapshot
  | _ => none

def revision : LoadLatest → Nat
  | loaded _ revision => revision
  | _ => 0

inductive Returned : LoadLatest → Prop
  | loaded {snapshot : CanonicalSnapshot} {revision : Nat} : Returned (.loaded snapshot revision)
  | failed : Returned .failed

def confirmed : LoadLatest → Option (Nat × Instant)
  | loaded snapshot revision => some (revision, snapshot.anchoredAt)
  | confirming attempt draft (.chainInfo true) | confirming attempt draft (.safe true)
  | confirming attempt draft (.finalized true) => some (attempt.tracked.revision, draft.anchoredAt)
  | _ => none

end LoadLatest

inductive Lifecycle where
  | forkchoiceApplied (view : AppliedForkchoiceMeta)
  | canonicalStateReset (head : CheckpointMeta)

namespace Lifecycle

def view : Lifecycle → Option AppliedForkchoiceMeta
  | forkchoiceApplied view => some view
  | canonicalStateReset _ => none

def event (observedAt : Instant) (generation : Generation) : Lifecycle → FeedEvent
  | forkchoiceApplied view => .forkchoiceApplied observedAt generation view
  | canonicalStateReset head => .canonicalStateReset observedAt generation head

end Lifecycle

def FeedEvent.isLifecycle : FeedEvent → Bool
  | forkchoiceApplied .. | canonicalStateReset .. => true
  | _ => false

/-- Where `on_forkchoice_applied` or `on_canonical_state_reset` is. -/
inductive CallbackStage where
  | idle
  | updated (lifecycle : Lifecycle)
  | stamped (lifecycle : Lifecycle) (observedAt : Instant)
  | sending (call : Nat)

def PublishedFrame.reflects (callback revision : Nat) (frame : PublishedFrame) : Option Nat :=
  match frame.envelope.event with
  | some (.snapshot _) => some revision
  | some (.canonicalHead _) | some (.forkchoiceApplied _) => some callback
  | _ => none

def PublishedFrame.anchors (frame : PublishedFrame) : Bool :=
  match frame.envelope.event with
  | some (.snapshot _) => true
  | _ => false

/-- The frames that an operation has sent. -/
def Publisher.sent (before after : Publisher) : List PublishedFrame :=
  after.shared.frames.drop before.shared.frames.length

namespace ThreadStage

def event : ThreadStage → Option (Nat × FeedEvent)
  | taking (.handle (.data call event)) | recovering (.handle (.data call event))
  | handling (.data call event) => some (call, event)
  | _ => none

def resumed : ThreadStage → ThreadStage
  | recovering resume => taking resume
  | maintenance => control
  | handling _ | parked => top
  | stage => stage

inductive Concludes : ThreadStage → ThreadStage → Prop
  | recovered {resume : Resume} : Concludes (.recovering resume) (.taking resume)
  | maintained : Concludes .parked .top
  | handled {event : PublisherEvent} : Concludes (.handling event) .top

inductive Runs : ThreadStage → Control → Input → Prop
  | event {call : Nat} {event : FeedEvent} : Runs (.handling (.data call event)) .idle (.event event)
  | activation {watchSet : WatchSet} : Runs (.handling .control) .idle (.activation watchSet)
  | maintenance : Runs .maintenance .idle .maintenance
  | parked : Runs .parked .idle .maintenance
  | retry {stage : ThreadStage} {gapAnnounced : Bool} {reason : String}
      (running : stage ≠ .stopped) : Runs stage (.recovering gapAnnounced reason) .retry

end ThreadStage

def Loop.attend (loop : Loop) : ThreadStage → Loop
  | .recovering _ => beginRecovery "engine_queue_overflow" loop.publisher
  | _ => loop

structure Node where
  clock : Instant
  tracker : AppliedForkchoiceTracker
  callback : CallbackStage
  thread : PublisherThread
  -- Nothing before `start_service` has its snapshot.
  loop : Option Loop
  load : LoadLatest
  -- What follows is never read: the number of lifecycle callbacks, which of them made a call of
  -- `try_send`, the revision of the last snapshot, and what the frames published reflect.
  callbacks : Nat
  numberOf : Nat → Nat
  anchorRevision : Nat
  reflected : List Nat

namespace Node

def start : Node where
  clock := 0
  tracker := .new
  callback := .idle
  thread := .start
  loop := none
  load := .idle
  callbacks := 0
  numberOf _ := 0
  anchorRevision := 0
  reflected := []

def activeWatchSet (initial : WatchSet) (node : Node) : WatchSet :=
  match node.loop with
  | some loop => loop.publisher.activeWatchSet
  | none => initial

def withFeed (feed : FeedQueue) (node : Node) : Node :=
  { node with thread := { node.thread with feed } }

/-- An operation is under way, so it may call `load_latest`. -/
def Operating (node : Node) : Prop :=
  match node.loop with
  | none => True
  | some loop => node.thread.stage ≠ .stopped ∧
      (loop.control ≠ .idle ∨ ∃ event, node.thread.stage = .handling event)

def heldNumber (node : Node) : Nat :=
  (node.thread.stage.event.map fun entry => node.numberOf entry.1).getD 0

/-- The node after an operation that turned `before` into `after`. What it sent is added when it
returns: no one but the operation itself can tell. -/
def complete (before after : Loop) (node : Node) : Node :=
  let sent := Publisher.sent before.publisher after.publisher
  { node with
    thread :=
      { node.thread with
        stage := if after.control = .idle then node.thread.stage.resumed else node.thread.stage }
    loop := some after
    load := .idle
    anchorRevision :=
      if sent.any PublishedFrame.anchors then node.load.revision else node.anchorRevision
    reflected := node.reflected ++ sent.filterMap (PublishedFrame.reflects node.heldNumber
      node.load.revision) }

inductive Step (capacity : Nat) (options : Publisher.ServiceOptions) (watchSet : WatchSet) :
    Node → Node → Prop
  | tick {node : Node} {later : Instant} (forward : node.clock ≤ later) :
      Step capacity options watchSet node { node with clock := later }
  | update {node : Node} (lifecycle : Lifecycle) (idle : node.callback = .idle) :
      Step capacity options watchSet node
        { node with
          tracker := node.tracker.update lifecycle.view
          callback := .updated lifecycle
          callbacks := node.callbacks + 1 }
  | stamp {node : Node} {lifecycle : Lifecycle} (updated : node.callback = .updated lifecycle) :
      Step capacity options watchSet node { node with callback := .stamped lifecycle node.clock }
  | send {node : Node} {lifecycle : Lifecycle} {observedAt : Instant} {call : Nat}
      (stamped : node.callback = .stamped lifecycle observedAt)
      (fresh : node.thread.feed.calls call = .idle) :
      Step capacity options watchSet node
        { node.withFeed (node.thread.feed.advance call (.reserving
            (lifecycle.event observedAt (node.activeWatchSet watchSet).generation))) with
          callback := .sending call
          numberOf := Function.update node.numberOf call node.callbacks }
  | return {node : Node} {call : Nat} (sending : node.callback = .sending call)
      (finished : node.thread.feed.calls call = .finished) :
      Step capacity options watchSet node { node with callback := .idle }
  -- Events of blocks are enqueued by other callbacks, at any time.
  | candidate {node : Node} {call : Nat} {event : FeedEvent} (plain : event.isLifecycle = false)
      (fresh : node.thread.feed.calls call = .idle) :
      Step capacity options watchSet node
        (node.withFeed (node.thread.feed.advance call (.reserving event)))
  | produce {node : Node} {feed : FeedQueue}
      (produces : FeedQueue.Produces capacity node.thread.feed feed)
      (continues : ∀ call, node.thread.feed.calls call = .idle → feed.calls call = .idle) :
      Step capacity options watchSet node (node.withFeed feed)
  | load {node : Node} (free : node.load = .idle) (operating : node.Operating) :
      Step capacity options watchSet node { node with load := .tracking 1 }
  | read {node : Node} {load : LoadLatest}
      (reads : LoadLatest.Reads node.tracker.latest node.clock node.load load) :
      Step capacity options watchSet node { node with load }
  | serve {node : Node} {env : Env} {snapshot : CanonicalSnapshot} {revision : Nat}
      {publisher : Publisher} (starting : node.loop = none)
      (loaded : node.load = .loaded snapshot revision)
      (answer : ∀ watchSet, env.loadLatest watchSet = some snapshot)
      (started : Publisher.startService env options watchSet = some publisher) :
      Step capacity options watchSet node
        { node with
          loop := some (.start publisher)
          load := .idle
          anchorRevision := revision
          reflected := [revision] }
  | attend {node : Node} {loop : Loop} {thread : PublisherThread} (running : node.loop = some loop)
      (idle : loop.control = .idle) (free : node.load = .idle)
      (attends : PublisherThread.Attends node.thread thread)
      (polls : thread.feed = node.thread.feed →
        ¬ ThreadStage.Concludes node.thread.stage thread.stage) :
      Step capacity options watchSet node { node with thread, loop := some (loop.attend thread.stage) }
  -- A round that does not ask for a snapshot goes on without one.
  | round {node : Node} {loop after : Loop} {env : Env} {input : Input}
      (running : node.loop = some loop) (runs : node.thread.stage.Runs loop.control input)
      (answer : ∀ watchSet, env.loadLatest watchSet = node.load.result)
      (returned : node.load.Returned ∨ node.load = .idle ∧
        ∀ loadLatest, Loop.next { env with loadLatest } input loop = Loop.next env input loop)
      (source : ∀ watchSet hash projection, env.loadAt watchSet hash = some projection →
        projection.block.hash = hash)
      (next : Loop.next env input loop = some after) :
      Step capacity options watchSet node (node.complete loop after)
  | stop {node : Node} {loop : Loop} (running : node.loop = some loop) (free : node.load = .idle)
      (breaks : node.thread.stage.Breaks) :
      Step capacity options watchSet node
        { node with thread := { feed := node.thread.feed.disconnect, stage := .stopped } }

end Node

end Statefeed
