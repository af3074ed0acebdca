import Statefeed.Enqueue
import Statefeed.Library.Follower
import Statefeed.Reflection

set_option autoImplicit false

namespace Statefeed

open Follower (Stamp)

def TrySend.isRefused : TrySend → Bool
  | .refused | .overflowed => true
  | _ => false

def CallbackStage.inFlight (number : Nat) (calls : Nat → TrySend) : CallbackStage → Option Stamp
  | .stamped _ observedAt => some ⟨number, observedAt⟩
  | .sending call => (calls call).event.map fun event => ⟨number, event.observedAt⟩
  | _ => none

def CallbackStage.refused (calls : Nat → TrySend) : CallbackStage → Bool
  | .sending call => (calls call).isRefused
  | _ => false

def LoadLatest.progress : LoadLatest → Follower.Reading
  | .reading attempt _ => .noted attempt.tracked.revision
  | .confirming attempt draft .tracker => .timed ⟨attempt.tracked.revision, draft.anchoredAt⟩
  | load =>
    match load.confirmed with
    | some (revision, anchoredAt) => .accepted ⟨revision, anchoredAt⟩
    | none => .idle

def ThreadStage.isStopped : ThreadStage → Bool
  | .stopped => true
  | _ => false

namespace Node

def notice (numberOf : Nat → Nat) (entry : Nat × FeedEvent) : Option Stamp :=
  if entry.2.isLifecycle then some ⟨numberOf entry.1, entry.2.observedAt⟩ else none

def failed (node : Node) : Bool :=
  match node.thread.stage, node.loop with
  | .handling _, some ⟨_, .recovering _ _⟩ => true
  | _, _ => false

def follower (node : Node) : Follower where
  clock := node.clock
  count := node.callbacks
  unstamped :=
    match node.callback with
    | .updated _ => true
    | _ => false
  hand := if node.failed then none else node.thread.stage.event.bind (notice node.numberOf)
  channel := node.thread.feed.queue.filterMap (notice node.numberOf) ++
    (node.callback.inFlight node.callbacks node.thread.feed.calls).toList
  loss := droppedOf node.thread.feed.enqueueState ≠ 0 ||
    node.callback.refused node.thread.feed.calls
  owing :=
    match node.loop with
    | some ⟨_, .idle⟩ => false
    | _ => true
  stopped := node.thread.stage.isStopped
  reading := node.load.progress
  anchor := node.loop.map fun loop => ⟨node.anchorRevision, loop.publisher.snapshotAnchoredAt⟩
  reflected := node.reflected

def Timely (node : Node) : Prop :=
  (∀ loop, node.loop = some loop → node.anchorRevision < node.callbacks →
    node.clock ≠ loop.publisher.snapshotAnchoredAt) ∧
  ∀ revision anchoredAt, node.load.confirmed = some (revision, anchoredAt) →
    revision < node.callbacks → node.clock ≠ anchoredAt

structure Coherent (node : Node) : Prop where
  next : node.tracker.nextRevision = node.callbacks
  latest : node.tracker.latest.revision = node.callbacks
  owner : ∀ call event, (node.thread.feed.calls call).event = some event →
    event.isLifecycle = true → node.callback = .sending call
  begun : ∀ call, node.callback = .sending call → node.thread.feed.calls call ≠ .idle
  number : ∀ call, node.callback = .sending call → node.numberOf call = node.callbacks
  lifecycle : ∀ call event, node.callback = .sending call →
    (node.thread.feed.calls call).event = some event → event.isLifecycle = true
  used : ∀ entry, entry ∈ node.thread.feed.queue ∨ node.thread.stage.event = some entry →
    node.thread.feed.calls entry.1 ≠ .idle
  connected : node.thread.feed.connected = false → node.thread.stage = .stopped
  starting : node.loop = none → node.thread.stage = .top ∧ node.reflected = []

theorem coherent_start : Coherent start where
  next := rfl
  latest := rfl
  owner call event under := by cases under
  begun call sending := by cases sending
  number call sending := by cases sending
  lifecycle call event sending := by cases sending
  used entry held := by simp [start, PublisherThread.start, FeedQueue.start, ThreadStage.event] at held
  connected gone := by cases gone
  starting _ := ⟨rfl, rfl⟩

theorem follower_start : start.follower = Follower.start := by
  rfl

section

variable {node : Node} {call : Nat}

theorem inFlight_advance {callback : CallbackStage} (other : callback ≠ .sending call) (number : Nat)
    (calls : Nat → TrySend) (stage : TrySend) :
    callback.inFlight number (Function.update calls call stage) = callback.inFlight number calls := by
  cases callback with
  | sending own =>
    have different : own ≠ call := fun same => other (same ▸ rfl)
    simp [CallbackStage.inFlight, Function.update_of_ne different]
  | _ => rfl

theorem refused_advance {callback : CallbackStage} (other : callback ≠ .sending call)
    (calls : Nat → TrySend) (stage : TrySend) :
    callback.refused (Function.update calls call stage) = callback.refused calls := by
  cases callback with
  | sending own =>
    have different : own ≠ call := fun same => other (same ▸ rfl)
    simp [CallbackStage.refused, Function.update_of_ne different]
  | _ => rfl

theorem notice_update {numberOf : Nat → Nat} {entry : Nat × FeedEvent} (other : entry.1 ≠ call)
    (number : Nat) : notice (Function.update numberOf call number) entry = notice numberOf entry := by
  unfold notice
  rw [Function.update_of_ne other]

def Follows (distinct : Prop) (node after : Node) : Prop :=
  after.follower = node.follower ∨ Follower.Step distinct node.follower after.follower

variable {distinct : Prop}

theorem Follows.of_step {after : Node} {reached : Follower}
    (step : Follower.Step distinct node.follower reached) (same : after.follower = reached) :
    Follows distinct node after :=
  .inr (same ▸ step)

theorem follows_update (lifecycle : Lifecycle) (idle : node.callback = .idle) :
    Follows distinct node
      { node with
        tracker := node.tracker.update lifecycle.view
        callback := .updated lifecycle
        callbacks := node.callbacks + 1 } := by
  cases node
  cases idle
  exact .inr (.update rfl)

theorem confirms_follower {mark : Stamp} (confirms : node.follower.Confirms mark) :
    (∃ loop, node.loop = some loop ∧ node.anchorRevision = mark.number ∧
      loop.publisher.snapshotAnchoredAt = mark.instant) ∨
      node.load.confirmed = some (mark.number, mark.instant) := by
  rcases confirms with anchored | accepted
  · obtain ⟨loop, running, rfl⟩ := Option.map_eq_some_iff.mp anchored
    exact .inl ⟨loop, running, rfl, rfl⟩
  · refine .inr ?_
    change node.load.progress = _ at accepted
    unfold LoadLatest.progress at accepted
    split at accepted
    · cases accepted
    · cases accepted
    · split at accepted
      · next confirmed =>
        cases accepted
        exact confirmed
      · cases accepted

theorem Timely.clear (timely : node.Timely) : node.follower.Clear := by
  intro mark confirms earlier
  rcases confirms_follower confirms with ⟨loop, running, number, instant⟩ | confirmed
  · rw [← instant]
    exact timely.1 loop running (number ▸ earlier)
  · exact timely.2 _ _ confirmed earlier

theorem follows_stamp {lifecycle : Lifecycle} (updated : node.callback = .updated lifecycle)
    (timely : distinct → node.Timely) :
    Follows distinct node { node with callback := .stamped lifecycle node.clock } := by
  have waiting : node.follower.unstamped = true := by simp [follower, updated]
  refine .of_step (.stamp waiting fun strict => (timely strict).clear)
    (Follower.ext rfl rfl rfl rfl ?_ ?_ rfl rfl rfl rfl rfl)
  · simp [follower, CallbackStage.inFlight, updated]
  · simp [follower, CallbackStage.refused, updated]

theorem follows_send (coherent : node.Coherent) {lifecycle : Lifecycle} {observedAt : Instant}
    {generation : Generation} (stamped : node.callback = .stamped lifecycle observedAt)
    (fresh : node.thread.feed.calls call = .idle) :
    Follows distinct node
      { node.withFeed (node.thread.feed.advance call
          (.reserving (lifecycle.event observedAt generation))) with
        callback := .sending call
        numberOf := Function.update node.numberOf call node.callbacks } := by
  have other (entry : Nat × FeedEvent) (held : entry ∈ node.thread.feed.queue ∨
      node.thread.stage.event = some entry) : entry.1 ≠ call := by
    intro same
    exact coherent.used entry held (same ▸ fresh)
  have observed : (lifecycle.event observedAt generation).observedAt = observedAt := by
    cases lifecycle <;> rfl
  refine .inl (Follower.ext rfl rfl ?_ ?_ ?_ ?_ rfl rfl rfl rfl rfl)
  · simp [follower, stamped]
  · change (if _ then none else node.thread.stage.event.bind _) =
      if _ then none else node.thread.stage.event.bind _
    congr 1
    cases held : node.thread.stage.event with
    | none => rfl
    | some entry => exact notice_update (other entry (.inr held)) _
  · have queued : node.thread.feed.queue.filterMap
        (notice (Function.update node.numberOf call node.callbacks)) =
          node.thread.feed.queue.filterMap (notice node.numberOf) :=
      List.filterMap_congr fun entry member => notice_update (other entry (.inl member)) _
    simp [follower, withFeed, FeedQueue.advance, CallbackStage.inFlight, TrySend.event, queued,
      stamped, observed]
  · simp [follower, withFeed, FeedQueue.advance, CallbackStage.refused, TrySend.isRefused, stamped]

theorem follows_return (sending : node.callback = .sending call)
    (finished : node.thread.feed.calls call = .finished) :
    Follows distinct node { node with callback := .idle } := by
  refine .inl (Follower.ext rfl rfl ?_ rfl ?_ ?_ rfl rfl rfl rfl rfl)
  · simp [follower, sending]
  · simp [follower, CallbackStage.inFlight, TrySend.event, sending, finished]
  · simp [follower, CallbackStage.refused, TrySend.isRefused, sending, finished]

inductive Moves (feed after : FeedQueue) (call : Nat) (next : TrySend) : Prop
  | goes (event : next.event = (feed.calls call).event)
      (refused : next.isRefused = (feed.calls call).isRefused) (queue : after.queue = feed.queue)
      (dropped : droppedOf after.enqueueState = droppedOf feed.enqueueState)
  | refuses {event : FeedEvent} (under : (feed.calls call).event = some event)
      (ended : next.event = none) (refused : next.isRefused = true) (queue : after.queue = feed.queue)
      (dropped : droppedOf after.enqueueState = droppedOf feed.enqueueState)
  | records (refused : (feed.calls call).isRefused = true) (under : (feed.calls call).event = none)
      (ended : next.event = none) (queue : after.queue = feed.queue)
      (dropped : droppedOf after.enqueueState ≠ 0)
  | queues {event : FeedEvent} (under : (feed.calls call).event = some event)
      (ended : next.event = none) (accepted : (feed.calls call).isRefused = false)
      (done : next.isRefused = false) (queue : after.queue = feed.queue ++ [(call, event)])
      (dropped : droppedOf after.enqueueState = droppedOf feed.enqueueState)
  | vanishes {event : FeedEvent} (under : (feed.calls call).event = some event)
      (ended : next.event = none) (accepted : (feed.calls call).isRefused = false)
      (done : next.isRefused = false) (gone : feed.connected = false)
      (queue : after.queue = feed.queue)
      (dropped : droppedOf after.enqueueState = droppedOf feed.enqueueState)

theorem droppedOf_recordDrop_ne_zero (state : EnqueueState) : droppedOf (recordDrop state) ≠ 0 := by
  rw [droppedOf_recordDrop]
  unfold maxDropped
  omega

theorem exists_moves {capacity : Nat} {feed after : FeedQueue}
    (produces : FeedQueue.Produces capacity feed after)
    (continues : ∀ call, feed.calls call = .idle → after.calls call = .idle) :
    ∃ call next, after.calls = Function.update feed.calls call next ∧
      Moves feed after call next ∧ next ≠ .idle ∧ after.connected = feed.connected := by
  cases produces with
  | @call call event next =>
    have idle := continues call next
    simp [FeedQueue.advance] at idle
  | @reserve call event next free =>
    refine ⟨call, _, rfl, .goes ?_ ?_ rfl ?_, by simp, rfl⟩
    · rw [next]
      rfl
    · rw [next]
      rfl
    · have none : droppedOf enqueueLocked = droppedOf 0 := by decide
      rw [free]
      exact none
  | @refuse call event next =>
    exact ⟨call, _, rfl, .refuses (by rw [next]; rfl) rfl rfl rfl rfl, by simp, rfl⟩
  | @dropRefused call next =>
    exact ⟨call, _, rfl, .records (by rw [next]; rfl) (by rw [next]; rfl) rfl rfl
      (droppedOf_recordDrop_ne_zero _), by simp, rfl⟩
  | @send call event next =>
    exact ⟨call, _, rfl, .queues (by rw [next]; rfl) rfl (by rw [next]; rfl) rfl rfl rfl, by simp, rfl⟩
  | @overflow call event next =>
    exact ⟨call, _, rfl, .refuses (by rw [next]; rfl) rfl rfl rfl rfl, by simp, rfl⟩
  | @disconnected call event next gone =>
    exact ⟨call, _, rfl, .vanishes (by rw [next]; rfl) rfl (by rw [next]; rfl) rfl gone rfl rfl,
      by simp, rfl⟩
  | @dropOverflowed call next =>
    exact ⟨call, _, rfl, .records (by rw [next]; rfl) (by rw [next]; rfl) rfl rfl
      (droppedOf_recordDrop_ne_zero _), by simp, rfl⟩
  | @release call next =>
    refine ⟨call, _, rfl, .goes ?_ ?_ rfl (droppedOf_released _), ?_, rfl⟩
    · rw [next]
      split <;> rfl
    · rw [next]
      split <;> rfl
    · split <;> simp
  | @notify call next =>
    exact ⟨call, _, rfl, .goes (by rw [next]; rfl) (by rw [next]; rfl) rfl rfl, by simp, rfl⟩

theorem follows_other (coherent : node.Coherent) {feed : FeedQueue} {next : TrySend}
    (other : node.callback ≠ .sending call)
    (calls : feed.calls = Function.update node.thread.feed.calls call next)
    (moves : Moves node.thread.feed feed call next) : Follows distinct node (node.withFeed feed) := by
  have channel (queue : feed.queue.filterMap (notice node.numberOf) =
      node.thread.feed.queue.filterMap (notice node.numberOf)) :
      (node.withFeed feed).follower.channel = node.follower.channel := by
    simp [follower, withFeed, queue, calls, inFlight_advance other]
  have kept (queue : feed.queue.filterMap (notice node.numberOf) =
      node.thread.feed.queue.filterMap (notice node.numberOf))
      (dropped : droppedOf feed.enqueueState = droppedOf node.thread.feed.enqueueState) :
      Follows distinct node (node.withFeed feed) := by
    refine .inl (Follower.ext rfl rfl rfl rfl (channel queue) ?_ rfl rfl rfl rfl rfl)
    simp [follower, withFeed, dropped, calls, refused_advance other]
  cases moves with
  | goes _ _ queue dropped => exact kept (by rw [queue]) dropped
  | refuses _ _ _ queue dropped => exact kept (by rw [queue]) dropped
  | records _ _ _ queue dropped =>
    refine .of_step .overflow (Follower.ext rfl rfl rfl rfl (channel (by rw [queue])) ?_ rfl rfl rfl
      rfl rfl)
    simp [follower, withFeed, dropped]
  | @queues event under _ _ _ queue dropped =>
    -- Only the callback under way sends a lifecycle event.
    have plain : event.isLifecycle = false := by
      by_contra lifecycle
      exact other (coherent.owner call event under (by simpa using lifecycle))
    exact kept (by simp [queue, notice, plain]) dropped
  | vanishes _ _ _ _ _ queue dropped => exact kept (by rw [queue]) dropped

theorem follows_own (coherent : node.Coherent) {feed : FeedQueue} {next : TrySend}
    (own : node.callback = .sending call)
    (calls : feed.calls = Function.update node.thread.feed.calls call next)
    (moves : Moves node.thread.feed feed call next) : Follows distinct node (node.withFeed feed) := by
  have sent {event : FeedEvent} (under : (node.thread.feed.calls call).event = some event) :
      node.follower.channel = node.thread.feed.queue.filterMap (notice node.numberOf) ++
        [⟨node.callbacks, event.observedAt⟩] := by
    simp [follower, CallbackStage.inFlight, own, under]
  have rest (ended : next.event = none) : (node.withFeed feed).follower.channel =
      feed.queue.filterMap (notice node.numberOf) := by
    simp [follower, withFeed, CallbackStage.inFlight, own, calls, ended]
  cases moves with
  | goes event refused queue dropped =>
    refine .inl (Follower.ext rfl rfl rfl rfl ?_ ?_ rfl rfl rfl rfl rfl)
    · simp [follower, withFeed, CallbackStage.inFlight, own, calls, event, queue]
    · simp [follower, withFeed, CallbackStage.refused, own, calls, refused, dropped]
  | refuses under ended refused queue =>
    -- The event will not be queued. The drop is recorded later, the notice is lost now.
    refine .of_step (.lose (sent under)) (Follower.ext rfl rfl rfl rfl ?_ ?_ rfl rfl rfl rfl rfl)
    · rw [rest ended, queue]
    · simp [follower, withFeed, CallbackStage.refused, own, calls, refused]
  | records refused under ended queue dropped =>
    -- The refusal was a loss already.
    refine .inl (Follower.ext rfl rfl rfl rfl ?_ ?_ rfl rfl rfl rfl rfl)
    · simp [follower, withFeed, CallbackStage.inFlight, own, calls, under, ended, queue]
    · simp [follower, withFeed, CallbackStage.refused, own, refused, dropped]
  | @queues event under ended accepted done queue dropped =>
    -- The notice is in the channel since its stamp.
    refine .inl (Follower.ext rfl rfl rfl rfl ?_ ?_ rfl rfl rfl rfl rfl)
    · have lifecycle := coherent.lifecycle call event own under
      rw [rest ended, sent under, queue, List.filterMap_append]
      simp [notice, lifecycle, coherent.number call own]
    · simp [follower, withFeed, CallbackStage.refused, own, calls, accepted, done, dropped]
  | vanishes under ended accepted done gone queue dropped =>
    -- Nobody receives any more: a node whose queue is disconnected has stopped.
    have stopped : node.follower.stopped = true := by
      simp [follower, coherent.connected gone, ThreadStage.isStopped]
    refine .of_step (.vanish (sent under) stopped)
      (Follower.ext rfl rfl rfl rfl ?_ ?_ rfl rfl rfl rfl rfl)
    · rw [rest ended, queue]
    · simp [follower, withFeed, CallbackStage.refused, own, calls, accepted, done, dropped]

theorem follows_produce (coherent : node.Coherent) {capacity : Nat} {feed : FeedQueue}
    (produces : FeedQueue.Produces capacity node.thread.feed feed)
    (continues : ∀ call, node.thread.feed.calls call = .idle → feed.calls call = .idle) :
    Follows distinct node (node.withFeed feed) := by
  obtain ⟨call, next, calls, moves, _⟩ := exists_moves produces continues
  by_cases own : node.callback = .sending call
  · exact follows_own coherent own calls moves
  · exact follows_other coherent own calls moves

theorem follows_candidate (coherent : node.Coherent) {event : FeedEvent}
    (fresh : node.thread.feed.calls call = .idle) :
    Follows distinct node (node.withFeed (node.thread.feed.advance call (.reserving event))) := by
  have other : node.callback ≠ .sending call := fun own => coherent.begun call own fresh
  refine .inl (Follower.ext rfl rfl rfl rfl ?_ ?_ rfl rfl rfl rfl rfl)
  · simp [follower, withFeed, FeedQueue.advance, inFlight_advance other]
  · change (_ || node.callback.refused (Function.update node.thread.feed.calls call _)) = _
    rw [refused_advance other]
    rfl

theorem progress_retry (attempt : Attempt) (changed : Bool) :
    (LoadLatest.retry attempt changed).progress = .idle := by
  unfold LoadLatest.retry
  split <;> rfl

def accepts (attempt : Attempt) (draft : Draft) (unchanged : Bool) : Follower.Reading :=
  if unchanged then .accepted ⟨attempt.tracked.revision, draft.anchoredAt⟩ else .idle

theorem progress_conclude (attempt : Attempt) (draft : Draft) (unchanged : Bool) :
    (LoadLatest.conclude attempt draft unchanged).progress = accepts attempt draft unchanged := by
  unfold LoadLatest.conclude accepts
  split
  · rfl
  · exact progress_retry _ _

theorem progress_chainInfo (attempt : Attempt) (draft : Draft) (unchanged : Bool) :
    (LoadLatest.confirming attempt draft (.chainInfo unchanged)).progress =
      accepts attempt draft unchanged := by
  cases unchanged <;> rfl

theorem progress_safe (attempt : Attempt) (draft : Draft) (unchanged : Bool) :
    (LoadLatest.confirming attempt draft (.safe unchanged)).progress =
      accepts attempt draft unchanged := by
  cases unchanged <;> rfl

theorem progress_finalized (attempt : Attempt) (draft : Draft) (unchanged : Bool) :
    (LoadLatest.confirming attempt draft (.finalized unchanged)).progress =
      accepts attempt draft unchanged := by
  cases unchanged <;> rfl

theorem follows_read (coherent : node.Coherent) {load : LoadLatest}
    (reads : LoadLatest.Reads node.tracker.latest node.clock node.load load) :
    Follows distinct node { node with load } := by
  have moves {reading : Follower.Reading}
      (step : Follower.Step distinct node.follower { node.follower with reading })
      (same : load.progress = reading) : Follows distinct node { node with load } :=
    .of_step step (Follower.ext rfl rfl rfl rfl rfl rfl rfl rfl same rfl rfl)
  have stays (same : load.progress = node.load.progress) :
      Follows distinct node { node with load } :=
    .inl (Follower.ext rfl rfl rfl rfl rfl rfl rfl rfl same rfl rfl)
  -- A later read of the provider keeps what was confirmed, or gives it up.
  have further {attempt : Attempt} {draft : Draft} {unchanged same : Bool}
      (before : node.load.progress = accepts attempt draft unchanged)
      (after : load.progress = accepts attempt draft (unchanged && same)) :
      Follows distinct node { node with load } := by
    cases same with
    | true => exact stays (by rw [before, after, Bool.and_true])
    | false => exact moves .abandon (by rw [after, Bool.and_false]; rfl)
  have confirms {attempt : Attempt} {draft : Draft} {unchanged : Bool}
      (before : node.load.progress = .timed ⟨attempt.tracked.revision, draft.anchoredAt⟩)
      (same : unchanged = true → node.tracker.latest.revision = attempt.tracked.revision)
      (after : load.progress = accepts attempt draft unchanged) :
      Follows distinct node { node with load } := by
    cases unchanged with
    | true => exact moves (.accept before ((same rfl).symm.trans coherent.latest)) after
    | false => exact moves .abandon after
  generalize start : node.load = before at reads
  rw [start] at stays further confirms
  cases reads with
  | track => exact moves .note (by rw [LoadLatest.progress, coherent.latest]; rfl)
  | chainInfo | safe | finalized | state | stateFails | retrackProvider => exact stays rfl
  | retrackApplied | rechain => exact moves .abandon (progress_retry _ _)
  | clock => exact moves (.time (by rw [follower, start]; rfl)) rfl
  | confirmApplied => exact confirms rfl (by simp) (progress_conclude _ _ _)
  | confirmProvider =>
    refine confirms rfl (fun both => ?_) (progress_chainInfo _ _ _)
    exact of_decide_eq_true (Bool.and_eq_true_iff.mp both).1
  | confirmChainInfo => exact further (progress_chainInfo _ _ _) (progress_safe _ _ _)
  | confirmSafe => exact further (progress_safe _ _ _) (progress_finalized _ _ _)
  | confirmFinalized => exact further (progress_finalized _ _ _) (progress_conclude _ _ _)
  | fail => exact moves .abandon rfl

theorem follows_serve {publisher : Publisher} {env : Env} {options : Publisher.ServiceOptions}
    {watchSet : WatchSet} {snapshot : CanonicalSnapshot} {revision : Nat}
    (coherent : node.Coherent) (starting : node.loop = none)
    (loaded : node.load = .loaded snapshot revision)
    (answer : ∀ watchSet, env.loadLatest watchSet = some snapshot)
    (started : Publisher.startService env options watchSet = some publisher) :
    Follows distinct node
      { node with
        loop := some (.start publisher)
        load := .idle
        anchorRevision := revision
        reflected := [revision] } := by
  obtain ⟨found, starts, rfl⟩ := Publisher.startService_eq_some.mp started
  have same : found = snapshot := Option.some.inj (starts.read.symm.trans (answer watchSet))
  have accepted : node.follower.reading = .accepted ⟨revision, snapshot.anchoredAt⟩ := by
    rw [follower, loaded]
    rfl
  obtain ⟨top, silent⟩ := coherent.starting starting
  refine .of_step (.install accepted (.inl rfl))
    (Follower.ext rfl rfl rfl ?_ rfl rfl rfl rfl rfl ?_ ?_)
  · simp [follower, failed, top]
  · rw [same]
    rfl
  · simp [follower, silent]

variable {loop : Loop} {thread : PublisherThread}

theorem failed_of_idle (running : node.loop = some loop) (idle : loop.control = .idle) :
    node.failed = false := by
  unfold failed
  split
  · next recovering =>
    rw [running, Option.some.injEq] at recovering
    rw [recovering] at idle
    cases idle
  · rfl

theorem hand_of_idle (running : node.loop = some loop) (idle : loop.control = .idle) :
    node.follower.hand = node.thread.stage.event.bind (notice node.numberOf) := by
  rw [follower, failed_of_idle running idle]
  rfl

theorem owing_of_idle (running : node.loop = some loop) (idle : loop.control = .idle) :
    node.follower.owing = false := by
  obtain ⟨publisher, control⟩ := loop
  cases idle
  simp [follower, running]

theorem follows_poll (running : node.loop = some loop) (idle : loop.control = .idle)
    (queue : thread.feed.queue = node.thread.feed.queue)
    (calls : thread.feed.calls = node.thread.feed.calls)
    (state : thread.feed.enqueueState = node.thread.feed.enqueueState)
    (event : thread.stage.event = node.thread.stage.event)
    (stopped : thread.stage.isStopped = node.thread.stage.isStopped)
    (lossless : loop.attend thread.stage = loop) :
    Follows distinct node { node with thread, loop := some (loop.attend thread.stage) } := by
  have same : ({ node with thread, loop := some (loop.attend thread.stage) } : Node).loop =
      some loop := congrArg some lossless
  refine .inl (Follower.ext rfl rfl rfl ?_ ?_ ?_ ?_ stopped rfl ?_ rfl)
  · rw [hand_of_idle same idle, hand_of_idle running idle]
    exact congrArg (Option.bind · _) event
  · simp [follower, queue, calls]
  · simp [follower, state, calls]
  · rw [owing_of_idle same idle, owing_of_idle running idle]
  · simp [follower, lossless, running]

theorem receives_free {stage : ThreadStage} (receives : stage.Receives) :
    stage.event = none ∧ stage.isStopped = false := by
  cases receives <;> exact ⟨rfl, rfl⟩

theorem follows_receive (running : node.loop = some loop) (idle : loop.control = .idle)
    (free : node.load = .idle) {event : FeedEvent} {rest : List (Nat × FeedEvent)}
    (receives : node.thread.stage.Receives) (ready : node.thread.feed.queue = (call, event) :: rest) :
    Follows distinct node
      { node with
        thread :=
          { feed := node.thread.feed.dequeue call rest
            stage := .taking (.handle (.data call event)) }
        loop := some loop } := by
  obtain ⟨empty, unstopped⟩ := receives_free receives
  have hand : node.follower.hand = none := by
    rw [hand_of_idle running idle, empty]
    rfl
  have reading : node.follower.reading = .idle := by
    rw [follower, free]
    rfl
  cases kind : event.isLifecycle with
  | true =>
    have sent : node.follower.channel = ⟨node.numberOf call, event.observedAt⟩ ::
        (rest.filterMap (notice node.numberOf) ++
          (node.callback.inFlight node.callbacks node.thread.feed.calls).toList) := by
      simp [follower, ready, notice, kind]
    refine .of_step (.receive sent hand reading)
      (Follower.ext rfl rfl rfl ?_ rfl rfl ?_ ?_ rfl ?_ rfl)
    · rw [hand_of_idle rfl idle]
      simp [ThreadStage.event, notice, kind]
    · rw [owing_of_idle rfl idle]
      exact (owing_of_idle running idle).symm
    · exact unstopped.symm
    · simp [follower, running]
  | false =>
    refine .inl (Follower.ext rfl rfl rfl ?_ ?_ rfl ?_ ?_ rfl ?_ rfl)
    · rw [hand_of_idle rfl idle, hand]
      simp [ThreadStage.event, notice, kind]
    · simp [follower, FeedQueue.dequeue, ready, notice, kind]
    · rw [owing_of_idle rfl idle, owing_of_idle running idle]
    · exact unstopped.symm
    · simp [follower, running]

theorem follows_exchange (running : node.loop = some loop) (idle : loop.control = .idle)
    (free : node.load = .idle) {resume : Resume} {state : EnqueueState}
    (taking : node.thread.stage = .taking resume) :
    Follows distinct node
      { node with
        thread := { feed := node.thread.feed.exchange state, stage := .recovering resume }
        loop := some (loop.attend (.recovering resume)) } := by
  have reading : node.follower.reading = .idle := by
    rw [follower, free]
    rfl
  refine .of_step (.notice _ reading) (Follower.ext rfl rfl rfl ?_ rfl rfl rfl ?_ rfl ?_ rfl)
  · change _ = node.follower.hand
    rw [hand_of_idle running idle, taking]
    rcases resume with _ | (_ | _) <;> rfl
  · change _ = node.thread.stage.isStopped
    rw [taking]
    rfl
  · simp [follower, running, Loop.attend, Loop.beginRecovery]

theorem follows_stop (free : node.load = .idle) (running : node.loop = some loop) :
    Follows distinct node
      { node with
        thread := { feed := node.thread.feed.disconnect, stage := .stopped }
        loop := some loop } := by
  have split : node.follower.channel = node.thread.feed.queue.filterMap (notice node.numberOf) ++
      (node.callback.inFlight node.callbacks node.thread.feed.calls).toList := rfl
  refine .of_step (.stop split) (Follower.ext rfl rfl rfl ?_ rfl rfl ?_ rfl ?_ ?_ rfl)
  · simp [follower, failed, ThreadStage.event]
  · simp [follower, running]
  · change node.load.progress = _
    rw [free]
    rfl
  · simp [follower, running]

theorem observe_free (thread : PublisherThread) (resume : Resume) :
    (thread.observe resume).stage.event = (ThreadStage.taking resume).event ∧
      (thread.observe resume).stage.isStopped = (ThreadStage.taking resume).isStopped ∧
      ∀ loop : Loop, loop.attend (thread.observe resume).stage = loop := by
  unfold PublisherThread.observe
  dsimp only
  split
  · exact ⟨rfl, rfl, fun _ => rfl⟩
  · rcases resume with _ | (_ | _) <;> exact ⟨rfl, rfl, fun _ => rfl⟩

theorem starves_free (loop : Loop) {stage next : ThreadStage} (starves : stage.Starves next) :
    next.event = stage.event ∧ next.isStopped = stage.isStopped ∧ loop.attend next = loop := by
  cases starves <;> exact ⟨rfl, rfl, rfl⟩

theorem follows_attend (running : node.loop = some loop) (idle : loop.control = .idle)
    (free : node.load = .idle) (attends : PublisherThread.Attends node.thread thread)
    (polls : thread.feed = node.thread.feed →
      ¬ ThreadStage.Concludes node.thread.stage thread.stage) :
    Follows distinct node { node with thread, loop := some (loop.attend thread.stage) } := by
  have observes {resume : Resume} (taking : node.thread.stage = .taking resume) :
      Follows distinct node
        { node with
          thread := node.thread.observe resume
          loop := some (loop.attend (node.thread.observe resume).stage) } := by
    obtain ⟨event, stopped, lossless⟩ := observe_free node.thread resume
    rw [← taking] at event stopped
    exact follows_poll running idle rfl rfl rfl event stopped (lossless loop)
  cases attends with
  | @move stage moves =>
    have unfinished := polls rfl
    have kept (event : stage.event = node.thread.stage.event)
        (stopped : stage.isStopped = node.thread.stage.isStopped)
        (lossless : loop.attend stage = loop) : Follows distinct node
          { node with
            thread := { node.thread with stage }
            loop := some (loop.attend stage) } :=
      follows_poll running idle rfl rfl rfl event stopped lossless
    generalize before : node.thread.stage = from' at moves unfinished kept
    -- The moves that end an operation are made by the operation itself.
    cases moves with
    | recovered => exact absurd .recovered unfinished
    | parkedMaintained => exact absurd .maintained unfinished
    | handled => exact absurd .handled unfinished
    | _ => exact kept rfl rfl rfl
  | load next => exact observes next
  | retry next => exact observes next
  | exchange next => exact follows_exchange running idle free next
  | receive next ready => exact follows_receive running idle free next ready
  | starve next =>
    obtain ⟨event, stopped, lossless⟩ := starves_free loop next
    exact follows_poll running idle rfl rfl rfl event stopped lossless
  | spinWake next =>
    refine follows_poll running idle rfl rfl rfl ?_ ?_ rfl <;> rw [next] <;> rfl
  | spinUnwoken next =>
    refine follows_poll running idle rfl rfl rfl ?_ ?_ rfl <;> rw [next] <;> rfl
  | parkedWake next =>
    refine follows_poll running idle rfl rfl rfl ?_ ?_ rfl <;> rw [next] <;> rfl
  | stop next => exact follows_stop free running

variable {after : Loop} {input : Input}

theorem runs_unstopped {stage : ThreadStage} {control : Control} (runs : stage.Runs control input) :
    stage.isStopped = false ∧ stage.resumed.isStopped = false := by
  cases runs with
  | retry running => cases stage <;> first | exact absurd rfl running | exact ⟨rfl, rfl⟩
  | _ => exact ⟨rfl, rfl⟩

theorem runs_recovering {stage : ThreadStage} {gapAnnounced : Bool} {reason : String}
    (runs : stage.Runs (.recovering gapAnnounced reason) input) : input = .retry := by
  cases runs
  rfl

theorem runs_plain {stage : ThreadStage} (runs : stage.Runs .idle input)
    (plain : input.demands = false) (numberOf : Nat → Nat) :
    stage.event.bind (notice numberOf) = none := by
  cases runs with
  | @event call event =>
    have kind : event.isLifecycle = false := plain
    simp [ThreadStage.event, notice, kind]
  | _ => rfl

theorem runs_event {stage : ThreadStage} {control : Control} {event : FeedEvent}
    (runs : stage.Runs control (.event event)) :
    control = .idle ∧ ∃ call, stage = .handling (.data call event) := by
  cases runs
  exact ⟨rfl, _, rfl⟩

theorem event_taking (resume : Resume) :
    (ThreadStage.taking resume).event = (ThreadStage.recovering resume).event := by
  rcases resume with _ | (_ | _) <;> rfl

theorem hand_complete_recovering {gapAnnounced : Bool} {reason : String}
    (running : node.loop = some loop) (recovering : loop.control = .recovering gapAnnounced reason) :
    (node.complete loop after).follower.hand = node.follower.hand := by
  obtain ⟨publisher, control⟩ := loop
  obtain ⟨publisher', control'⟩ := after
  cases recovering
  cases stage : node.thread.stage with
  | recovering resume =>
    have same := event_taking resume
    cases control' <;> simp [follower, complete, failed, running, stage, ThreadStage.resumed, same]
  | _ =>
    cases control' <;>
      simp [follower, complete, failed, running, stage, ThreadStage.resumed, ThreadStage.event]

theorem hand_complete_idle (runs : node.thread.stage.Runs .idle input) :
    (node.complete loop after).follower.hand = none := by
  obtain ⟨publisher', control'⟩ := after
  generalize stage : node.thread.stage = before at runs
  cases runs <;> cases control' <;>
    simp [follower, complete, failed, stage, ThreadStage.resumed, ThreadStage.event]

theorem follower_complete (runs : node.thread.stage.Runs loop.control input) {hand : Option Stamp}
    {owing : Bool} {anchor : Stamp} {shown : List Nat}
    (held : (node.complete loop after).follower.hand = hand)
    (owes : owing = decide (after.control ≠ .idle))
    (anchored : (⟨(node.complete loop after).anchorRevision, after.publisher.snapshotAnchoredAt⟩ :
      Stamp) = anchor)
    (reflected : (node.complete loop after).reflected = node.reflected ++ shown) :
    (node.complete loop after).follower =
      { node.follower with
        hand
        owing
        reading := .idle
        anchor := some anchor
        reflected := node.reflected ++ shown } := by
  refine Follower.ext rfl rfl rfl held rfl rfl ?_ ?_ rfl ?_ reflected
  · obtain ⟨publisher, control⟩ := after
    rw [owes]
    cases control <;> rfl
  · obtain ⟨before, resumed⟩ := runs_unstopped runs
    change (if after.control = .idle then node.thread.stage.resumed
      else node.thread.stage).isStopped = node.thread.stage.isStopped
    rw [before]
    split
    · exact resumed
    · exact before
  · exact congrArg some anchored

theorem anchor_follower (running : node.loop = some loop) : node.follower.anchor =
    some ⟨node.anchorRevision, loop.publisher.snapshotAnchoredAt⟩ := by
  simp [follower, running]

theorem anchor_complete {allowed : Wire.Event → Prop}
    (unanchored : ∀ event, allowed event → event.Unanchored)
    (sent : Sent allowed loop.publisher after.publisher) :
    (⟨(node.complete loop after).anchorRevision, after.publisher.snapshotAnchoredAt⟩ : Stamp) =
      ⟨node.anchorRevision, loop.publisher.snapshotAnchoredAt⟩ := by
  have none := (sent.mono unanchored).unanchored_any
  simp [complete, none, sent.anchoredAt]

theorem follows_silent (running : node.loop = some loop)
    (runs : node.thread.stage.Runs loop.control input)
    (sent : Sent Wire.Event.Silent loop.publisher after.publisher)
    (settled : after.control = .idle → input.demands = false) :
    Follows distinct node (node.complete loop after) := by
  have anchor := anchor_follower running
  have reflected : (node.complete loop after).reflected = node.reflected ++ [] :=
    congrArg (node.reflected ++ ·) sent.reflected_nil
  have kept : (⟨(node.complete loop after).anchorRevision, after.publisher.snapshotAnchoredAt⟩ :
      Stamp) = ⟨node.anchorRevision, loop.publisher.snapshotAnchoredAt⟩ :=
    anchor_complete (fun _ => Wire.Event.Silent.unanchored) sent
  have abandons (hand : (node.complete loop after).follower.hand = node.follower.hand)
      (owing : node.follower.owing = decide (after.control ≠ .idle)) :
      Follows distinct node (node.complete loop after) := by
    refine .of_step .abandon ?_
    rw [follower_complete runs hand owing kept reflected, ← anchor, List.append_nil]
    rfl
  cases control : loop.control with
  | recovering gapAnnounced reason =>
    have unsettled : after.control ≠ .idle := by
      intro idle
      rw [control] at runs
      rw [runs_recovering runs] at settled
      exact absurd (settled idle) nofun
    refine abandons (hand_complete_recovering running control) ?_
    obtain ⟨publisher, _⟩ := loop
    cases control
    simp [follower, running, unsettled]
  | idle =>
    have started := runs
    rw [control] at started
    have hand : (node.complete loop after).follower.hand = none := hand_complete_idle started
    by_cases idle : after.control = .idle
    · refine abandons (hand.trans ?_) ?_
      · rw [hand_of_idle running control, runs_plain started (settled idle)]
      · rw [owing_of_idle running control]
        simp [idle]
    · -- Whatever was at hand is given up, and recovery owes a snapshot.
      refine .of_step .fail ?_
      rw [follower_complete runs hand rfl kept reflected, ← anchor, List.append_nil]
      simp [idle, follower]

theorem hand_of_event (running : node.loop = some loop) {event : FeedEvent}
    (runs : node.thread.stage.Runs loop.control (.event event)) (lifecycle : event.isLifecycle = true) :
    node.follower.hand = some ⟨node.heldNumber, event.observedAt⟩ ∧
      node.follower.owing = false := by
  obtain ⟨idle, call, handling⟩ := runs_event runs
  refine ⟨?_, owing_of_idle running idle⟩
  rw [hand_of_idle running idle, heldNumber, handling]
  simp [ThreadStage.event, notice, lifecycle]

theorem follows_skipped (running : node.loop = some loop) {event : FeedEvent}
    (runs : node.thread.stage.Runs loop.control (.event event)) (lifecycle : event.isLifecycle = true)
    (early : event.observedAt ≤ loop.publisher.snapshotAnchoredAt)
    (same : after = .start loop.publisher) : Follows distinct node (node.complete loop after) := by
  obtain ⟨held, owing⟩ := hand_of_event running runs lifecycle
  have anchor := anchor_follower running
  have sent : Sent Wire.Event.Silent loop.publisher after.publisher := by
    rw [same]
    exact .of_frames rfl rfl
  have hand : (node.complete loop after).follower.hand = none :=
    hand_complete_idle ((runs_event runs).1 ▸ runs)
  have reflected : (node.complete loop after).reflected = node.reflected ++ [] :=
    congrArg (node.reflected ++ ·) sent.reflected_nil
  refine .of_step (.skip held anchor early) ?_
  rw [follower_complete runs hand rfl (anchor_complete (fun _ => Wire.Event.Silent.unanchored) sent)
    reflected, ← anchor, List.append_nil, same]
  refine Follower.ext rfl rfl rfl rfl rfl rfl ?_ rfl rfl rfl rfl
  rw [owing]
  rfl

theorem follows_applied (running : node.loop = some loop) {event : FeedEvent}
    (runs : node.thread.stage.Runs loop.control (.event event)) (lifecycle : event.isLifecycle = true)
    (late : loop.publisher.snapshotAnchoredAt < event.observedAt)
    (sent : Sent Wire.Event.Unanchored loop.publisher after.publisher)
    (fenced : after.control = .idle → Publisher.Fenced loop.publisher after.publisher) :
    Follows distinct node (node.complete loop after) := by
  obtain ⟨held, owing⟩ := hand_of_event running runs lifecycle
  have anchor := anchor_follower running
  have hand : (node.complete loop after).follower.hand = none :=
    hand_complete_idle ((runs_event runs).1 ▸ runs)
  have done : decide (after.control ≠ .idle) = false →
      (Publisher.sent loop.publisher after.publisher).filterMap
        (PublishedFrame.reflects node.heldNumber node.load.revision) ≠ [] := by
    intro settled
    have idle : after.control = .idle := by simpa using settled
    exact (fenced idle).reflected_ne_nil
  refine .of_step (.apply held anchor late sent.reflected_eq done) ?_
  rw [follower_complete runs hand rfl (anchor_complete (fun _ => id) sent) rfl, ← anchor, owing]
  rfl

theorem follows_anchored (running : node.loop = some loop)
    (runs : node.thread.stage.Runs loop.control input) {loaded : CanonicalSnapshot}
    (read : node.load.result = some loaded) (idle : after.control = .idle)
    (reanchored : Publisher.Reanchored loaded loop.publisher after.publisher) :
    Follows distinct node (node.complete loop after) := by
  obtain ⟨revision, load⟩ : ∃ revision, node.load = .loaded loaded revision := by
    unfold LoadLatest.result at read
    split at read
    · next found =>
      cases read
      exact ⟨_, found⟩
    · cases read
  have accepted : node.follower.reading = .accepted ⟨revision, loaded.anchoredAt⟩ := by
    rw [follower, load]
    rfl
  have number : node.load.revision = revision := by rw [load]; rfl
  have consumed : (node.complete loop after).follower.hand = node.follower.hand ∨
      (node.complete loop after).follower.hand = none := by
    cases control : loop.control with
    | recovering => exact .inl (hand_complete_recovering running control)
    | idle => exact .inr (hand_complete_idle (control ▸ runs))
  obtain ⟨shown, anchors⟩ : (Publisher.sent loop.publisher after.publisher).filterMap
      (PublishedFrame.reflects node.heldNumber node.load.revision) = [node.load.revision] ∧
      (Publisher.sent loop.publisher after.publisher).any PublishedFrame.anchors = true :=
    reanchored.reflected_eq
  have reflected : (node.complete loop after).reflected = node.reflected ++ [revision] := by
    rw [← number]
    exact congrArg (node.reflected ++ ·) shown
  refine .of_step (.install accepted consumed) ?_
  rw [follower_complete runs rfl rfl rfl reflected]
  refine Follower.ext rfl rfl rfl rfl rfl rfl ?_ rfl rfl ?_ rfl
  · simp [idle]
  · simp [complete, anchors, number, reanchored.anchoredAt]

theorem follows_round (running : node.loop = some loop)
    (runs : node.thread.stage.Runs loop.control input)
    (outcome : Outcome node.load.result input loop.publisher after) :
    Follows distinct node (node.complete loop after) := by
  cases outcome with
  | silent sent settled => exact follows_silent running runs sent settled
  | skipped taken lifecycle early same =>
    subst taken
    exact follows_skipped running runs lifecycle early same
  | applied taken lifecycle late sent fenced =>
    subst taken
    exact follows_applied running runs lifecycle late sent fenced
  | anchored read idle reanchored => exact follows_anchored running runs read idle reanchored

end

end Node

end Statefeed
