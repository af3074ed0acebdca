import Statefeed.Following
import Statefeed.Model.Sample

set_option autoImplicit false

namespace Statefeed.Node

section

variable {node : Node} {call : Nat} {loop after : Loop} {thread : PublisherThread} {input : Input}

theorem moves_event {feed after : FeedQueue} {next : TrySend} (moves : Moves feed after call next) :
    next.event = (feed.calls call).event ∨ next.event = none := by
  cases moves with
  | goes event => exact .inl event
  | refuses _ ended => exact .inr ended
  | records _ _ ended => exact .inr ended
  | queues _ ended => exact .inr ended
  | vanishes _ ended => exact .inr ended

theorem moves_queue {feed after : FeedQueue} {next : TrySend} (moves : Moves feed after call next)
    {entry : Nat × FeedEvent} (member : entry ∈ after.queue) :
    entry ∈ feed.queue ∨ entry.1 = call := by
  cases moves with
  | goes _ _ queue => exact .inl (queue ▸ member)
  | refuses _ _ _ queue => exact .inl (queue ▸ member)
  | records _ _ _ queue => exact .inl (queue ▸ member)
  | queues _ _ _ _ queue =>
    rw [queue] at member
    rcases List.mem_append.mp member with old | new
    · exact .inl old
    · exact .inr (by rw [List.mem_singleton.mp new])
  | vanishes _ _ _ _ _ queue => exact .inl (queue ▸ member)

theorem Coherent.produce (coherent : node.Coherent) {capacity : Nat} {feed : FeedQueue}
    (produces : FeedQueue.Produces capacity node.thread.feed feed)
    (continues : ∀ call, node.thread.feed.calls call = .idle → feed.calls call = .idle) :
    (node.withFeed feed).Coherent := by
  -- One call goes on, and no other is touched.
  obtain ⟨call, next, calls, moves, begun, connected⟩ := exists_moves produces continues
  have event (other : Nat) (found : FeedEvent) (under : (feed.calls other).event = some found) :
      (node.thread.feed.calls other).event = some found := by
    rw [calls] at under
    by_cases same : other = call
    · subst same
      rw [Function.update_self] at under
      rcases moves_event moves with kept | none
      · exact kept ▸ under
      · rw [none] at under
        cases under
    · rwa [Function.update_of_ne same] at under
  have alive (other : Nat) (used : node.thread.feed.calls other ≠ .idle) : feed.calls other ≠ .idle := by
    rw [calls]
    by_cases same : other = call
    · subst same
      rwa [Function.update_self]
    · rwa [Function.update_of_ne same]
  exact
    { next := coherent.next
      latest := coherent.latest
      owner := fun other found under => coherent.owner other found (event other found under)
      begun := fun other own => alive other (coherent.begun other own)
      number := coherent.number
      lifecycle := fun other found own under =>
        coherent.lifecycle other found own (event other found under)
      used := by
        rintro entry (queued | held)
        · rcases moves_queue moves queued with old | rfl
          · exact alive _ (coherent.used entry (.inl old))
          · change feed.calls entry.1 ≠ .idle
            rwa [calls, Function.update_self]
        · exact alive _ (coherent.used entry (.inr held))
      connected := fun gone => coherent.connected (connected ▸ gone)
      starting := coherent.starting }

theorem attends_keeps {before : PublisherThread} (attends : PublisherThread.Attends before thread) :
    thread.feed.calls = before.feed.calls ∧ before.stage ≠ .stopped ∧
      (thread.feed.connected = before.feed.connected ∨ thread.stage = .stopped) ∧
      ∀ entry, entry ∈ thread.feed.queue ∨ thread.stage.event = some entry →
        entry ∈ before.feed.queue ∨ before.stage.event = some entry := by
  obtain ⟨feed, stage⟩ := before
  -- Taking the loss count touches neither the queue nor the event at hand.
  have observes (resume : Resume) (taking : stage = .taking resume) (entry : Nat × FeedEvent)
      (held : entry ∈ (PublisherThread.observe ⟨feed, stage⟩ resume).feed.queue ∨
        (PublisherThread.observe ⟨feed, stage⟩ resume).stage.event = some entry) :
      entry ∈ feed.queue ∨ stage.event = some entry := by
    have kept := (observe_free ⟨feed, stage⟩ resume).1
    rw [kept, ← taking] at held
    exact held
  cases attends with
  | move moves =>
    refine ⟨rfl, ?_, .inl rfl, fun entry => Or.imp_right ?_⟩
    · cases moves <;> nofun
    · cases moves with
      | @recovered resume =>
        rw [event_taking]
        exact id
      | _ => nofun
  | @load resume next =>
    cases next
    exact ⟨rfl, nofun, .inl rfl, observes resume rfl⟩
  | @retry resume _ next =>
    cases next
    exact ⟨rfl, nofun, .inl rfl, observes resume rfl⟩
  | @exchange resume _ next =>
    cases next
    refine ⟨rfl, nofun, .inl rfl, fun entry => Or.imp_right ?_⟩
    rw [event_taking]
    exact id
  | @receive call event rest next ready =>
    refine ⟨rfl, by cases next <;> nofun, .inl rfl, ?_⟩
    rintro entry (queued | held)
    · exact .inl (ready ▸ List.mem_cons_of_mem _ queued)
    · cases held
      -- The event at hand is the one that headed the queue.
      exact .inl (ready ▸ List.mem_cons_self)
  | starve next =>
    refine ⟨rfl, by cases next <;> nofun, .inl rfl, fun entry => Or.imp_right ?_⟩
    cases next <;> nofun
  | spinWake next | spinUnwoken next | parkedWake next =>
    cases next
    exact ⟨rfl, nofun, .inl rfl, fun entry => Or.imp_right nofun⟩
  | stop next =>
    refine ⟨rfl, by cases next <;> nofun, .inr rfl, ?_⟩
    rintro entry (queued | held)
    · cases queued
    · cases held

theorem Coherent.proceed (coherent : node.Coherent) {changed : Node}
    (tracker : changed.tracker = node.tracker) (callbacks : changed.callbacks = node.callbacks)
    (callback : changed.callback = node.callback) (numberOf : changed.numberOf = node.numberOf)
    (running : changed.loop ≠ none)
    (calls : changed.thread.feed.calls = node.thread.feed.calls)
    (connected : changed.thread.feed.connected = false → changed.thread.stage = .stopped)
    (held : ∀ entry, entry ∈ changed.thread.feed.queue ∨ changed.thread.stage.event = some entry →
      entry ∈ node.thread.feed.queue ∨ node.thread.stage.event = some entry) : changed.Coherent where
  next := by rw [tracker, callbacks, coherent.next]
  latest := by rw [tracker, callbacks, coherent.latest]
  owner := by
    rw [calls, callback]
    exact coherent.owner
  begun := by
    rw [calls, callback]
    exact coherent.begun
  number := by
    rw [numberOf, callback, callbacks]
    exact coherent.number
  lifecycle := by
    rw [calls, callback]
    exact coherent.lifecycle
  used entry kept := by
    rw [calls]
    exact coherent.used entry (held entry kept)
  connected := connected
  starting none := absurd none running

theorem resumed_event {stage : ThreadStage} {entry : Nat × FeedEvent}
    (held : stage.resumed.event = some entry) : stage.event = some entry := by
  cases stage with
  | recovering resume => exact event_taking resume ▸ held
  | taking | spinning | top | control | data | stopped => exact held
  | maintenance | handling | parked => cases held

theorem Coherent.round (coherent : node.Coherent) (runs : node.thread.stage.Runs loop.control input) :
    (node.complete loop after).Coherent := by
  refine coherent.proceed rfl rfl rfl rfl nofun rfl ?_ ?_
  · intro gone
    have stopped := coherent.connected gone
    have unstopped := (runs_unstopped runs).1
    rw [stopped] at unstopped
    cases unstopped
  · intro entry
    refine Or.imp_right fun held => ?_
    change (if after.control = .idle then node.thread.stage.resumed
      else node.thread.stage).event = some entry at held
    split at held
    · exact resumed_event held
    · exact held

theorem Coherent.update (coherent : node.Coherent) (lifecycle : Lifecycle) (idle : node.callback = .idle)
    (counted : node.tracker.nextRevision + 1 < 2 ^ 64) :
    ({ node with
      tracker := node.tracker.update lifecycle.view
      callback := .updated lifecycle
      callbacks := node.callbacks + 1 } : Node).Coherent := by
  have revision : (node.tracker.nextRevision + 1) % 2 ^ 64 = node.callbacks + 1 := by
    rw [Nat.mod_eq_of_lt counted, coherent.next]
  exact
    { next := revision
      latest := revision
      -- The callbacks are serialized: none of them has a call under way.
      owner := fun call event under own =>
        absurd (idle.symm.trans (coherent.owner call event under own)) nofun
      begun := nofun
      number := nofun
      lifecycle := nofun
      used := coherent.used
      connected := coherent.connected
      starting := coherent.starting }

theorem Coherent.stamp (coherent : node.Coherent) {lifecycle : Lifecycle}
    (updated : node.callback = .updated lifecycle) :
    ({ node with callback := .stamped lifecycle node.clock } : Node).Coherent where
  next := coherent.next
  latest := coherent.latest
  owner call event under own := absurd (updated.symm.trans (coherent.owner call event under own)) nofun
  begun := nofun
  number := nofun
  lifecycle := nofun
  used := coherent.used
  connected := coherent.connected
  starting := coherent.starting

theorem Coherent.send (coherent : node.Coherent) {lifecycle : Lifecycle} {observedAt : Instant}
    {generation : Generation} (stamped : node.callback = .stamped lifecycle observedAt) :
    ({ node.withFeed (node.thread.feed.advance call
        (.reserving (lifecycle.event observedAt generation))) with
      callback := .sending call
      numberOf := Function.update node.numberOf call node.callbacks } : Node).Coherent where
  next := coherent.next
  latest := coherent.latest
  owner other event under own := by
    by_cases same : other = call
    · rw [same]
    · -- A stamped callback has made no call yet, so no other call has a lifecycle event.
      change (Function.update node.thread.feed.calls call _ other).event = some event at under
      rw [Function.update_of_ne same] at under
      exact absurd (stamped.symm.trans (coherent.owner other event under own)) nofun
  begun other own := by
    cases own
    simp [withFeed, FeedQueue.advance]
  number other own := by
    cases own
    exact Function.update_self ..
  lifecycle other event own under := by
    cases own
    change (Function.update node.thread.feed.calls call _ call).event = some event at under
    rw [Function.update_self] at under
    cases under
    cases lifecycle <;> rfl
  used entry held := by
    change Function.update node.thread.feed.calls call _ entry.1 ≠ .idle
    by_cases same : entry.1 = call
    · simp [same]
    · rw [Function.update_of_ne same]
      exact coherent.used entry held
  connected := coherent.connected
  starting := coherent.starting

theorem Coherent.return (coherent : node.Coherent) (sending : node.callback = .sending call)
    (finished : node.thread.feed.calls call = .finished) :
    ({ node with callback := .idle } : Node).Coherent where
  next := coherent.next
  latest := coherent.latest
  owner other event under own := by
    cases sending.symm.trans (coherent.owner other event under own)
    change (node.thread.feed.calls call).event = some event at under
    rw [finished] at under
    cases under
  begun := nofun
  number := nofun
  lifecycle := nofun
  used := coherent.used
  connected := coherent.connected
  starting := coherent.starting

theorem Coherent.candidate (coherent : node.Coherent) {event : FeedEvent}
    (plain : event.isLifecycle = false) (fresh : node.thread.feed.calls call = .idle) :
    (node.withFeed (node.thread.feed.advance call (.reserving event))).Coherent where
  next := coherent.next
  latest := coherent.latest
  owner other found under own := by
    change (Function.update node.thread.feed.calls call _ other).event = some found at under
    by_cases same : other = call
    · rw [same, Function.update_self] at under
      cases under
      rw [plain] at own
      cases own
    · rw [Function.update_of_ne same] at under
      exact coherent.owner other found under own
  begun other own := by
    have different : other ≠ call := fun same => coherent.begun other own (same ▸ fresh)
    change Function.update node.thread.feed.calls call _ other ≠ .idle
    rw [Function.update_of_ne different]
    exact coherent.begun other own
  number := coherent.number
  lifecycle other found own under := by
    have different : other ≠ call := fun same => coherent.begun other own (same ▸ fresh)
    change (Function.update node.thread.feed.calls call _ other).event = some found at under
    rw [Function.update_of_ne different] at under
    exact coherent.lifecycle other found own under
  used entry held := by
    have different : entry.1 ≠ call := fun same => coherent.used entry held (same ▸ fresh)
    change Function.update node.thread.feed.calls call _ entry.1 ≠ .idle
    rw [Function.update_of_ne different]
    exact coherent.used entry held
  connected := coherent.connected
  starting := coherent.starting

theorem Coherent.attend (coherent : node.Coherent)
    (attends : PublisherThread.Attends node.thread thread) :
    ({ node with thread, loop := some (loop.attend thread.stage) } : Node).Coherent := by
  obtain ⟨calls, unstopped, connected, held⟩ := attends_keeps attends
  refine coherent.proceed rfl rfl rfl rfl nofun calls ?_ held
  intro gone
  rcases connected with same | stopped
  · exact absurd (coherent.connected (same ▸ gone)) unstopped
  · exact stopped

theorem Coherent.stop (coherent : node.Coherent) (running : node.loop = some loop) :
    ({ node with
      thread := { feed := node.thread.feed.disconnect, stage := .stopped } } : Node).Coherent := by
  refine coherent.proceed rfl rfl rfl rfl (by simp [running]) rfl (fun _ => rfl) ?_
  rintro entry (queued | held)
  · cases queued
  · cases held

end

section

variable {capacity : Nat} {options : Publisher.ServiceOptions} {watchSet : WatchSet}
  {node after : Node}

/-- The 64-bit counter of revisions does not wrap when a callback updates the tracker. -/
def Counts (node after : Node) : Prop :=
  ∀ lifecycle, node.callback = .idle → after.callback = .updated lifecycle →
    node.tracker.nextRevision + 1 < 2 ^ 64

/-- No callback is stamped with the time of a snapshot that was confirmed before its update. -/
def Separates (node after : Node) : Prop :=
  ∀ lifecycle observedAt, node.callback = .updated lifecycle →
    after.callback = .stamped lifecycle observedAt → node.Timely

def Orderly (distinct : Prop) (node after : Node) : Prop :=
  node.Counts after ∧ (distinct → node.Separates after)

theorem Coherent.step (coherent : node.Coherent) (step : Step capacity options watchSet node after)
    (counts : node.Counts after) : after.Coherent := by
  cases step with
  | tick | load | read => exact { coherent with }
  | update lifecycle idle => exact coherent.update lifecycle idle (counts lifecycle idle rfl)
  | stamp updated => exact coherent.stamp updated
  | send stamped => exact coherent.send stamped
  | «return» sending finished => exact coherent.return sending finished
  | candidate plain fresh => exact coherent.candidate plain fresh
  | produce produces continues => exact coherent.produce produces continues
  | serve => exact { coherent with starting := nofun }
  | attend _ _ _ attends => exact coherent.attend attends
  | round _ runs => exact coherent.round runs
  | stop running => exact coherent.stop running

theorem follows_step {distinct : Prop} (coherent : node.Coherent)
    (step : Step capacity options watchSet node after)
    (separates : distinct → node.Separates after) : Follows distinct node after := by
  cases step with
  | tick forward => exact .inr (.tick forward)
  | update lifecycle idle => exact follows_update lifecycle idle
  | stamp updated => exact follows_stamp updated fun strict => separates strict _ _ updated rfl
  | send stamped fresh => exact follows_send coherent stamped fresh
  | «return» sending finished => exact follows_return sending finished
  | candidate _ fresh => exact follows_candidate coherent fresh
  | produce produces continues => exact follows_produce coherent produces continues
  | load free =>
    refine .inl (Follower.ext rfl rfl rfl rfl rfl rfl rfl rfl ?_ rfl rfl)
    change _ = node.load.progress
    rw [free]
    rfl
  | read reads => exact follows_read coherent reads
  | serve starting loaded answer started => exact follows_serve coherent starting loaded answer started
  | attend running idle free attends polls => exact follows_attend running idle free attends polls
  | round running runs answer _ source next =>
    exact follows_round running runs (Loop.outcome_next answer next)
  | stop running free =>
    have stops := @follows_stop node distinct _ free running
    rwa [← running] at stops

def Takes (capacity : Nat) (options : Publisher.ServiceOptions) (watchSet : WatchSet)
    (allowed : Node → Node → Prop) (node after : Node) : Prop :=
  Step capacity options watchSet node after ∧ allowed node after

def Reaches (capacity : Nat) (options : Publisher.ServiceOptions) (watchSet : WatchSet)
    (allowed : Node → Node → Prop) : Node → Prop :=
  Relation.ReflTransGen (Takes capacity options watchSet allowed) start

theorem Reaches.follower {distinct : Prop}
    (reaches : Reaches capacity options watchSet (Orderly distinct) node) :
    node.Coherent ∧ Follower.Reaches distinct node.follower := by
  induction reaches with
  | refl => exact ⟨coherent_start, follower_start ▸ .refl⟩
  | tail _ taken reached =>
    obtain ⟨coherent, reaches⟩ := reached
    obtain ⟨step, counts, separates⟩ := taken
    refine ⟨coherent.step step counts, ?_⟩
    rcases follows_step coherent step separates with same | moves
    · exact same ▸ reaches
    · exact reaches.tail moves

theorem Reaches.mono {allowed wider : Node → Node → Prop}
    (admits : ∀ node after, allowed node after → wider node after)
    (reaches : Reaches capacity options watchSet allowed node) :
    Reaches capacity options watchSet wider node :=
  Relation.ReflTransGen.mono (fun _ _ => And.imp_right (admits _ _)) _ _ reaches

/-- No callback is under way, the queue is empty without a loss, and the thread has nothing in
hand and nothing to recover from. -/
structure Quiescent (node : Node) : Prop where
  callback : node.callback = .idle
  queue : node.thread.feed.queue = []
  enqueueState : node.thread.feed.enqueueState = 0
  event : node.thread.stage.event = none
  running : node.thread.stage ≠ .stopped
  idle : ∃ loop, node.loop = some loop ∧ loop.control = .idle

theorem Quiescent.follower (quiescent : node.Quiescent) : node.follower.Quiescent := by
  obtain ⟨loop, running, idle⟩ := quiescent.idle
  constructor
  · simp [Node.follower, quiescent.callback]
  · rw [hand_of_idle running idle, quiescent.event]
    rfl
  · simp [Node.follower, CallbackStage.inFlight, quiescent.queue, quiescent.callback]
  · have none : droppedOf 0#64 = 0 := by decide
    simp [Node.follower, CallbackStage.refused, quiescent.enqueueState, quiescent.callback, none]
  · exact owing_of_idle running idle
  · change node.thread.stage.isStopped = false
    cases stage : node.thread.stage with
    | stopped => exact absurd stage quiescent.running
    | _ => rfl

end

section

variable {distinct : Prop} {node : Node}

def SampleTakes (distinct : Prop) : Node → Node → Prop :=
  Takes 1 Sample.options Sample.watchSet (Orderly distinct)

theorem orderly_of_same {after : Node} (same : after.callback = node.callback) :
    Orderly distinct node after := by
  refine ⟨fun lifecycle idle updated => ?_, fun _ lifecycle observedAt updated stamped => ?_⟩
  · rw [same, idle] at updated
    cases updated
  · rw [same, updated] at stamped
    cases stamped

theorem reads_sample (revision : Nat) :
    Relation.ReflTransGen (LoadLatest.Reads ⟨revision, none⟩ 0) (.tracking 1)
      (.loaded (Sample.loaded 1) revision) := by
  have identity : (Sample.projection Sample.watchSet 1).block.hash =
      (Selected.provider ⟨1, 1⟩ none none).hash := rfl
  refine .head .track (.head (.chainInfo ⟨1, 1⟩) (.head (.safe none) (.head (.finalized none) ?_)))
  refine .head (.state identity) (.head .clock ?_)
  refine .head (.confirmProvider rfl) (.head (.confirmChainInfo rfl ⟨1, 1⟩) ?_)
  refine .head (.confirmSafe rfl none) (.head (.confirmFinalized rfl none) ?_)
  rw [LoadLatest.conclude, if_pos (by simp)]
  exact .refl

theorem serves_sample (free : node.load = .idle) (starting : node.loop = none)
    (untracked : node.tracker.latest.view = none) (early : node.clock = 0) :
    Relation.ReflTransGen (SampleTakes distinct) node
      { node with
        loop := some (.start Sample.start)
        anchorRevision := node.tracker.latest.revision
        reflected := [node.tracker.latest.revision] } := by
  have reads := reads_sample node.tracker.latest.revision
  rw [← untracked, ← early] at reads
  have started : Publisher.startService
      { Sample.env 1 0 with loadLatest := fun _ => some (Sample.loaded 1) } Sample.options
        Sample.watchSet = some Sample.start :=
    Publisher.startService_eq_some.mpr ⟨Sample.loaded 1, { Sample.starts with read := rfl }, rfl⟩
  refine .head ⟨.load free (by simp [Operating, starting]), orderly_of_same rfl⟩ ?_
  refine .trans (reads.lift (fun load => { node with load }) fun _ _ read =>
    ⟨.read read, orderly_of_same rfl⟩) ?_
  rw [free]
  exact .single ⟨.serve starting rfl (fun _ => rfl) started, orderly_of_same rfl⟩

theorem continues_advance {feed : FeedQueue} {call : Nat} (begun : feed.calls call ≠ .idle)
    (stage : TrySend) (other : Nat) (idle : feed.calls other = .idle) :
    (feed.advance call stage).calls other = .idle := by
  have different : other ≠ call := fun same => begun (same ▸ idle)
  exact (Function.update_of_ne different ..).trans idle

def Continues (feed after : FeedQueue) : Prop :=
  FeedQueue.Produces 1 feed after ∧ ∀ call, feed.calls call = .idle → after.calls call = .idle

theorem sends_sample {feed : FeedQueue} {call : Nat} {event : FeedEvent}
    (next : feed.calls call = .reserving event) (free : feed.enqueueState = 0)
    (connected : feed.connected = true) (empty : feed.queue = []) :
    ∃ after : FeedQueue, after.enqueueState = 0 ∧ after.taking = feed.taking ∧
      after.queue = [(call, event)] ∧ after.calls call = .finished ∧
      Relation.ReflTransGen Continues feed after := by
  let reserved : FeedQueue :=
    { feed.advance call (.sending event) with
      enqueueState := enqueueLocked
      log := feed.log ++ [.reserved call] }
  let queued : FeedQueue :=
    { reserved.advance call .releasing with
      queue := reserved.queue ++ [(call, event)]
      log := reserved.log ++ [.queued call] }
  let released : FeedQueue :=
    { queued.advance call
        (if queued.enqueueState &&& dropCountMask ≠ 0 then .notifying else .finished) with
      enqueueState := queued.enqueueState &&& dropCountMask }
  have begun {feed : FeedQueue} {stage : TrySend} (next : feed.calls call = stage)
      (other : stage ≠ .idle) : feed.calls call ≠ .idle := next ▸ other
  have sending : reserved.calls call = .sending event := Function.update_self ..
  have releasing : queued.calls call = .releasing := Function.update_self ..
  have unlocked : enqueueLocked &&& dropCountMask = 0 := by decide
  have room : reserved.queue.length < 1 := by simp [reserved, FeedQueue.advance, empty]
  have reserves : Continues feed reserved :=
    ⟨.reserve next free, continues_advance (begun next (by simp)) _⟩
  have sends : Continues reserved queued :=
    ⟨.send sending connected room, continues_advance (begun sending (by simp)) _⟩
  have releases : Continues queued released :=
    ⟨.release releasing, continues_advance (begun releasing (by simp)) _⟩
  have finished : released.calls call = .finished := by
    refine (Function.update_self ..).trans ?_
    exact if_neg (not_not_intro unlocked)
  have queue : released.queue = [(call, event)] := congrArg (· ++ [(call, event)]) empty
  exact ⟨released, unlocked, rfl, queue, finished, .head reserves (.head sends (.single releases))⟩

theorem enqueues_sample (lifecycle : Lifecycle) (idle : node.callback = .idle)
    (fresh : node.thread.feed = .start) (counted : node.tracker.nextRevision + 1 < 2 ^ 64)
    (timely : distinct → ({ node with callbacks := node.callbacks + 1 } : Node).Timely) :
    ∃ feed : FeedQueue, feed.enqueueState = 0 ∧ feed.taking = none ∧
      feed.queue = [(0, lifecycle.event node.clock (node.activeWatchSet Sample.watchSet).generation)] ∧
      Relation.ReflTransGen (SampleTakes distinct) node
        { node with
          tracker := node.tracker.update lifecycle.view
          thread := { node.thread with feed }
          callbacks := node.callbacks + 1
          numberOf := Function.update node.numberOf 0 (node.callbacks + 1) } := by
  let event := lifecycle.event node.clock (node.activeWatchSet Sample.watchSet).generation
  let called (feed : FeedQueue) : Node :=
    { node with
      tracker := node.tracker.update lifecycle.view
      callback := .sending 0
      thread := { node.thread with feed }
      callbacks := node.callbacks + 1
      numberOf := Function.update node.numberOf 0 (node.callbacks + 1) }
  have unused : node.thread.feed.calls 0 = .idle := by
    rw [fresh]
    rfl
  obtain ⟨feed, free, untaken, queue, finished, sends⟩ :=
    @sends_sample (FeedQueue.start.advance 0 (.reserving event)) 0 event rfl rfl rfl rfl
  refine ⟨feed, free, untaken, queue, ?_⟩
  -- The tracker leads, the stamp follows, and `try_send` comes last.
  refine .head ⟨.update lifecycle idle, fun _ _ _ => counted, fun _ _ _ _ => nofun⟩ ?_
  refine .head ⟨.stamp rfl, nofun, fun strict _ _ _ _ => timely strict⟩ ?_
  refine .head ⟨.send rfl unused, nofun, fun _ _ _ => nofun⟩ ?_
  have sent : Relation.ReflTransGen (SampleTakes distinct)
      (called (FeedQueue.start.advance 0 (.reserving event))) (called feed) :=
    sends.lift called fun _ _ produces => ⟨.produce produces.1 produces.2, orderly_of_same rfl⟩
  rw [← fresh] at sent
  refine sent.trans (.single ⟨?_, nofun, fun _ _ _ => nofun⟩)
  have returns := @Step.return 1 Sample.options Sample.watchSet (called feed) 0 rfl finished
  rwa [← idle] at returns

def Polls (before after : PublisherThread) : Prop :=
  PublisherThread.Attends before after ∧
    (after.feed = before.feed → ¬ ThreadStage.Concludes before.stage after.stage) ∧
    ∀ loop : Loop, loop.attend after.stage = loop

theorem polls_lift {loop : Loop} {before after : PublisherThread} (running : node.loop = some loop)
    (idle : loop.control = .idle) (free : node.load = .idle)
    (polls : Relation.ReflTransGen Polls before after) :
    Relation.ReflTransGen (SampleTakes distinct) { node with thread := before }
      { node with thread := after } := by
  refine polls.lift (fun thread => { node with thread }) fun before after step => ?_
  obtain ⟨attends, unfinished, lossless⟩ := step
  refine ⟨?_, orderly_of_same rfl⟩
  have taken := @Step.attend 1 Sample.options Sample.watchSet { node with thread := before } loop after
    running idle free attends unfinished
  rwa [lossless, ← running] at taken

theorem polls_look {feed : FeedQueue} (resume : Resume) (free : feed.enqueueState = 0)
    (untaken : feed.taking = none) : Polls ⟨feed, .taking resume⟩ ⟨feed, resume.stage⟩ := by
  have nothing : FeedQueue.examine 0 = none := by decide
  have seen : feed.observe = feed := by rw [FeedQueue.observe, free, nothing, ← free, ← untaken]
  have same : PublisherThread.observe ⟨feed, .taking resume⟩ resume = ⟨feed, resume.stage⟩ := by
    simp [PublisherThread.observe, seen, untaken]
  refine ⟨same ▸ .load rfl untaken, fun _ => ?_, fun loop => ?_⟩
  · rcases resume with _ | (_ | _) <;> nofun
  · rcases resume with _ | (_ | _) <;> rfl

theorem polls_data {feed : FeedQueue} (free : feed.enqueueState = 0) (untaken : feed.taking = none) :
    Relation.ReflTransGen Polls ⟨feed, .top⟩ ⟨feed, .data⟩ := by
  refine .head ⟨.move .proceed, nofun, fun _ => rfl⟩ (.head (polls_look .poll free untaken) ?_)
  refine .head ⟨.move .maintained, nofun, fun _ => rfl⟩ ?_
  exact .single ⟨.move .uncontrolled, nofun, fun _ => rfl⟩

theorem handles_sample {event : FeedEvent} {after : Loop}
    (running : node.loop = some (.start Sample.start)) (free : node.load = .idle)
    (top : node.thread.stage = .top) (unlocked : node.thread.feed.enqueueState = 0)
    (untaken : node.thread.feed.taking = none) (queue : node.thread.feed.queue = [(0, event)])
    (next : ∀ loadLatest, Loop.next { Sample.env 1 0 with loadLatest } (.event event)
      (.start Sample.start) = some after)
    (idle : after.control = .idle)
    (unanchored : (Publisher.sent Sample.start after.publisher).any PublishedFrame.anchors = false) :
    ∃ feed : FeedQueue, feed.enqueueState = 0 ∧ feed.queue = [] ∧
      Relation.ReflTransGen (SampleTakes distinct) node
        { node with
          loop := some after
          reflected := node.reflected ++ (Publisher.sent Sample.start after.publisher).filterMap
            (PublishedFrame.reflects (node.numberOf 0) 0)
          thread := { feed, stage := .parked } } := by
  -- Top of the loop, data channel, event, back to the top, and over the empty channel to the park.
  let held := node.thread.feed.dequeue 0 []
  let handling : Node := { node with thread := ⟨held, .handling (.data 0 event)⟩ }
  let handled : Node :=
    { node with
      loop := some after
      reflected := node.reflected ++ (Publisher.sent Sample.start after.publisher).filterMap
        (PublishedFrame.reflects (node.numberOf 0) 0)
      thread := ⟨held, .top⟩ }
  have receives : Relation.ReflTransGen (SampleTakes distinct) node handling := by
    have polls : Relation.ReflTransGen Polls ⟨node.thread.feed, node.thread.stage⟩ handling.thread := by
      rw [top]
      refine .trans (polls_data unlocked untaken) ?_
      refine .head ⟨.receive .data queue, fun _ concludes => (by cases concludes), fun _ => rfl⟩ ?_
      exact .single (polls_look (.handle _) unlocked untaken)
    exact polls_lift running rfl free polls
  have completed : handling.complete (.start Sample.start) after = handled := by
    have sent : Publisher.sent (Loop.start Sample.start).publisher after.publisher =
        Publisher.sent Sample.start after.publisher := rfl
    rw [complete, sent, unanchored, if_pos idle]
    simp only [handling, handled, free, LoadLatest.revision]
    rfl
  have rounds : SampleTakes distinct handling handled := by
    have source (watchSet : WatchSet) (hash : B256) (projection : Projection)
        (found : (Sample.env 1 0).loadAt watchSet hash = some projection) :
        projection.block.hash = hash := by
      cases found
      rfl
    have answer : none = handling.load.result := by
      change none = node.load.result
      rw [free]
      rfl
    have taken := @Step.round 1 Sample.options Sample.watchSet handling (.start Sample.start)
      after { Sample.env 1 0 with loadLatest := fun _ => none } _ running .event
      (fun _ => answer) (.inr ⟨free, fun _ => (next _).trans (next _).symm⟩) source (next _)
    rw [completed] at taken
    exact ⟨taken, orderly_of_same rfl⟩
  refine ⟨held, unlocked, rfl, receives.trans (.head rounds ?_)⟩
  refine @polls_lift distinct handled after _ _ rfl idle free (.trans (polls_data unlocked untaken) ?_)
  refine .head ⟨.starve .data rfl, fun _ concludes => (by cases concludes), fun _ => rfl⟩ ?_
  exact .single ⟨.move .park, fun _ concludes => (by cases concludes), fun _ => rfl⟩

end

section

variable {capacity : Nat} {options : Publisher.ServiceOptions} {watchSet : WatchSet} {node : Node}

theorem reflected_rises (reaches : Reaches capacity options watchSet Counts node) :
    node.reflected.Pairwise (· ≤ ·) := by
  have simulated := (Reaches.mono (fun _ _ counts => ⟨counts, False.elim⟩) reaches).follower
  exact simulated.2.sound.rising

theorem forkchoice_lost_on_tie : ∃ node : Node,
    Reaches 1 Sample.options Sample.watchSet Counts node ∧ node.Quiescent ∧
      node.thread.stage = .parked ∧ node.callbacks = 1 ∧ node.reflected = [0] := by
  -- The service anchors on block 1, at revision 0 and time 0.
  let served : Node :=
    { start with loop := some (.start Sample.start), anchorRevision := 0, reflected := [0] }
  let applied : Lifecycle := .forkchoiceApplied { headHash := 2, safe := none, finalized := none }
  have serves : Relation.ReflTransGen (SampleTakes False) start served := serves_sample rfl rfl rfl rfl
  -- Revision 1 is stamped before the clock moves.
  obtain ⟨feed, unlocked, untaken, queue, enqueues⟩ :=
    @enqueues_sample False served applied rfl rfl (by decide) False.elim
  let enqueued : Node :=
    { served with
      tracker := served.tracker.update applied.view
      thread := { served.thread with feed }
      callbacks := 1
      numberOf := Function.update served.numberOf 0 1 }
  obtain ⟨drained, free, empty, skips⟩ :=
    @handles_sample False enqueued _ (.start Sample.start) rfl rfl rfl unlocked untaken queue
      (fun _ => rfl) rfl rfl
  have quiescent : ({ enqueued with thread := { feed := drained, stage := .parked } } : Node).Quiescent :=
    ⟨rfl, empty, free, rfl, nofun, _, rfl, rfl⟩
  have run := (serves.trans enqueues).trans skips
  exact ⟨_, Reaches.mono (fun _ _ => And.left) run, quiescent, rfl, rfl, rfl⟩

theorem forkchoice_converges (reaches : Reaches capacity options watchSet
      (fun node after => node.Counts after ∧ node.Separates after) node) :
    node.reflected.Pairwise (· ≤ ·) ∧
      (node.Quiescent → node.reflected.getLast? = some node.callbacks) := by
  have strict : Reaches capacity options watchSet (Orderly True) node :=
    reaches.mono fun _ _ => And.imp_right fun separates _ => separates
  have simulated := strict.follower.2
  refine ⟨simulated.sound.rising, fun quiescent => ?_⟩
  exact quiescent.follower.getLast? simulated.sound (simulated.complete trivial)

theorem forkchoice_converges_sample : ∃ node : Node,
    node.Quiescent ∧ node.callbacks = 1 ∧ node.reflected = [0, 1, 1] ∧
      node.reflected.getLast? = some 1 := by
  -- The forkchoice of block 2 is applied when the clock has moved past the time of the snapshot.
  let served : Node :=
    { start with loop := some (.start Sample.start), anchorRevision := 0, reflected := [0] }
  let later : Node := { served with clock := 1 }
  let applied : Lifecycle := .forkchoiceApplied { headHash := 2, safe := none, finalized := none }
  have serves : Relation.ReflTransGen (SampleTakes True) start served := serves_sample rfl rfl rfl rfl
  have ticks : SampleTakes True served later := ⟨.tick (Nat.zero_le 1), orderly_of_same rfl⟩
  have timely : ({ later with callbacks := 1 } : Node).Timely := by
    constructor
    · intro loop running _
      cases running
      decide
    · intro revision anchoredAt confirmed
      cases confirmed
  obtain ⟨feed, unlocked, untaken, queue, enqueues⟩ :=
    @enqueues_sample True later applied rfl rfl (by decide) fun _ => timely
  let enqueued : Node :=
    { later with
      tracker := later.tracker.update applied.view
      thread := { later.thread with feed }
      callbacks := 1
      numberOf := Function.update later.numberOf 0 1 }
  let headed : Loop := Sample.handled (Sample.applied 2 1) (.start Sample.start)
  have idle : headed.control = .idle := by decide +kernel
  obtain ⟨drained, free, empty, handles⟩ :=
    @handles_sample True enqueued _ headed rfl rfl rfl unlocked untaken queue (fun _ => rfl) idle
      (by decide +kernel)
  let settled : Node :=
    { enqueued with
      loop := some headed
      reflected := [0] ++ (Publisher.sent Sample.start headed.publisher).filterMap
        (PublishedFrame.reflects 1 0)
      thread := { feed := drained, stage := .parked } }
  have reflected : [0] ++ (Publisher.sent Sample.start (Sample.handled (Sample.applied 2 1)
      (.start Sample.start)).publisher).filterMap (PublishedFrame.reflects 1 0) = [0, 1, 1] := by
    decide +kernel
  have quiescent : settled.Quiescent := ⟨rfl, empty, free, rfl, nofun, headed, rfl, idle⟩
  have run := (serves.tail ticks).trans (enqueues.trans handles)
  have reaches := Reaches.mono (fun _ _ => And.imp_right fun separates => separates trivial) run
  exact ⟨settled, quiescent, rfl, reflected, (forkchoice_converges reaches).2 quiescent⟩

end

end Statefeed.Node
