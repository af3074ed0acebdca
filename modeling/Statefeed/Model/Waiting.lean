import Statefeed.Model.Enqueue

set_option autoImplicit false

namespace Statefeed

inductive PublisherEvent where
  | data (call : Nat) (event : FeedEvent)
  | control

/-- What `recover_pending_loss` returns to. -/
inductive Resume where
  | poll
  | handle (event : PublisherEvent)

inductive SpinPoll where
  | clock | shutdown | loss | control | data

inductive ThreadStage where
  | top
  -- In `take_pending_loss`.
  | taking (resume : Resume)
  -- In `recover_until_success`, after a loss.
  | recovering (resume : Resume)
  | maintenance
  | control
  | data
  | spinning (poll : SpinPoll)
  | parked
  | handling (event : PublisherEvent)
  | stopped

def Resume.stage : Resume → ThreadStage
  | .poll => .maintenance
  | .handle event => .handling event

structure PublisherThread where
  feed : FeedQueue
  stage : ThreadStage

inductive ThreadStage.Moves : ThreadStage → ThreadStage → Prop
  | proceed : Moves .top (.taking .poll)
  | recovered {resume : Resume} : Moves (.recovering resume) (.taking resume)
  | maintained : Moves .maintenance .control
  | controlled : Moves .control (.taking (.handle .control))
  | uncontrolled : Moves .control .data
  | spin : Moves (.spinning .clock) (.spinning .shutdown)
  | park : Moves (.spinning .clock) .parked
  | run : Moves (.spinning .shutdown) (.spinning .loss)
  | spinControlled : Moves (.spinning .control) (.taking (.handle .control))
  | spinUncontrolled : Moves (.spinning .control) (.spinning .data)
  | parkedMaintained : Moves .parked .top
  | parkedControlled : Moves .parked (.taking (.handle .control))
  | handled {event : PublisherEvent} : Moves (.handling event) .top

inductive ThreadStage.Receives : ThreadStage → Prop
  | data : Receives .data
  | spinning : Receives (.spinning .data)
  | parked : Receives .parked

inductive ThreadStage.Starves : ThreadStage → ThreadStage → Prop
  | data : Starves .data (.spinning .clock)
  | spinning : Starves (.spinning .data) (.spinning .clock)

inductive ThreadStage.Breaks : ThreadStage → Prop
  | top : Breaks .top
  | recovering {resume : Resume} : Breaks (.recovering resume)
  | maintenance : Breaks .maintenance
  | control : Breaks .control
  | data : Breaks .data
  | shutdown : Breaks (.spinning .shutdown)
  | spinControl : Breaks (.spinning .control)
  | spinData : Breaks (.spinning .data)
  | parked : Breaks .parked
  | handling {event : PublisherEvent} : Breaks (.handling event)

namespace PublisherThread

def start : PublisherThread := { feed := .start, stage := .top }

def observe (thread : PublisherThread) (resume : Resume) : PublisherThread where
  feed := thread.feed.observe
  stage := if thread.feed.observe.taking.isSome then .taking resume else resume.stage

inductive Attends : PublisherThread → PublisherThread → Prop
  | move {thread : PublisherThread} {stage : ThreadStage} (moves : thread.stage.Moves stage) :
      Attends thread { thread with stage }
  | load {thread : PublisherThread} {resume : Resume} (next : thread.stage = .taking resume)
      (idle : thread.feed.taking = none) : Attends thread (thread.observe resume)
  | exchange {thread : PublisherThread} {resume : Resume} {state : EnqueueState}
      (next : thread.stage = .taking resume) (read : thread.feed.taking = some state)
      (same : thread.feed.enqueueState = state) :
      Attends thread { feed := thread.feed.exchange state, stage := .recovering resume }
  | retry {thread : PublisherThread} {resume : Resume} {state : EnqueueState}
      (next : thread.stage = .taking resume) (read : thread.feed.taking = some state) :
      Attends thread (thread.observe resume)
  | receive {thread : PublisherThread} {call : Nat} {event : FeedEvent}
      {rest : List (Nat × FeedEvent)} (next : thread.stage.Receives)
      (ready : thread.feed.queue = (call, event) :: rest) :
      Attends thread
        { feed := thread.feed.dequeue call rest, stage := .taking (.handle (.data call event)) }
  | starve {thread : PublisherThread} {stage : ThreadStage} (next : thread.stage.Starves stage)
      (empty : thread.feed.queue = []) : Attends thread { thread with stage }
  | spinWake {thread : PublisherThread} (next : thread.stage = .spinning .loss)
      (token : thread.feed.notified = true) : Attends thread { feed := thread.feed.wake, stage := .top }
  | spinUnwoken {thread : PublisherThread} (next : thread.stage = .spinning .loss)
      (empty : thread.feed.notified = false) : Attends thread { thread with stage := .spinning .control }
  | parkedWake {thread : PublisherThread} (next : thread.stage = .parked)
      (token : thread.feed.notified = true) : Attends thread { feed := thread.feed.wake, stage := .top }
  -- The receiver goes with the thread.
  | stop {thread : PublisherThread} (next : thread.stage.Breaks) :
      Attends thread { feed := thread.feed.disconnect, stage := .stopped }

inductive Step (capacity : Nat) : PublisherThread → PublisherThread → Prop
  | produce {thread : PublisherThread} {feed : FeedQueue}
      (step : FeedQueue.Produces capacity thread.feed feed) :
      Step capacity thread { thread with feed }
  | attend {thread after : PublisherThread} (step : Attends thread after) :
      Step capacity thread after

def Reaches (capacity : Nat) : PublisherThread → Prop :=
  Relation.ReflTransGen (Step capacity) start

end PublisherThread

end Statefeed
