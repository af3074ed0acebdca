import Mathlib.Logic.Function.Basic
import Mathlib.Logic.Relation
import Mathlib.Order.Defs.LinearOrder
import Statefeed.Model.Feed

set_option autoImplicit false

/-!
# The engine queue (`FeedProducer::try_send`, `take_pending_loss`)

Any number of calls of `try_send` run at once against one publisher, one atomic operation at a
time. The log records what happened to the calls, oldest first; no operation reads it.
-/

namespace Statefeed

-- High bit serializes enqueue attempts; low bits retain loss until publisher recovery.
abbrev EnqueueState := BitVec 64

def enqueueLocked : EnqueueState := 1#64 <<< 63

def dropCountMask : EnqueueState := ~~~enqueueLocked

def EnqueueState.saturatingAdd (left right : EnqueueState) : EnqueueState :=
  if left.toNat + right.toNat < 2 ^ 64 then left + right else BitVec.allOnes 64

def recordDrop (state : EnqueueState) : EnqueueState :=
  let locked := state &&& enqueueLocked
  let dropped := EnqueueState.saturatingAdd (state &&& dropCountMask) 1#64
  locked ||| if dropped ≤ dropCountMask then dropped else dropCountMask

/-- The next operation of a call of `try_send`. -/
inductive TrySend where
  | idle
  | reserving (event : FeedEvent)
  -- The reservation failed: `record_drop` and `notify_loss` follow.
  | refused
  | sending (event : FeedEvent)
  -- The channel was full: `record_drop` follows, under the reservation.
  | overflowed
  | releasing
  | notifying
  | finished

inductive Mark where
  | reserved (call : Nat)
  | queued (call : Nat)
  | dropped (call : Nat)
  | took (count : Nat)
  | dequeued (call : Nat)
deriving DecidableEq

structure FeedQueue where
  enqueueState : EnqueueState
  queue : List (Nat × FeedEvent)
  connected : Bool
  -- Whether the one slot of the loss channel is taken.
  notified : Bool
  calls : Nat → TrySend
  -- What a `take_pending_loss` under way has read and is about to exchange.
  taking : Option EnqueueState
  log : List Mark

namespace FeedQueue

def start : FeedQueue where
  enqueueState := 0
  queue := []
  connected := true
  notified := false
  calls _ := .idle
  taking := none
  log := []

def advance (feed : FeedQueue) (call : Nat) (stage : TrySend) : FeedQueue :=
  { feed with calls := Function.update feed.calls call stage }

inductive Produces (capacity : Nat) : FeedQueue → FeedQueue → Prop
  | call {feed : FeedQueue} {call : Nat} (event : FeedEvent) (next : feed.calls call = .idle) :
      Produces capacity feed (feed.advance call (.reserving event))
  | reserve {feed : FeedQueue} {call : Nat} {event : FeedEvent}
      (next : feed.calls call = .reserving event) (free : feed.enqueueState = 0) :
      Produces capacity feed
        { feed.advance call (.sending event) with
          enqueueState := enqueueLocked
          log := feed.log ++ [.reserved call] }
  | refuse {feed : FeedQueue} {call : Nat} {event : FeedEvent}
      (next : feed.calls call = .reserving event) (busy : feed.enqueueState ≠ 0) :
      Produces capacity feed (feed.advance call .refused)
  | dropRefused {feed : FeedQueue} {call : Nat} (next : feed.calls call = .refused) :
      Produces capacity feed
        { feed.advance call .notifying with
          enqueueState := recordDrop feed.enqueueState
          log := feed.log ++ [.dropped call] }
  | send {feed : FeedQueue} {call : Nat} {event : FeedEvent}
      (next : feed.calls call = .sending event) (connected : feed.connected = true)
      (room : feed.queue.length < capacity) :
      Produces capacity feed
        { feed.advance call .releasing with
          queue := feed.queue ++ [(call, event)]
          log := feed.log ++ [.queued call] }
  | overflow {feed : FeedQueue} {call : Nat} {event : FeedEvent}
      (next : feed.calls call = .sending event) (connected : feed.connected = true)
      (full : capacity ≤ feed.queue.length) :
      Produces capacity feed (feed.advance call .overflowed)
  | disconnected {feed : FeedQueue} {call : Nat} {event : FeedEvent}
      (next : feed.calls call = .sending event) (gone : feed.connected = false) :
      Produces capacity feed (feed.advance call .releasing)
  | dropOverflowed {feed : FeedQueue} {call : Nat} (next : feed.calls call = .overflowed) :
      Produces capacity feed
        { feed.advance call .releasing with
          enqueueState := recordDrop feed.enqueueState
          log := feed.log ++ [.dropped call] }
  | release {feed : FeedQueue} {call : Nat} (next : feed.calls call = .releasing) :
      Produces capacity feed
        { feed.advance call
            (if feed.enqueueState &&& dropCountMask ≠ 0 then .notifying else .finished) with
          enqueueState := feed.enqueueState &&& dropCountMask }
  -- The `try_send` on the loss channel fails only when its slot is taken.
  | notify {feed : FeedQueue} {call : Nat} (next : feed.calls call = .notifying) :
      Produces capacity feed { feed.advance call .finished with notified := true }

/-- The head of the loop in `take_pending_loss`: the state to exchange, or `none` to return 0. -/
def examine (state : EnqueueState) : Option EnqueueState :=
  if state &&& enqueueLocked ≠ 0 ∨ state = 0 then none else some state

def observe (feed : FeedQueue) : FeedQueue := { feed with taking := examine feed.enqueueState }

def exchange (feed : FeedQueue) (state : EnqueueState) : FeedQueue :=
  { feed with enqueueState := 0, taking := none, log := feed.log ++ [.took state.toNat] }

def dequeue (feed : FeedQueue) (call : Nat) (rest : List (Nat × FeedEvent)) : FeedQueue :=
  { feed with queue := rest, log := feed.log ++ [.dequeued call] }

def wake (feed : FeedQueue) : FeedQueue := { feed with notified := false }

def disconnect (feed : FeedQueue) : FeedQueue := { feed with connected := false, queue := [] }

inductive Consumes : FeedQueue → FeedQueue → Prop
  | load {feed : FeedQueue} (idle : feed.taking = none) : Consumes feed feed.observe
  | exchange {feed : FeedQueue} {state : EnqueueState} (read : feed.taking = some state)
      (same : feed.enqueueState = state) : Consumes feed (feed.exchange state)
  -- The state has changed, or the weak exchange failed spuriously.
  | retry {feed : FeedQueue} {state : EnqueueState} (read : feed.taking = some state) :
      Consumes feed feed.observe
  | dequeue {feed : FeedQueue} {call : Nat} {event : FeedEvent} {rest : List (Nat × FeedEvent)}
      (next : feed.queue = (call, event) :: rest) : Consumes feed (feed.dequeue call rest)
  | wake {feed : FeedQueue} (token : feed.notified = true) : Consumes feed feed.wake
  | disconnect {feed : FeedQueue} : Consumes feed feed.disconnect

def Step (capacity : Nat) (feed after : FeedQueue) : Prop :=
  Produces capacity feed after ∨ Consumes feed after

def Reaches (capacity : Nat) : FeedQueue → Prop :=
  Relation.ReflTransGen (Step capacity) start

end FeedQueue

end Statefeed
