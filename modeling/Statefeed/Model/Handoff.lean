import Statefeed.Model.Connection

set_option autoImplicit false

namespace Statefeed

/-- The `publish_*` calls of the engine. -/
inductive Publish where
  | executed (block : BlockMeta) (bundle : BundleState)
  | validated (blockHash : B256)
  | validatedFallback (block : BlockMeta) (bundle : BundleState)
  | canonicalStateReset (head : CheckpointMeta)
  | forkchoiceApplied (view : AppliedForkchoiceMeta)
  | rejected (blockHash : B256) (reason : String)

structure Produced where
  observedAt : Instant
  watchSet : WatchSet
  publish : Publish

def Produced.event (call : Produced) : FeedEvent :=
  match call.publish with
  | .executed block bundle =>
    .executed call.observedAt call.watchSet.generation block (extractChanges call.watchSet bundle)
  | .validated blockHash => .validated call.observedAt call.watchSet.generation blockHash
  | .validatedFallback block bundle =>
    .validatedFallback call.observedAt call.watchSet.generation block
      (extractChanges call.watchSet bundle)
  | .canonicalStateReset head =>
    .canonicalStateReset call.observedAt call.watchSet.generation head
  | .forkchoiceApplied view => .forkchoiceApplied call.observedAt call.watchSet.generation view
  | .rejected blockHash reason =>
    .rejected call.observedAt call.watchSet.generation blockHash reason

structure Handoff where
  session : Session
  -- The watch set that the producers load.
  watchSet : WatchSet
  calls : List Produced
  queue : List Produced
  -- Events lost since the thread last looked.
  dropped : Nat
  control : Option WatchSet

namespace Handoff

def loop (handoff : Handoff) : Loop := handoff.session.loop

def publisher (handoff : Handoff) : Publisher := handoff.session.loop.publisher

def start (publisher : Publisher) : Handoff where
  session := .start publisher
  watchSet := publisher.activeWatchSet
  calls := []
  queue := []
  dropped := 0
  control := none

def Settled (handoff : Handoff) : Prop := handoff.watchSet = handoff.publisher.activeWatchSet

inductive Step (capacity : Nat) : Handoff → Handoff → Prop
  | load {handoff : Handoff} (observedAt : Instant) (publish : Publish) :
      Step capacity handoff
        { handoff with calls := handoff.calls ++ [⟨observedAt, handoff.watchSet, publish⟩] }
  | enqueue {handoff : Handoff} {before after : List Produced} {call : Produced}
      (active : handoff.calls = before ++ call :: after) (room : handoff.queue.length < capacity) :
      Step capacity handoff
        { handoff with calls := before ++ after, queue := handoff.queue ++ [call] }
  | drop {handoff : Handoff} {before after : List Produced} {call : Produced}
      (active : handoff.calls = before ++ call :: after) :
      Step capacity handoff
        { handoff with calls := before ++ after, dropped := handoff.dropped + 1 }
  | request {handoff : Handoff} (watchSet : WatchSet) (free : handoff.control = none) :
      Step capacity handoff { handoff with control := some watchSet }
  | handle {handoff : Handoff} {env : Env} {call : Produced} {rest : List Produced} {loop : Loop}
      (settled : handoff.Settled) (next : handoff.queue = call :: rest)
      (taken : Loop.next env (.event call.event) handoff.loop = some loop) :
      Step capacity handoff { handoff with session := handoff.session.enqueue loop, queue := rest }
  | activate {handoff : Handoff} {env : Env} {watchSet : WatchSet} {loop : Loop}
      (settled : handoff.Settled) (next : handoff.control = some watchSet)
      (taken : Loop.next env (.activation watchSet) handoff.loop = some loop) :
      Step capacity handoff
        { handoff with session := handoff.session.enqueue loop, control := none }
  | swap {handoff : Handoff} :
      Step capacity handoff { handoff with watchSet := handoff.publisher.activeWatchSet }
  | maintain {handoff : Handoff} {env : Env} {loop : Loop} (settled : handoff.Settled)
      (taken : Loop.next env .maintenance handoff.loop = some loop) :
      Step capacity handoff { handoff with session := handoff.session.enqueue loop }
  | loss {handoff : Handoff} {env : Env} {loop : Loop} (settled : handoff.Settled)
      (pending : 0 < handoff.dropped) (taken : Loop.next env .loss handoff.loop = some loop) :
      Step capacity handoff
        { handoff with session := handoff.session.enqueue loop, dropped := 0 }
  | retry {handoff : Handoff} {env : Env} {loop : Loop} (settled : handoff.Settled)
      (taken : Loop.next env .retry handoff.loop = some loop) :
      Step capacity handoff { handoff with session := handoff.session.enqueue loop }
  -- The writes of the thread and the steps of a connection, at any time.
  | serve {handoff : Handoff} {session : Session}
      (served : Session.Step (fun _ _ _ => False) handoff.session session) :
      Step capacity handoff { handoff with session }

def Reaches (capacity : Nat) (publisher : Publisher) (after : Handoff) : Prop :=
  Relation.ReflTransGen (Step capacity) (start publisher) after

end Handoff

end Statefeed
