import Mathlib.Logic.Relation
import Statefeed.Model.Publisher

set_option autoImplicit false

namespace Statefeed

open Effect

inductive Control where
  | idle
  | recovering (gapAnnounced : Bool) (reason : String)
deriving DecidableEq

structure Loop where
  publisher : Publisher
  control : Control

-- What the thread takes up next. `retry` is one round of `recover_until_success`.
inductive Input where
  | event (event : FeedEvent)
  | activation (watchSet : WatchSet)
  | maintenance
  | loss
  | retry

namespace Loop

def beginRecovery (reason : String) (publisher : Publisher) : Loop where
  publisher := publisher
  control := .recovering publisher.shared.published.recovering reason

def settle {α : Type} (reason : String) : Except Error α × Publisher → Loop
  | (.ok _, publisher) => { publisher, control := .idle }
  | (.error _, publisher) => beginRecovery reason publisher

def retryReanchor (env : Env) (reason : String) (publisher : Publisher) : Loop :=
  match Publisher.reanchor env publisher with
  | (.ok _, publisher) => { publisher, control := .idle }
  | (.error _, publisher) => { publisher, control := .recovering true reason }

def retry (env : Env) (gapAnnounced : Bool) (reason : String) (publisher : Publisher) : Loop :=
  if gapAnnounced then retryReanchor env reason publisher
  else
    match Publisher.announceGap env reason publisher with
    | (.ok _, publisher) => retryReanchor env reason publisher
    | (.error _, publisher) => { publisher, control := .recovering false reason }

def next (env : Env) (input : Input) (loop : Loop) : Option Loop :=
  match loop.control, input with
  | .idle, .event event => some (settle "publisher_error" (Publisher.handle env event loop.publisher))
  | .idle, .activation watchSet =>
    some (settle "publisher_error" (Publisher.handleControl env watchSet loop.publisher))
  | .idle, .maintenance =>
    some (settle "candidate_maintenance_error" (Publisher.maintain env loop.publisher))
  | .idle, .loss => some (beginRecovery "engine_queue_overflow" loop.publisher)
  | .recovering gapAnnounced reason, .retry => some (retry env gapAnnounced reason loop.publisher)
  | _, _ => none

def failureOf {α : Type} : Except Error α → Option Error
  | .ok _ => none
  | .error failure => some failure

/-- The error that the operation of a round returns. -/
def failure (env : Env) (input : Input) (loop : Loop) : Option Error :=
  match loop.control, input with
  | .idle, .event event => failureOf (Publisher.handle env event loop.publisher).1
  | .idle, .activation watchSet => failureOf (Publisher.activate env watchSet loop.publisher).1
  | .idle, .maintenance => failureOf (Publisher.maintain env loop.publisher).1
  | .recovering true _, .retry => failureOf (Publisher.reanchor env loop.publisher).1
  | .recovering false reason, .retry =>
    match Publisher.announceGap env reason loop.publisher with
    | (.ok _, publisher) => failureOf (Publisher.reanchor env publisher).1
    | (.error failure, _) => some failure
  | _, _ => none

/-- One round of the thread, with an environment and an input that `allowed` admits. -/
def Round (allowed : Publisher → Env → Input → Prop) (loop after : Loop) : Prop :=
  ∃ env input, allowed loop.publisher env input ∧ next env input loop = some after

def start (publisher : Publisher) : Loop := { publisher, control := .idle }

/-- `after` is reached from `publisher` by rounds whose environment and input are allowed. -/
def Reaches (allowed : Publisher → Env → Input → Prop) (publisher : Publisher) (after : Loop) :
    Prop :=
  Relation.ReflTransGen (Round allowed) (start publisher) after

end Loop

inductive Call where
  | handle (event : FeedEvent)
  | handleControl (watchSet : WatchSet)
  | maintain
  | announceGap (reason : String)
  | reanchor

namespace Call

def perform (env : Env) : Call → Publisher → Publisher
  | handle event, publisher => (Publisher.handle env event publisher).2
  | handleControl watchSet, publisher => (Publisher.handleControl env watchSet publisher).2
  | maintain, publisher => (Publisher.maintain env publisher).2
  | announceGap reason, publisher => (Publisher.announceGap env reason publisher).2
  | reanchor, publisher => (Publisher.reanchor env publisher).2

def Next (allowed : Publisher → Env → Call → Prop) (publisher after : Publisher) : Prop :=
  ∃ env call, allowed publisher env call ∧ after = call.perform env publisher

def Reaches (allowed : Publisher → Env → Call → Prop) : Publisher → Publisher → Prop :=
  Relation.ReflTransGen (Next allowed)

end Call

end Statefeed
