import Statefeed.Library.Table
import Statefeed.Model.Wire

set_option autoImplicit false

namespace Statefeed.Dump

structure CandidateTracker where
  parents : Table Bytes Bytes
  children : Table Bytes (List Bytes)
  insertionOrder : List Bytes
  limit : Nat

namespace CandidateTracker

def new (limit : Nat) : CandidateTracker where
  parents := ∅
  children := ∅
  insertionOrder := []
  limit := limit

def setChildren (children : Table Bytes (List Bytes)) (tracker : CandidateTracker) :
    CandidateTracker :=
  { tracker with children }

def removeChild (parent child : Bytes) (tracker : CandidateTracker) : CandidateTracker :=
  match tracker.children.get parent with
  | none => tracker
  | some children =>
    let kept := children.filter (· ≠ child)
    tracker.setChildren
      (if kept = [] then tracker.children.erase parent else tracker.children.insert parent kept)

def pushChild (parent child : Bytes) (tracker : CandidateTracker) : CandidateTracker :=
  tracker.setChildren
    (tracker.children.insert parent ((tracker.children.get parent).getD [] ++ [child]))

def removeExact (hash : Bytes) (tracker : CandidateTracker) : CandidateTracker :=
  let removed :=
    match tracker.parents.get hash with
    | some parent => { tracker with parents := tracker.parents.erase hash }.removeChild parent hash
    | none => tracker
  { removed with insertionOrder := removed.insertionOrder.filter (· ≠ hash) }

-- The loop of the source does not stop if it has no entry left to remove.
def evictOldest : Nat → CandidateTracker → CandidateTracker
  | 0, tracker => tracker
  | fuel + 1, tracker =>
    if tracker.parents.size > tracker.limit then
      match tracker.insertionOrder with
      | [] => tracker
      | oldest :: rest =>
        evictOldest fuel ({ tracker with insertionOrder := rest }.removeExact oldest)
    else tracker

def place (hash parentHash : Bytes) (tracker : CandidateTracker) : CandidateTracker :=
  let recorded := { tracker with parents := tracker.parents.insert hash parentHash }
  match tracker.parents.get hash with
  | some previousParent =>
    if previousParent ≠ parentHash then
      (recorded.removeChild previousParent hash).pushChild parentHash hash
    else recorded
  | none =>
    { recorded with insertionOrder := recorded.insertionOrder ++ [hash] }.pushChild parentHash hash

def insert (hash parentHash : Bytes) (tracker : CandidateTracker) : CandidateTracker :=
  let placed := tracker.place hash parentHash
  placed.evictOldest placed.insertionOrder.length

-- The body of that loop as the source has it, `none` once its condition fails.
def evictRound (tracker : CandidateTracker) : Option CandidateTracker :=
  if tracker.parents.size > tracker.limit then
    some (match tracker.insertionOrder with
      | [] => tracker
      | oldest :: rest => { tracker with insertionOrder := rest }.removeExact oldest)
  else none

def clear (tracker : CandidateTracker) : CandidateTracker :=
  { tracker with parents := ∅, children := ∅, insertionOrder := [] }

-- `pending` is the stack of the source with its top first.
def removeTreeLoop : Nat → List Bytes → CandidateTracker → CandidateTracker
  | 0, _, tracker => tracker
  | _ + 1, [], tracker => tracker
  | fuel + 1, hash :: pending, tracker =>
    let children := (tracker.children.get hash).getD []
    let detached := tracker.setChildren (tracker.children.erase hash)
    removeTreeLoop fuel (children.reverse ++ pending) (detached.removeExact hash)

def removeTreeRound : List Bytes × CandidateTracker → Option (List Bytes × CandidateTracker)
  | ([], _) => none
  | (hash :: pending, tracker) =>
    let children := (tracker.children.get hash).getD []
    let detached := tracker.setChildren (tracker.children.erase hash)
    some (children.reverse ++ pending, detached.removeExact hash)

def containsKey (tracker : CandidateTracker) (hash : Bytes) : Bool :=
  (tracker.parents.get hash).isSome

def removeTree (root : Bytes) (tracker : CandidateTracker) : CandidateTracker :=
  let removed := removeTreeLoop (tracker.children.total List.length + 1) [root] tracker
  { removed with
    insertionOrder := removed.insertionOrder.filter fun hash => (removed.parents.get hash).isSome }

inductive Call where
  | insert (hash parentHash : Bytes)
  | removeExact (hash : Bytes)
  | removeTree (root : Bytes)
  | clear

def perform (tracker : CandidateTracker) : Call → CandidateTracker
  | .insert hash parentHash => tracker.insert hash parentHash
  | .removeExact hash => tracker.removeExact hash
  | .removeTree root => tracker.removeTree root
  | .clear => tracker.clear

def observe (event : Wire.Event) (tracker : CandidateTracker) : CandidateTracker :=
  match event with
  | .configActivated _ | .gap _ => tracker.clear
  | .snapshot snapshot =>
    match snapshot.block with
    | some block => tracker.clear.insert block.hash block.parentHash
    | none => tracker
  | .blockState state =>
    match state.block with
    | some block => tracker.insert block.hash block.parentHash
    | none => tracker
  | .canonicalHead head =>
    match head.block with
    | some block => tracker.insert block.hash block.parentHash
    | none => tracker
  | .blockRejected rejected => tracker.removeTree rejected.blockHash
  | .candidatesRetired retired =>
    retired.blockHashes.foldl (fun tracker hash => tracker.removeExact hash) tracker
  | .hello _ | .blockValidated _ | .forkchoiceApplied _ => tracker

def observeAll (events : List Wire.Event) (tracker : CandidateTracker) : CandidateTracker :=
  events.foldl (fun tracker event => tracker.observe event) tracker

end CandidateTracker

end Statefeed.Dump
