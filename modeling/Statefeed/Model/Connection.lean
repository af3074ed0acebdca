import Statefeed.Library.Publication
import Statefeed.Model.Loop

set_option autoImplicit false

/-!
# One consumer connection (`serve_consumer`)

The publisher thread and a connection share three pieces of memory: the handshake state, the
committed sequence and the broadcast ring. The thread writes them one at a time, in the order
of `publish_inner`, and the connection may take a step between any two writes.
-/

namespace Statefeed

open Publication

inductive Refusal where
  | recovering | transition | incoherent
deriving DecidableEq

structure Handshake where
  baseline : Nat
  canonical : Projection
  forkchoice : ForkchoiceMeta

namespace Handshake

def generation (handshake : Handshake) : Generation := handshake.canonical.watchSet.generation

def accept (committedSequence : Nat) (published : PublishedState) : Except Refusal Handshake :=
  if published.recovering then .error .recovering
  else
    match published.forkchoice with
    | none => .error .transition
    | some forkchoice =>
      if forkchoice.head.hash ≠ published.canonical.block.hash ∨
          forkchoice.head.number ≠ published.canonical.block.number then
        .error .incoherent
      else
        .ok { baseline := max committedSequence published.effectiveSequence
              canonical := published.canonical
              forkchoice }

def events (shared : Shared) (handshake : Handshake) : List Wire.Event :=
  [.hello shared.hello,
    .configActivated (configActivated handshake.canonical.watchSet),
    .snapshot (snapshot handshake.canonical handshake.forkchoice)]

end Handshake

namespace PublishedFrame

def sequence (frame : PublishedFrame) : Nat := frame.envelope.sequence

def writes (frame : PublishedFrame) : List (Write PublishedFrame PublishedState) :=
  Publication.writes sequence stored frame

end PublishedFrame

inductive ConnectionStage where
  | connecting
  | subscribed
  | positioned (committedSequence : Nat)
  -- The handshake events still to be written; live frames are forwarded once there are none.
  | serving (handshake : Handshake) (greetings : List Wire.Event)
  | closed

structure Connection where
  stage : ConnectionStage
  -- How far the broadcast receiver has got.
  received : Nat
  handshake : Option Handshake
  sent : List Wire.Envelope

namespace Connection

def fresh : Connection where
  stage := .connecting
  received := 0
  handshake := none
  sent := []

def isOpen (connection : Connection) : Bool :=
  match connection.stage with
  | .closed => false
  | _ => true

def close (connection : Connection) : Connection := { connection with stage := .closed }

section

variable (shared : Shared) (memory : Register PublishedFrame PublishedState)

/-- A step of `serve_consumer` that does not return. -/
inductive Advances : Connection → Connection → Prop
  | subscribe {connection : Connection} (connecting : connection.stage = .connecting) :
      Advances connection
        { connection with stage := .subscribed, received := memory.sent.length }
  | position {connection : Connection} (subscribed : connection.stage = .subscribed) :
      Advances connection { connection with stage := .positioned memory.position }
  | accept {connection : Connection} {committedSequence : Nat} {handshake : Handshake}
      (positioned : connection.stage = .positioned committedSequence)
      (accepted : Handshake.accept committedSequence memory.state = .ok handshake) :
      Advances connection
        { connection with
          stage := .serving handshake (handshake.events shared)
          handshake := some handshake }
  | greet {connection : Connection} {env : Env} {handshake : Handshake} {event : Wire.Event}
      {rest : List Wire.Event} {frame : Wire.Frame}
      (serving : connection.stage = .serving handshake (event :: rest))
      (encodes : Wire.encodeFrame (shared.envelope env handshake.baseline handshake.generation
        event) shared.maxFrameBytes = .ok frame) :
      Advances connection
        { connection with
          stage := .serving handshake rest
          sent := connection.sent ++ [frame.payload] }
  | forward {connection : Connection} {handshake : Handshake} {frame : PublishedFrame}
      (serving : connection.stage = .serving handshake [])
      (kept : memory.sent.length ≤ connection.received + shared.ring)
      (next : memory.sent[connection.received]? = some frame)
      (later : handshake.baseline < frame.sequence) :
      Advances connection
        { connection with
          received := connection.received + 1
          sent := connection.sent ++ [frame.envelope] }
  | skip {connection : Connection} {handshake : Handshake} {frame : PublishedFrame}
      (serving : connection.stage = .serving handshake [])
      (kept : memory.sent.length ≤ connection.received + shared.ring)
      (next : memory.sent[connection.received]? = some frame)
      (earlier : ¬ handshake.baseline < frame.sequence) :
      Advances connection { connection with received := connection.received + 1 }

/-- Why `serve_consumer` returns. -/
inductive Returns (shutdown : Bool) : Connection → Prop
  | refused {connection : Connection} {committedSequence : Nat} {refusal : Refusal}
      (positioned : connection.stage = .positioned committedSequence)
      (refused : Handshake.accept committedSequence memory.state = .error refusal) :
      Returns shutdown connection
  | unencoded {connection : Connection} {env : Env} {handshake : Handshake} {event : Wire.Event}
      {rest : List Wire.Event} {failure : Wire.EncodeError}
      (serving : connection.stage = .serving handshake (event :: rest))
      (overflows : Wire.encodeFrame (shared.envelope env handshake.baseline handshake.generation
        event) shared.maxFrameBytes = .error failure) : Returns shutdown connection
  -- The write of a handshake event failed or took more than a second.
  | ungreeted {connection : Connection} {env : Env} {handshake : Handshake} {event : Wire.Event}
      {rest : List Wire.Event} {frame : Wire.Frame}
      (serving : connection.stage = .serving handshake (event :: rest))
      (encodes : Wire.encodeFrame (shared.envelope env handshake.baseline handshake.generation
        event) shared.maxFrameBytes = .ok frame) : Returns shutdown connection
  -- So did the write of a frame of the ring.
  | unwritten {connection : Connection} {handshake : Handshake} {frame : PublishedFrame}
      (serving : connection.stage = .serving handshake [])
      (kept : memory.sent.length ≤ connection.received + shared.ring)
      (next : memory.sent[connection.received]? = some frame)
      (later : handshake.baseline < frame.sequence) : Returns shutdown connection
  -- The next frame has been overwritten in the ring.
  | lagged {connection : Connection} {handshake : Handshake}
      (serving : connection.stage = .serving handshake [])
      (overwritten : connection.received + shared.ring < memory.sent.length) : Returns shutdown connection
  | stopped {connection : Connection} {handshake : Handshake}
      (serving : connection.stage = .serving handshake []) (signalled : shutdown = true) :
      Returns shutdown connection

end

end Connection

structure Session where
  loop : Loop
  memory : Register PublishedFrame PublishedState
  -- Writes of frames the thread has built and not yet exposed.
  pending : List (Write PublishedFrame PublishedState)
  shutdown : Bool
  connection : Connection

namespace Session

def start (publisher : Publisher) : Session where
  loop := .start publisher
  memory :=
    { state := publisher.shared.published
      position := publisher.shared.publishedSequence
      sent := [] }
  pending := []
  shutdown := false
  connection := .fresh

def shared (session : Session) : Shared := session.loop.publisher.shared

def enqueue (session : Session) (loop : Loop) : Session :=
  { session with
    loop
    pending := session.pending ++
      (loop.publisher.shared.frames.drop session.shared.frames.length).flatMap PublishedFrame.writes }

def connect (session : Session) (connection : Connection) : Session := { session with connection }

inductive Step (allowed : Publisher → Env → Input → Prop) : Session → Session → Prop
  | publish {session : Session} {loop : Loop} (round : Loop.Round allowed session.loop loop) :
      Step allowed session (session.enqueue loop)
  | write {session : Session} {write : Write PublishedFrame PublishedState}
      {rest : List (Write PublishedFrame PublishedState)} (next : session.pending = write :: rest) :
      Step allowed session
        { session with memory := session.memory.apply write, pending := rest }
  | subscribe {session : Session} (connecting : session.connection.stage = .connecting) :
      Step allowed session (session.connect
        { session.connection with stage := .subscribed, received := session.memory.sent.length })
  | position {session : Session} (subscribed : session.connection.stage = .subscribed) :
      Step allowed session (session.connect
        { session.connection with stage := .positioned session.memory.position })
  | accept {session : Session} {committedSequence : Nat} {handshake : Handshake}
      (positioned : session.connection.stage = .positioned committedSequence)
      (accepted : Handshake.accept committedSequence session.memory.state = .ok handshake) :
      Step allowed session (session.connect
        { session.connection with
          stage := .serving handshake (handshake.events session.shared)
          handshake := some handshake })
  | greet {session : Session} {env : Env} {handshake : Handshake} {event : Wire.Event}
      {rest : List Wire.Event} {frame : Wire.Frame}
      (serving : session.connection.stage = .serving handshake (event :: rest))
      (encodes : Wire.encodeFrame (session.shared.envelope env handshake.baseline
        handshake.generation event) session.shared.maxFrameBytes = .ok frame) :
      Step allowed session (session.connect
        { session.connection with
          stage := .serving handshake rest
          sent := session.connection.sent ++ [frame.payload] })
  | forward {session : Session} {handshake : Handshake} {frame : PublishedFrame}
      (serving : session.connection.stage = .serving handshake [])
      (next : session.memory.sent[session.connection.received]? = some frame)
      (later : handshake.baseline < frame.sequence) :
      Step allowed session (session.connect
        { session.connection with
          received := session.connection.received + 1
          sent := session.connection.sent ++ [frame.envelope] })
  | skip {session : Session} {handshake : Handshake} {frame : PublishedFrame}
      (serving : session.connection.stage = .serving handshake [])
      (next : session.memory.sent[session.connection.received]? = some frame)
      (earlier : ¬ handshake.baseline < frame.sequence) :
      Step allowed session (session.connect
        { session.connection with received := session.connection.received + 1 })
  | signal {session : Session} : Step allowed session { session with shutdown := true }
  | close {session : Session}
      (returns : session.connection.Returns session.shared session.memory session.shutdown) :
      Step allowed session (session.connect session.connection.close)
  -- `run_server` stops and aborts the task.
  | abort {session : Session} (signalled : session.shutdown = true) :
      Step allowed session (session.connect session.connection.close)

def Reaches (allowed : Publisher → Env → Input → Prop) (publisher : Publisher) (after : Session) :
    Prop :=
  Relation.ReflTransGen (Step allowed) (start publisher) after

end Session

end Statefeed
