import Statefeed.Model.Connection

set_option autoImplicit false

/-!
# The consumers of one service (`run_server`)

One task accepts consumers up to a limit, and a task of its own serves each of them. They share
the memory of one publisher thread, whose broadcast ring keeps a bounded number of frames.
-/

namespace Statefeed

open Publication

structure Server where
  loop : Loop
  memory : Register PublishedFrame PublishedState
  pending : List (Write PublishedFrame PublishedState)
  shutdown : Bool
  listening : Bool
  permits : Nat
  -- Every consumer that was let in, also those whose task has returned.
  consumers : List Connection

namespace Server

def start (maxConsumers : Nat) (publisher : Publisher) : Server where
  loop := .start publisher
  memory := (Session.start publisher).memory
  pending := []
  shutdown := false
  listening := true
  permits := maxConsumers
  consumers := []

def shared (server : Server) : Shared := server.loop.publisher.shared

def enqueue (server : Server) (loop : Loop) : Server :=
  { server with
    loop
    pending := server.pending ++
      (loop.publisher.shared.frames.drop server.shared.frames.length).flatMap PublishedFrame.writes }

/-- The number of consumers whose task has not returned, each with a permit. -/
def served (server : Server) : Nat := server.consumers.countP Connection.isOpen

inductive Step (allowed : Publisher → Env → Input → Prop) : Server → Server → Prop
  | publish {server : Server} {loop : Loop} (round : Loop.Round allowed server.loop loop) :
      Step allowed server (server.enqueue loop)
  | write {server : Server} {write : Write PublishedFrame PublishedState}
      {rest : List (Write PublishedFrame PublishedState)} (next : server.pending = write :: rest) :
      Step allowed server { server with memory := server.memory.apply write, pending := rest }
  | accept {server : Server} {permits : Nat} (listening : server.listening = true)
      (free : server.permits = permits + 1) :
      Step allowed server
        { server with permits, consumers := server.consumers ++ [.fresh] }
  | turnAway {server : Server} (listening : server.listening = true) (full : server.permits = 0) :
      Step allowed server server
  | serve {server : Server} {index : Nat} {connection after : Connection}
      (found : server.consumers[index]? = some connection)
      (advances : Connection.Advances server.shared server.memory connection after) :
      Step allowed server { server with consumers := server.consumers.set index after }
  | return {server : Server} {index : Nat} {connection : Connection}
      (found : server.consumers[index]? = some connection)
      (returns : connection.Returns server.shared server.memory server.shutdown) :
      Step allowed server
        { server with
          permits := server.permits + 1
          consumers := server.consumers.set index connection.close }
  | signal {server : Server} : Step allowed server { server with shutdown := true }
  -- The accepting task ends and aborts the others.
  | stop {server : Server} (listening : server.listening = true) (signalled : server.shutdown = true) :
      Step allowed server
        { server with
          listening := false
          permits := server.permits + server.served
          consumers := server.consumers.map Connection.close }

def Reaches (allowed : Publisher → Env → Input → Prop) (stream : StreamConfig)
    (publisher : Publisher) : Server → Prop :=
  Relation.ReflTransGen (Step allowed) (start stream.maxConsumers publisher)

end Server

end Statefeed
