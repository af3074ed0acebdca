import Statefeed.Model.Loop

set_option autoImplicit false

/-!
# Configuration reloads (`run_config_reloader`, `request_activation`)

The reload task shares with the publisher thread a queue of one request and the channel of its
acknowledgement, with the file watcher a slot for one notification, and with the editor of the
file nothing but the file. The lengths of its sleeps are left out: a sleep is a step that may be
taken at any time.
-/

namespace Statefeed

open Effect

deriving instance DecidableEq for StreamConfig

/-- `matches_config`: the same dictionary in the same order, whatever its generation. -/
def WatchSet.matchesConfig (watchSet : WatchSet) (configured : List WatchConfig) : Bool :=
  watchSet.keys.length == configured.length &&
    (watchSet.keys.zip configured).all fun pair =>
      pair.1.id == pair.2.id && pair.1.address == pair.2.address && pair.1.slot == pair.2.slot

-- All the settings that a reload may not change.
structure StreamSettings where
  config : StreamConfig
  publisherCpu : Option Nat
deriving DecidableEq

structure ConfigFile where
  stream : StreamSettings
  watch : List WatchConfig
deriving DecidableEq

namespace ConfigFile

def config (file : ConfigFile) : Config := { stream := file.stream.config, watch := file.watch }

/-- `Config::load`; contents that are missing or do not parse are `none`. -/
def load (contents : Option ConfigFile) : Option ConfigFile :=
  contents.filter fun file => file.config.validate = .ok ()

end ConfigFile

-- Where the task is; every stage but the last three of a reload ends in the next one.
inductive ReloadStage where
  -- The service runs and the watcher is not registered yet.
  | registering
  | waiting
  -- Sleeps while a burst of notifications arrives.
  | coalescing
  | draining
  | loading
  | comparing (watch : List WatchConfig)
  | requesting (watchSet : WatchSet)
  | awaiting (watchSet : WatchSet)
  -- Sleeps after a request that was refused.
  | retrying (watchSet : WatchSet)
  | stopped
deriving DecidableEq

/-- The stages whose `select!` also listens for a shutdown. -/
def ReloadStage.Listens : ReloadStage → Prop
  | .waiting | .coalescing | .awaiting _ | .retrying _ => True
  | _ => False

-- The acknowledgement of the request under way.
inductive Completion where
  | idle
  | pending
  | done (activated : Bool)
  -- The sender was dropped.
  | dropped
deriving DecidableEq

inductive ActivationRequest where
  | queued
  | full
  | disconnected
deriving DecidableEq

structure Reload where
  loop : Loop
  -- The request that the publisher thread has taken and not answered.
  held : Option WatchSet
  control : Option WatchSet
  completion : Completion
  connected : Bool
  stage : ReloadStage
  nextGeneration : Generation
  settings : StreamSettings
  file : Option ConfigFile
  -- Changes of the file that the watcher has not reported.
  undelivered : Nat
  events : Bool
  hangup : Bool
  shutdown : Bool
  -- Ghost: all contents read, the last ones first.
  reads : List (Option ConfigFile)
  -- Ghost: the contents were written when nobody watched, and not read since.
  missed : Bool

namespace Reload

def start (publisher : Publisher) (settings : StreamSettings) (file : Option ConfigFile) :
    Reload where
  loop := .start publisher
  held := none
  control := none
  completion := .idle
  connected := true
  stage := .registering
  nextGeneration := saturatingAdd publisher.activeWatchSet.generation 1
  settings
  file
  undelivered := 0
  events := false
  hangup := false
  shutdown := false
  reads := [file]
  missed := false

/-- `run_node` reads the file before it launches the node; the task does not read it again when it
registers the watcher. -/
def launch (env : Env) (chainId : Nat) (genesisHash : B256) (bootId : Bytes)
    (contents : Option ConfigFile) : Option Reload := do
  let file ← ConfigFile.load contents
  let publisher ← Publisher.startService env
    { stream := file.stream.config, chainId, genesisHash, bootId } (.compile 1 file.watch)
  some (start publisher file.stream contents)

def publisher (reload : Reload) : Publisher := reload.loop.publisher

-- `producer.watch_set()`
def watchSet (reload : Reload) : WatchSet := reload.loop.publisher.activeWatchSet

def lastRead (reload : Reload) : Option ConfigFile := reload.reads.headD none

def requestActivation (reload : Reload) : ActivationRequest :=
  if reload.connected then if reload.control.isSome then .full else .queued else .disconnected

/-- The stage after `Config::load`. -/
def loaded (reload : Reload) : ReloadStage :=
  match ConfigFile.load reload.file with
  | none => .waiting
  | some file => if file.stream ≠ reload.settings then .waiting else .comparing file.watch

def compared (reload : Reload) (watch : List WatchConfig) : ReloadStage :=
  if reload.watchSet.matchesConfig watch then .waiting
  else .requesting (.compile reload.nextGeneration watch)

def submit (reload : Reload) (watchSet : WatchSet) : Reload :=
  match reload.requestActivation with
  | .queued =>
    { reload with control := some watchSet, completion := .pending, stage := .awaiting watchSet }
  | .full => { reload with stage := .retrying watchSet }
  | .disconnected => { reload with stage := .stopped }

/-- The steps of the task. Its `select!` prefers a shutdown to a signal and a signal to a
notification; since each may arrive while it looks, any branch that is ready may be taken. -/
inductive Advances : Reload → Reload → Prop
  | register {reload : Reload} (registering : reload.stage = .registering) :
      Advances reload
        { reload with
          nextGeneration := saturatingAdd reload.watchSet.generation 1
          stage := .waiting }
  -- The watcher or the signal handler cannot be installed.
  | unwatched {reload : Reload} (registering : reload.stage = .registering) :
      Advances reload { reload with stage := .stopped }
  | signalled {reload : Reload} (waiting : reload.stage = .waiting) (ready : reload.hangup = true) :
      Advances reload { reload with hangup := false, stage := .coalescing }
  | notified {reload : Reload} (waiting : reload.stage = .waiting) (ready : reload.events = true) :
      Advances reload { reload with events := false, stage := .coalescing }
  | coalesced {reload : Reload} (coalescing : reload.stage = .coalescing) :
      Advances reload { reload with stage := .draining }
  | drain {reload : Reload} (draining : reload.stage = .draining) (ready : reload.events = true) :
      Advances reload { reload with events := false }
  | drained {reload : Reload} (draining : reload.stage = .draining)
      (empty : reload.events = false) : Advances reload { reload with stage := .loading }
  | load {reload : Reload} (loading : reload.stage = .loading) :
      Advances reload
        { reload with
          stage := reload.loaded
          reads := reload.file :: reload.reads
          missed := false }
  | compare {reload : Reload} {watch : List WatchConfig}
      (comparing : reload.stage = .comparing watch) :
      Advances reload { reload with stage := reload.compared watch }
  | request {reload : Reload} {watchSet : WatchSet}
      (requesting : reload.stage = .requesting watchSet) :
      Advances reload (reload.submit watchSet)
  | activated {reload : Reload} {watchSet : WatchSet} (awaiting : reload.stage = .awaiting watchSet)
      (answer : reload.completion = .done true) :
      Advances reload
        { reload with
          completion := .idle
          nextGeneration := saturatingAdd reload.nextGeneration 1
          stage := .waiting }
  | refused {reload : Reload} {watchSet : WatchSet} (awaiting : reload.stage = .awaiting watchSet)
      (answer : reload.completion = .done false) :
      Advances reload { reload with completion := .idle, stage := .retrying watchSet }
  | abandoned {reload : Reload} {watchSet : WatchSet} (awaiting : reload.stage = .awaiting watchSet)
      (answer : reload.completion = .dropped) : Advances reload { reload with stage := .stopped }
  | resignalled {reload : Reload} {watchSet : WatchSet}
      (retrying : reload.stage = .retrying watchSet) (ready : reload.hangup = true) :
      Advances reload { reload with hangup := false, stage := .coalescing }
  | superseded {reload : Reload} {watchSet : WatchSet}
      (retrying : reload.stage = .retrying watchSet) (ready : reload.events = true) :
      Advances reload { reload with events := false, stage := .coalescing }
  | again {reload : Reload} {watchSet : WatchSet} (retrying : reload.stage = .retrying watchSet) :
      Advances reload { reload with stage := .requesting watchSet }
  | exit {reload : Reload} (listens : reload.stage.Listens) (requested : reload.shutdown = true) :
      Advances reload { reload with stage := .stopped }

section

variable (allowed : Publisher → Env → Input → Prop)

inductive Publishes : Reload → Reload → Prop
  | take {reload : Reload} {watchSet : WatchSet} (running : reload.connected = true)
      (free : reload.held = none) (queued : reload.control = some watchSet) :
      Publishes reload { reload with control := none, held := some watchSet }
  | handle {reload : Reload} {env : Env} {watchSet : WatchSet} {activated : Bool}
      {publisher : Publisher} (taken : reload.held = some watchSet)
      (admitted : allowed reload.loop.publisher env (.activation watchSet))
      (idle : reload.loop.control = .idle)
      (handled : Publisher.handleControl env watchSet reload.loop.publisher =
        (.ok activated, publisher)) :
      Publishes reload
        { reload with
          loop := { publisher, control := .idle }
          held := none
          completion := .done activated }
  | round {reload : Reload} {env : Env} {input : Input} {loop : Loop}
      (running : reload.connected = true) (admitted : allowed reload.loop.publisher env input)
      (other : ∀ watchSet, input ≠ .activation watchSet)
      (holding : reload.held ≠ none → input = .loss ∨ input = .retry)
      (taken : Loop.next env input reload.loop = some loop) : Publishes reload { reload with loop }
  | stop {reload : Reload} (running : reload.connected = true) :
      Publishes reload
        { reload with
          connected := false
          held := none
          completion := if reload.held.isSome then .dropped else reload.completion }
  | discard {reload : Reload} {watchSet : WatchSet} (stopped : reload.connected = false)
      (queued : reload.control = some watchSet) :
      Publishes reload { reload with control := none, completion := .dropped }

inductive Disturbs : Reload → Reload → Prop
  | write {reload : Reload} (contents : Option ConfigFile) (watched : reload.stage ≠ .registering) :
      Disturbs reload
        { reload with file := contents, undelivered := reload.undelivered + 1, missed := false }
  | writeUnwatched {reload : Reload} (contents : Option ConfigFile)
      (unwatched : reload.stage = .registering) :
      Disturbs reload { reload with file := contents, missed := true }
  | touch {reload : Reload} (watched : reload.stage ≠ .registering) :
      Disturbs reload { reload with undelivered := reload.undelivered + 1 }
  -- `try_send` on a full channel of one notification drops the newer one.
  | deliver {reload : Reload} (pending : 0 < reload.undelivered) :
      Disturbs reload { reload with undelivered := reload.undelivered - 1, events := true }
  -- Before the handler is installed the signal ends the process.
  | hangUp {reload : Reload} (installed : reload.stage ≠ .registering) :
      Disturbs reload { reload with hangup := true }
  | shutDown {reload : Reload} : Disturbs reload { reload with shutdown := true }

inductive Step : Reload → Reload → Prop
  | task {reload after : Reload} (advances : Advances reload after) : Step reload after
  | thread {reload after : Reload} (publishes : Publishes allowed reload after) : Step reload after
  | outside {reload after : Reload} (disturbs : Disturbs reload after) : Step reload after

def Reaches (start after : Reload) : Prop := Relation.ReflTransGen (Step allowed) start after

end

end Reload

end Statefeed
