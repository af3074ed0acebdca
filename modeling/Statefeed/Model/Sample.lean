import Statefeed.Model.Loop

set_option autoImplicit false

/-!
# A service over one watched slot

A concrete chain on which definitions are evaluated: block `h` has number `h` and parent
`h - 1`, and its watched slot holds `h`.
-/

namespace Statefeed.Sample

def watchSet : WatchSet := .compile 1 [{ id := "value", address := 0, slot := 0 }]

def block (hash : B256) : BlockMeta where
  number := hash.toNat
  hash := hash
  parentHash := hash - 1
  timestamp := 0

def values (watched : WatchSet) (hash : B256) : Bytes :=
  watched.keys.flatMap fun _ => U256.toBeBytes hash

def projection (watched : WatchSet) (hash : B256) : Projection where
  block := block hash
  watchSet := watched
  values := values watched hash
  changedBitmap := []

def forkchoice (hash : B256) : ForkchoiceMeta where
  head := { number := hash.toNat, hash }
  safe := none
  finalized := none

/-- The provider's head is block `head`, confirmed at `anchoredAt`. -/
def env (head : B256) (anchoredAt : Instant) : Env where
  now _ := anchoredAt
  elapsedNs sequence := sequence
  loadLatest watched := some
    { projection := projection watched head, anchoredAt, forkchoice := forkchoice head }
  loadAt watched hash := some (projection watched hash)
  rank := BitVec.toNat

def options : Publisher.ServiceOptions where
  stream := .default
  chainId := 1
  genesisHash := 0
  bootId := []

def loaded (head : B256) : CanonicalSnapshot where
  projection := projection watchSet head
  anchoredAt := 0
  forkchoice := forkchoice head

def start : Publisher := .initial (env 1 0) options watchSet (loaded 1)

theorem starts : Publisher.Starts (env 1 0) options watchSet (loaded 1) where
  config := by decide
  nonempty := by decide
  read := rfl
  dictionary := by decide
  view := by decide
  frames := by decide +kernel

theorem started : Publisher.startService (env 1 0) options watchSet = some start :=
  Publisher.startService_eq_some.mpr ⟨loaded 1, starts, rfl⟩

def executed (hash : B256) (observedAt : Instant) : FeedEvent :=
  .executed observedAt 1 (block hash) [{ keyId := 0, newValue := hash }]

def fallback (hash : B256) (observedAt : Instant) : FeedEvent :=
  .validatedFallback observedAt 1 (block hash) [{ keyId := 0, newValue := hash }]

def applied (hash : B256) (observedAt : Instant) : FeedEvent :=
  .forkchoiceApplied observedAt 1 { headHash := hash, safe := none, finalized := none }

theorem next_event {loop : Loop} {env : Env} {event : FeedEvent} (idle : loop.control = .idle) :
    Loop.next env (.event event) loop =
      some (.settle "publisher_error" (Publisher.handle env event loop.publisher)) := by
  obtain ⟨publisher, control⟩ := loop
  cases idle
  rfl

def narrowOptions : Publisher.ServiceOptions :=
  { options with stream := { StreamConfig.default with candidateCacheBlocks := 2 } }

def narrowStart : Publisher := .initial (env 1 0) narrowOptions watchSet (loaded 1)

theorem narrow_started :
    Publisher.startService (env 1 0) narrowOptions watchSet = some narrowStart := by
  refine Publisher.startService_eq_some.mpr ⟨loaded 1, ?_, rfl⟩
  exact ⟨by decide, by decide, rfl, by decide, by decide, by decide +kernel⟩

def handled (event : FeedEvent) (loop : Loop) : Loop :=
  .settle "publisher_error" (Publisher.handle (env 1 0) event loop.publisher)

theorem round_handled {allowed : Publisher → Env → Input → Prop} {loop : Loop} {event : FeedEvent}
    (idle : loop.control = .idle) (admitted : allowed loop.publisher (env 1 0) (.event event)) :
    Loop.Round allowed loop (handled event loop) :=
  ⟨env 1 0, .event event, admitted, next_event idle⟩

/-- The rounds that take up `inputs` one after the other, in one environment, as long as each of
them passes the check. -/
def checkedRun (check : Publisher → Input → Bool) (env : Env) : List Input → Loop → Option Loop
  | [], loop => some loop
  | input :: rest, loop =>
    if check loop.publisher input then (Loop.next env input loop).bind (checkedRun check env rest)
    else none

def run (env : Env) : List Input → Loop → Option Loop := checkedRun (fun _ _ => true) env

section

variable {allowed : Publisher → Env → Input → Prop} {check : Publisher → Input → Bool} {env : Env}
  {inputs : List Input}

theorem reaches_checkedRun {loop after : Loop}
    (admitted : ∀ p, ∀ input ∈ inputs, check p input = true → allowed p env input)
    (ran : checkedRun check env inputs loop = some after) :
    Relation.ReflTransGen (Loop.Round allowed) loop after := by
  induction inputs generalizing loop with
  | nil =>
    cases ran
    exact .refl
  | cons input rest ih =>
    unfold checkedRun at ran
    split at ran
    · next checked =>
      obtain ⟨middle, taken, ran⟩ := Option.bind_eq_some_iff.mp ran
      refine .head ⟨env, input, admitted _ input List.mem_cons_self checked, taken⟩ (ih ?_ ran)
      exact fun p other member => admitted p other (List.mem_cons_of_mem _ member)
    · cases ran

theorem exists_of_checkedRun (start : Publisher) (holds : Loop → Prop) [DecidablePred holds]
    (admitted : ∀ p, ∀ input ∈ inputs, check p input = true → allowed p env input)
    (ran : (checkedRun check env inputs (.start start)).any (fun loop => holds loop) = true) :
    ∃ loop, Loop.Reaches allowed start loop ∧ holds loop := by
  cases result : checkedRun check env inputs (.start start) with
  | none =>
    rw [result] at ran
    cases ran
  | some loop =>
    rw [result] at ran
    exact ⟨loop, reaches_checkedRun admitted result, of_decide_eq_true ran⟩

theorem reaches_run {loop after : Loop}
    (admitted : ∀ p, ∀ input ∈ inputs, allowed p env input)
    (ran : run env inputs loop = some after) :
    Relation.ReflTransGen (Loop.Round allowed) loop after :=
  reaches_checkedRun (fun p input member _ => admitted p input member) ran

theorem exists_of_run (start : Publisher) (holds : Loop → Prop) [DecidablePred holds]
    (admitted : ∀ p, ∀ input ∈ inputs, allowed p env input)
    (ran : (run env inputs (.start start)).any (fun loop => holds loop) = true) :
    ∃ loop, Loop.Reaches allowed start loop ∧ holds loop :=
  exists_of_checkedRun start holds (fun p input member _ => admitted p input member) ran

end

def sibling (hash : B256) : BlockMeta where
  number := 2
  hash := hash
  parentHash := 1
  timestamp := 0

def forked (hash : B256) : BlockMeta := if hash = 1 then block 1 else sibling hash

def forkedEnv : Env := { env 1 0 with loadAt := fun _ _ => none }

def executedSibling (hash : B256) : FeedEvent :=
  .executed 1 1 (sibling hash) [{ keyId := 0, newValue := hash }]

end Statefeed.Sample
