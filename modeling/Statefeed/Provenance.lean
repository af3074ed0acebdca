import Statefeed.Model.Validator
import Statefeed.Reflection
import Statefeed.Stream.Session
import Statefeed.Validated

set_option autoImplicit false

namespace Statefeed

open Effect Effect.Op Machine

def FeedEvent.Answers : FeedEvent → Wire.Event → Prop
  | .executed _ _ block _, .blockState state =>
    state.stage = Wire.BlockStage.executed.code ∧ state.block = some (blockRef block)
  | .validatedFallback _ _ block _, .blockState state =>
    state.stage = Wire.BlockStage.validated.code ∧ state.block = some (blockRef block)
  | .validated _ _ hash, .blockState state =>
    state.stage = Wire.BlockStage.validated.code ∧
      state.block.map Wire.BlockRef.hash = some (B256.toVec hash)
  | .validatedFallback _ _ block _, .blockValidated notice =>
    notice.blockHash = B256.toVec block.hash
  | .validated _ _ hash, .blockValidated notice => notice.blockHash = B256.toVec hash
  | .rejected _ _ hash reason, .blockRejected notice =>
    notice = { blockHash := B256.toVec hash, reason }
  | .forkchoiceApplied _ _ view, .canonicalHead head =>
    head.block.map Wire.BlockRef.hash = some (B256.toVec view.headHash)
  | .forkchoiceApplied _ _ _, .forkchoiceApplied _ => True
  | .canonicalStateReset _ _ _, .gap _ => True
  | .canonicalStateReset _ _ _, .snapshot _ => True
  | _, .candidatesRetired _ => True
  | _, _ => False

def Input.Answers : Input → Wire.Event → Prop
  | .event callback, answer => callback.Answers answer
  | .activation watchSet, .configActivated config => config = configActivated watchSet
  | .activation _, .snapshot _ => True
  | .maintenance, .candidatesRetired _ => True
  | .retry, .gap _ => True
  | .retry, .snapshot _ => True
  | _, _ => False

def Adds (allowed : Wire.Event → Prop) (before after : Publisher) : Prop :=
  ∃ added, after.shared.frames = before.shared.frames ++ added ∧
    ∀ frame ∈ added, ∀ event ∈ frame.envelope.event, allowed event

section

variable {allowed : Wire.Event → Prop} {env : Env} {generation : Generation}

theorem adds_of_frames {before after : Publisher}
    (frames : after.shared.frames = before.shared.frames) : Adds allowed before after :=
  ⟨[], by rw [frames, List.append_nil], fun _ member => absurd member List.not_mem_nil⟩

theorem Adds.trans {before middle after : Publisher} (first : Adds allowed before middle)
    (second : Adds allowed middle after) : Adds allowed before after := by
  obtain ⟨added, frames, events⟩ := first
  obtain ⟨more, later, others⟩ := second
  refine ⟨added ++ more, by rw [later, frames, List.append_assoc], fun frame member => ?_⟩
  rcases List.mem_append.mp member with early | late
  · exact events frame early
  · exact others frame late

theorem Sent.adds {before after : Publisher} (sent : Sent allowed before after) :
    Adds allowed before after := by
  obtain ⟨added, frames, events⟩ := sent.frames
  refine ⟨added, frames, fun frame member event carried => ?_⟩
  obtain ⟨shown, same, fine⟩ := events frame member
  cases same.symm.trans carried
  exact fine

theorem adds_of_within {α : Type} {op : Op Publisher Error α} (within : op.Within (Sent allowed))
    (p : Publisher) : op.Ensures p (fun _ => Adds allowed p) (fun _ => Adds allowed p) :=
  (within p).mono (fun _ _ => Sent.adds) (fun _ _ => Sent.adds)

theorem adds_send {event : Wire.Event} (fine : allowed event) (p : Publisher)
    (nextState : Option (Projection × Option ForkchoiceMeta × Bool)) :
    Adds allowed p (p.send env generation event nextState) := by
  refine ⟨[_], rfl, fun frame member => ?_⟩
  rw [List.mem_singleton.mp member]
  rintro _ ⟨rfl⟩
  exact fine

theorem within_publishForkchoice (retires : ∀ retired, allowed (.candidatesRetired retired))
    (fences : ∀ applied, allowed (.forkchoiceApplied applied)) (view : AppliedForkchoiceMeta) :
    (Publisher.publishForkchoice env view).Within (Sent allowed) := by
  refine within_get.bind fun publisher => ?_
  split
  · exact within_throw _
  refine within_get.bind fun publisher => ?_
  refine (within_ofExcept _).bind fun _ => ?_
  refine (within_publishInner (fences _) _ _).bind fun _ => ?_
  split
  · split
    · refine (within_onStore _).bind fun _ => ?_
      exact (Publisher.within_processFinalityBudget retires _ _).bind fun _ => within_pure _
    · exact within_pure _
  · exact within_pure _

theorem adds_reanchor (shows : ∀ shown, allowed (.snapshot shown)) (p : Publisher) :
    (Publisher.reanchor env).Ensures p (fun _ => Adds allowed p) (fun _ => Adds allowed p) := by
  refine reanchor_ensures env _ _ (fun _ _ => adds_of_frames rfl) fun loaded _ => ?_
  exact adds_send (shows _) (p.installSnapshot env loaded) _

theorem adds_activate {watchSet : WatchSet}
    (configures : allowed (.configActivated (configActivated watchSet)))
    (shows : ∀ shown, allowed (.snapshot shown)) (p : Publisher) :
    (Publisher.activate env watchSet).Ensures p (fun _ => Adds allowed p)
      (fun _ => Adds allowed p) := by
  refine activate_ensures env watchSet _ _ (fun _ _ _ => adds_of_frames rfl)
    (fun _ => adds_of_frames rfl) fun loaded _ _ _ => ?_
  have configured := @adds_send allowed env watchSet.generation _ configures
    (p.installSnapshot env loaded) (some (loaded.projection, some loaded.forkchoice, false))
  exact Adds.trans configured (adds_send (shows _) _ none)

end

def Store.Keyed (store : Store) : Prop :=
  ∀ hash record, store.deferredExecuted.get hash = some record → record.block.hash = hash

theorem handle_adds {env : Env} {p : Publisher} (keyed : p.store.Keyed) (callback : FeedEvent) :
    (Publisher.handle env callback).Ensures p (fun _ => Adds callback.Answers p)
      (fun _ => Adds callback.Answers p) := by
  unfold Publisher.handle
  rw [ensures_bind, ensures_get]
  cases callback with
  | executed observedAt generation block changes =>
    dsimp only
    split
    · exact adds_of_frames rfl
    refine adds_of_within (Within.bind ?_ fun _ => within_pure _) p
    exact Publisher.within_projectCandidate (fun _ => trivial)
      (fun _ same => ⟨rfl, by rw [← same]; rfl⟩) nofun _ _
  | validatedFallback observedAt generation block changes =>
    dsimp only
    split
    · exact adds_of_frames rfl
    have validates : (FeedEvent.validatedFallback observedAt generation block changes).Answers
        (.blockValidated { blockHash := B256.toVec block.hash }) := rfl
    refine adds_of_within (Within.bind ?_ fun _ => within_pure _) p
    exact Publisher.within_projectCandidate (fun _ => trivial)
      (fun _ same => ⟨rfl, by rw [← same]; rfl⟩) (fun _ => validates) _ _
  | validated observedAt generation hash =>
    have validates : (FeedEvent.validated observedAt generation hash).Answers
        (.blockValidated { blockHash := B256.toVec hash }) := rfl
    dsimp only
    rw [ensures_bind]
    unfold Publisher.promoteValidated
    rw [ensures_bind, ensures_get]
    split
    · exact adds_of_frames rfl
    split
    · exact adds_of_frames rfl
    split
    · exact adds_of_within (Publisher.within_promoteCandidate validates _ _) p
    split
    · exact adds_of_frames rfl
    next record deferred =>
    -- The deferred delta is announced under the hash of its block, not the one of the call.
    have same := keyed hash record deferred
    refine adds_of_within (Publisher.within_projectCandidate (fun _ => trivial)
      (fun _ shown => ⟨rfl, ?_⟩) (fun _ => same ▸ validates) _ _) p
    rw [← same, ← shown]
    rfl
  | canonicalStateReset observedAt generation head =>
    dsimp only
    unfold Publisher.canonicalStateReset
    rw [ensures_bind, ensures_get]
    split
    · exact adds_of_frames rfl
    split
    · exact adds_of_frames rfl
    rw [ensures_bind]
    refine (adds_of_within (Publisher.within_announceGap (fun _ => trivial) _) p).mono
      (fun _ middle gapped => ?_) (fun _ _ => id)
    exact (adds_reanchor (fun _ => trivial) middle).mono (fun _ _ => gapped.trans)
      (fun _ _ => gapped.trans)
  | forkchoiceApplied observedAt generation view =>
    refine adds_of_within (Within.bind (within_get.bind fun publisher => ?_)
      fun _ => within_pure _) p
    split
    · exact within_throw _
    split
    · exact within_pure _
    split
    · refine (Publisher.within_canonical (fun _ => trivial) (fun _ => id) _ _ _).bind fun _ => ?_
      exact within_publishForkchoice (fun _ => trivial) (fun _ => trivial) _
    · exact within_publishForkchoice (fun _ => trivial) (fun _ => trivial) _
  | rejected observedAt generation hash reason =>
    have rejects : (FeedEvent.rejected observedAt generation hash reason).Answers
        (.blockRejected { blockHash := B256.toVec hash, reason }) := rfl
    exact adds_of_within ((Publisher.within_rejected rejects _).bind fun _ => within_pure _) p

theorem settle_publisher {α : Type} (reason : String) (outcome : Except Error α × Publisher) :
    (Loop.settle reason outcome).publisher = outcome.2 := by
  obtain ⟨result, publisher⟩ := outcome
  cases result <;> rfl

theorem retryReanchor_adds {allowed : Wire.Event → Prop} {env : Env}
    (shows : ∀ shown, allowed (.snapshot shown)) (reason : String) (p : Publisher) :
    Adds allowed p (Loop.retryReanchor env reason p).publisher := by
  have anchored := (@adds_reanchor allowed env shows p).elim
  unfold Loop.retryReanchor
  split
  · next outcome =>
    rw [outcome] at anchored
    exact anchored
  · next outcome =>
    rw [outcome] at anchored
    exact anchored

theorem round_adds {env : Env} {input : Input} {loop after : Loop}
    (keyed : loop.publisher.store.Keyed) (taken : Loop.next env input loop = some after) :
    Adds input.Answers loop.publisher after.publisher := by
  unfold Loop.next at taken
  split at taken
  · cases taken
    rw [settle_publisher]
    exact (handle_adds keyed _).elim
  · next watchSet _ =>
    cases taken
    rw [settle_publisher]
    have configures : (Input.activation watchSet).Answers
        (.configActivated (configActivated watchSet)) := rfl
    have activated := (@adds_activate _ env _ configures (fun _ => trivial) loop.publisher).elim
    unfold Publisher.handleControl
    split
    · next outcome =>
      rw [outcome] at activated
      exact activated
    · next outcome =>
      rw [outcome] at activated
      exact activated
  · cases taken
    rw [settle_publisher]
    exact (adds_of_within (Publisher.within_maintain fun _ => trivial) loop.publisher).elim
  · cases taken
    exact adds_of_frames rfl
  · next announced reason _ =>
    cases taken
    unfold Loop.retry
    split
    · exact retryReanchor_adds (fun _ => trivial) _ _
    have gapped := (adds_of_within (@Publisher.within_announceGap Input.retry.Answers env
      (fun _ => trivial) reason) loop.publisher).elim
    split
    · next outcome =>
      rw [outcome] at gapped
      exact gapped.trans (retryReanchor_adds (fun _ => trivial) _ _)
    · next outcome =>
      rw [outcome] at gapped
      exact gapped
  · cases taken

theorem keyed_step {world : Env → Prop} {offers : Publisher → Input → Prop} {state after : State}
    (keyed : state.publisher.store.Keyed) (step : Step world offers state after) :
    after.publisher.store.Keyed := by
  have edited {store : Store} (edits : Edits offers state store) : store.Keyed := by
    intro hash record stored
    cases edits with
    | thinned thins =>
      obtain ⟨old, earlier, block, _⟩ := thins.deferred hash record stored
      rw [block]
      exact keyed hash old earlier
    | promoted => exact keyed hash record stored
    | announced | adopted =>
      rw [Store.deferredExecuted_placeCandidate, Table.get_erase] at stored
      split at stored
      · cases stored
      · exact keyed hash record stored
    | deferred =>
      rw [Store.deferredExecuted_placeDeferred, Table.get_insert] at stored
      split at stored
      · next same =>
        cases stored
        exact same.symm
      · exact keyed hash record stored
  cases step_effect step with
  | silent _ edits => exact edited edits
  | sends _ _ edits => exact edited edits
  | anchors _ _ _ _ _ reset =>
    rw [reset]
    nofun

section

variable {allowed : Publisher → Env → Input → Prop} {env : Env}
  {options : Publisher.ServiceOptions} {watchSet : WatchSet} {start : Publisher} {loop : Loop}

theorem keyed_reaches (started : Publisher.startService env options watchSet = some start)
    (reached : Loop.Reaches allowed start loop) : loop.publisher.store.Keyed := by
  refine @reaches_invariant _ _ (fun state => state.publisher.store.Keyed) start loop
    (reaches_any reached) ?_ fun state after keyed step => keyed_step keyed step
  obtain ⟨loaded, _, rfl⟩ := Publisher.startService_eq_some.mp started
  nofun

theorem frames_answer (started : Publisher.startService env options watchSet = some start)
    (reached : Loop.Reaches allowed start loop) :
    ∀ frame ∈ loop.publisher.shared.frames, ∀ event ∈ frame.envelope.event,
      ∃ p env input, allowed p env input ∧ input.Answers event := by
  induction reached with
  | refl =>
    obtain ⟨loaded, _, rfl⟩ := Publisher.startService_eq_some.mp started
    exact fun frame member => absurd member List.not_mem_nil
  | tail before round ih =>
    obtain ⟨env, input, admitted, taken⟩ := round
    obtain ⟨added, frames, answers⟩ := round_adds (keyed_reaches started before) taken
    intro frame member event carried
    rw [frames] at member
    rcases List.mem_append.mp member with earlier | new
    · exact ih frame earlier event carried
    · exact ⟨_, env, input, admitted, answers frame new event carried⟩

end

namespace Wire.Event

def rejects (hash : B256) : Wire.Event → Bool
  | .blockRejected notice => notice.blockHash = B256.toVec hash
  | _ => false

/-- The event announces the block of `hash` as executed only. -/
def executes (hash : B256) : Wire.Event → Bool
  | .blockState state => state.stage = BlockStage.executed.code ∧
      state.block.map BlockRef.hash = some (B256.toVec hash)
  | _ => false

end Wire.Event

namespace EngineCall

/-- The engine has found the block of `hash` valid, or has made it its head. -/
def Accepts (hash : B256) : EngineCall → Prop
  | .validatePayload _ validation | .validateBlock _ validation =>
    ∃ executed, validation.outcome = .ok executed ∧ executed.block.hash = hash
  | .onInsertedExecutedBlock inserted => ∃ executed ∈ inserted, executed.block.hash = hash
  | .onForkchoiceApplied view => view.headHash = hash
  | _ => False

def Rejects (hash : B256) : EngineCall → Prop
  | .validatePayload blockHash validation | .validateBlock blockHash validation =>
    validation.outcome = .error (.block true) ∧ blockHash = hash
  | _ => False

def Observes (hash : B256) : EngineCall → Prop
  | .validatePayload _ validation | .validateBlock _ validation =>
    ∃ executed ∈ validation.observed, executed.block.hash = hash
  | _ => False

end EngineCall

def Publish.Stems (validator : EngineValidator) (call : EngineCall) : Publish → Prop
  | .executed block _ => validator.publishExecuted = true ∧ call.Observes block.hash
  | .validated hash => validator.publishExecuted = true ∧ call.Accepts hash
  | .validatedFallback block _ => call.Accepts block.hash
  | .rejected hash _ => call.Rejects hash
  | .forkchoiceApplied view => call.Accepts view.headHash
  | .canonicalStateReset _ => True

namespace EngineValidator

variable {validator : EngineValidator} {calls : EngineCall → Prop}

theorem stems_of_validate {blockHash : B256} {validation : Validation} {call : EngineCall}
    {publish : Publish} (observes : ∀ executed ∈ validation.observed, call.Observes executed.block.hash)
    (accepts : ∀ executed, validation.outcome = .ok executed → call.Accepts executed.block.hash)
    (rejects : validation.outcome = .error (.block true) → call.Rejects blockHash)
    (member : publish ∈ validator.validate blockHash validation) : publish.Stems validator call := by
  unfold validate at member
  rcases List.mem_append.mp member with early | late
  · split at early
    · next enabled =>
      obtain ⟨executed, observed, rfl⟩ := List.mem_map.mp early
      exact ⟨enabled, observes executed (Option.mem_toList.mp observed)⟩
    · cases early
  · split at late
    · next executed outcome =>
      rw [List.mem_singleton.mp late, onValidated]
      split
      · next enabled => exact ⟨enabled, accepts executed outcome⟩
      · exact accepts executed outcome
    · next failure outcome =>
      unfold publishRejectedIfInvalid at late
      split at late
      · cases late
      · rw [List.mem_singleton.mp late]
        exact rejects outcome
      · cases late

theorem stems_of_publishes {call : EngineCall} {publish : Publish}
    (member : publish ∈ validator.publishes call) : publish.Stems validator call := by
  cases call with
  | validatePayload | validateBlock =>
    exact stems_of_validate (fun executed observed => ⟨executed, observed, rfl⟩)
      (fun executed outcome => ⟨executed, outcome, rfl⟩) (fun outcome => ⟨outcome, rfl⟩) member
  | onInsertedExecutedBlock =>
    obtain ⟨executed, inserted, rfl⟩ := List.mem_map.mp member
    exact ⟨executed, Option.mem_toList.mp inserted, rfl⟩
  | onCanonicalHeadChanged => cases member
  | onCanonicalStateReset =>
    rw [List.mem_singleton.mp member]
    trivial
  | onForkchoiceApplied =>
    rw [List.mem_singleton.mp member]
    rfl

/-- Callbacks are taken up only if one of these engine calls made them. -/
def Offers (validator : EngineValidator) (calls : EngineCall → Prop) (input : Input) : Prop :=
  ∀ callback, input = .event callback → validator.Produces calls callback

structure Backed (validator : EngineValidator) (calls : EngineCall → Prop) (event : Wire.Event) :
    Prop where
  accepted : ∀ hash, event.validates hash = true → ∃ call, calls call ∧ call.Accepts hash
  rejected : ∀ hash, event.rejects hash = true → ∃ call, calls call ∧ call.Rejects hash
  executed : ∀ hash, event.executes hash = true →
    validator.publishExecuted = true ∧ ∃ call, calls call ∧ call.Observes hash

theorem backed_of_blockState {stage : Nat} {state : Wire.BlockState} {known : B256}
    (shown : state.stage = stage ∧ state.block.map Wire.BlockRef.hash = some (B256.toVec known))
    (validated : stage = Wire.BlockStage.validated.code → ∃ call, calls call ∧ call.Accepts known)
    (executed : stage = Wire.BlockStage.executed.code →
      validator.publishExecuted = true ∧ ∃ call, calls call ∧ call.Observes known) :
    Backed validator calls (.blockState state) := by
  obtain ⟨rfl, named⟩ := shown
  have same {hash : B256} (other : state.block.map Wire.BlockRef.hash = some (B256.toVec hash)) :
      hash = known := B256.toVec_injective (Option.some.inj (other.symm.trans named))
  refine ⟨fun hash told => ?_, nofun, fun hash told => ?_⟩
  · obtain ⟨code, other⟩ := of_decide_eq_true told
    rw [same other]
    exact validated code
  · obtain ⟨code, other⟩ := of_decide_eq_true told
    rw [same other]
    exact executed code

theorem backed_of_answers {callback : FeedEvent} {event : Wire.Event}
    (produces : validator.Produces calls callback) (answers : callback.Answers event) :
    Backed validator calls event := by
  obtain ⟨call, observedAt, watchSet, publish, made, member, rfl⟩ := produces
  have stems := stems_of_publishes member
  have accepts {known hash : B256} (accepted : call.Accepts known)
      (same : B256.toVec known = B256.toVec hash) : ∃ call, calls call ∧ call.Accepts hash :=
    ⟨call, made, B256.toVec_injective same ▸ accepted⟩
  cases event with
  | blockState state =>
    cases publish with
    | executed block bundle =>
      exact backed_of_blockState ⟨answers.1, by rw [answers.2]; rfl⟩ nofun
        fun _ => ⟨stems.1, call, made, stems.2⟩
    | validated hash =>
      exact backed_of_blockState answers (fun _ => ⟨call, made, stems.2⟩) nofun
    | validatedFallback block bundle =>
      exact backed_of_blockState ⟨answers.1, by rw [answers.2]; rfl⟩
        (fun _ => ⟨call, made, stems⟩) nofun
    | _ => exact answers.elim
  | blockValidated notice =>
    cases publish with
    | validated =>
      exact ⟨fun _ told => accepts stems.2 (answers.symm.trans (of_decide_eq_true told)), nofun, nofun⟩
    | validatedFallback =>
      exact ⟨fun _ told => accepts stems (answers.symm.trans (of_decide_eq_true told)), nofun, nofun⟩
    | _ => exact answers.elim
  | canonicalHead head =>
    cases publish with
    | forkchoiceApplied view =>
      refine ⟨fun _ told => accepts stems ?_, nofun, nofun⟩
      exact Option.some.inj (answers.symm.trans (of_decide_eq_true told))
    | _ => exact answers.elim
  | blockRejected notice =>
    cases publish with
    | rejected hash reason =>
      refine ⟨nofun, fun other told => ⟨call, made, ?_⟩, nofun⟩
      have named : notice = { blockHash := B256.toVec hash, reason } := answers
      rw [named] at told
      exact B256.toVec_injective (of_decide_eq_true told) ▸ stems
    | _ => exact answers.elim
  | _ => exact ⟨nofun, nofun, nofun⟩

theorem backed_of_input {input : Input} {event : Wire.Event}
    (offered : validator.Offers calls input) (answers : input.Answers event) :
    Backed validator calls event := by
  cases input with
  | event callback => exact backed_of_answers (offered callback rfl) answers
  | _ =>
    cases event with
    | configActivated | snapshot | candidatesRetired | gap => exact ⟨nofun, nofun, nofun⟩
    | _ => exact answers.elim

end EngineValidator

section

variable {env : Env} {options : Publisher.ServiceOptions} {watchSet : WatchSet} {start : Publisher}
  {loop : Loop} {validator : EngineValidator} {calls : EngineCall → Prop}

theorem verdicts_from_engine (started : Publisher.startService env options watchSet = some start)
    (reached : Loop.Reaches (fun _ _ input => validator.Offers calls input) start loop)
    (hash : B256) : ∀ frame ∈ loop.publisher.shared.frames, ∀ event ∈ frame.envelope.event,
      (event.validates hash = true → ∃ call, calls call ∧ call.Accepts hash) ∧
      (event.rejects hash = true → ∃ call, calls call ∧ call.Rejects hash) ∧
      (event.executes hash = true →
        validator.publishExecuted = true ∧ ∃ call, calls call ∧ call.Observes hash) := by
  intro frame member event carried
  obtain ⟨_, _, input, offered, answers⟩ := frames_answer started reached frame member event carried
  obtain ⟨accepted, rejected, executed⟩ := EngineValidator.backed_of_input offered answers
  exact ⟨accepted hash, rejected hash, executed hash⟩

end

/-- The event is about a block that is not known to be valid, or about one that was not. -/
def Wire.Event.Provisional : Wire.Event → Prop
  | .blockState state => state.stage = BlockStage.executed.code
  | .blockValidated _ | .blockRejected _ => True
  | _ => False

def Store.Final (store : Store) : Prop := ∀ hash, store.Firm hash

theorem final_of_anchor {store : Store} {anchor : B256} {record : CandidateEntry}
    (undeferred : store.deferredExecuted = ∅)
    (alone : store.candidates = (∅ : Table B256 CandidateEntry).insert anchor record)
    (validated : record.stage = .validated) : store.Final := by
  refine fun hash => ⟨by rw [undeferred]; rfl, fun entry stored => ?_⟩
  rw [alone, Table.get_insert] at stored
  split at stored
  · cases stored
    exact validated
  · cases stored

namespace Machine

variable {world : Env → Prop} {validator : EngineValidator} {calls : EngineCall → Prop}
  {state after : State}

theorem Delta.final (off : validator.publishExecuted = false) {p : Publisher}
    {stage : CandidateStage} {block : BlockMeta} {changes : BlockChanges}
    (delta : Delta (fun _ => validator.Offers calls) p stage block changes) : stage = .validated := by
  cases delta with
  | executed admitted =>
    obtain ⟨call, observedAt, watchSet, publish, _, member, same⟩ := admitted _ rfl
    have stems := EngineValidator.stems_of_publishes member
    cases publish with
    | executed => cases off.symm.trans stems.1
    | _ => cases same
  | fallback | deferred => rfl

theorem final_step (off : validator.publishExecuted = false)
    (final : state.publisher.store.Final)
    (step : Step world (fun _ => validator.Offers calls) state after) :
    after.publisher.store.Final := by
  have edited {store : Store} (edits : Edits (fun _ => validator.Offers calls) state store) :
      store.Final := by
    intro hash
    cases edits with
    | thinned thins => exact (final hash).thin thins
    | promoted => exact Store.firm_setStage (final hash).undeferred fun _ => (final hash).validated
    | announced _ _ delta =>
      rw [delta.final off]
      exact Store.firm_placeValidated _ _ _ fun _ => final hash
    | adopted => exact Store.firm_placeValidated _ _ _ fun _ => final hash
    | deferred _ delta => cases delta.final off
  cases step_effect step with
  | silent _ edits => exact edited edits
  | sends _ _ edits => exact edited edits
  | anchors _ _ _ _ _ reset =>
    rw [reset]
    exact final_of_anchor rfl rfl rfl

theorem emits_final (off : validator.publishExecuted = false)
    (final : state.publisher.store.Final) {generation : Generation} {event : Wire.Event}
    {store : Store}
    (emits : Emits world (fun _ => validator.Offers calls) state generation event store) :
    ¬ event.Provisional := by
  cases emits with
  | validated stored early =>
    cases early.symm.trans ((final _).validated _ stored)
  | announced _ delta =>
    cases delta.final off
    nofun
  | @rejected p observedAt hash reason _ rejectable =>
    rcases rejectable with executed | deferred
    · cases stored : p.store.candidates.get hash with
      | none => simp [stored] at executed
      | some entry => simp [stored, (final hash).validated entry stored] at executed
    · have undeferred : p.store.deferredExecuted.get hash = none := (final hash).undeferred
      simp [undeferred] at deferred
  | _ => exact id

end Machine

theorem executed_opt_in {env : Env} {options : Publisher.ServiceOptions} {watchSet : WatchSet}
    {start : Publisher} {loop : Loop} {calls : EngineCall → Prop}
    (started : Publisher.startService env options watchSet = some start)
    (unadvertised : start.shared.hello.capabilities &&& Wire.capExecuted = 0)
    (reached : Loop.Reaches (Allowed (fun _ => True) fun _ =>
      (EngineValidator.mk options.stream.publishExecuted).Offers calls) start loop) :
    (∀ hash entry, loop.publisher.store.candidates.get hash = some entry →
      entry.stage = .validated) ∧
    (∀ hash, loop.publisher.store.deferredExecuted.get hash = none) ∧
    ∀ frame ∈ loop.publisher.shared.frames, ∀ event ∈ frame.envelope.event,
      ¬ event.Provisional := by
  obtain ⟨loaded, _, initial⟩ := Publisher.startService_eq_some.mp started
  have off : options.stream.publishExecuted = false := by
    rw [initial] at unadvertised
    change advertisedCapabilities options.stream.publishExecuted &&& _ = 0 at unadvertised
    cases enabled : options.stream.publishExecuted with
    | false => rfl
    | true =>
      rw [enabled] at unadvertised
      cases unadvertised
  have silent : start.store.Final ∧ start.shared.frames = [] := by
    rw [initial]
    exact ⟨final_of_anchor rfl rfl rfl, rfl⟩
  have invariant := @reaches_invariant _ _ (fun state => state.publisher.store.Final ∧
      ∀ frame ∈ state.publisher.shared.frames, ∀ event ∈ frame.envelope.event, ¬ event.Provisional)
    start loop reached ⟨silent.1, by simp [silent.2]⟩ fun state after holds step =>
      ⟨final_step off holds.1 step,
        events_of_emits step holds.2 fun _ _ _ emits => emits_final off holds.1 emits⟩
  obtain ⟨final, quiet⟩ := invariant
  exact ⟨fun hash => (final hash).validated, fun hash => (final hash).undeferred, quiet⟩

namespace Sample

def bundle (hash : B256) : BundleState :=
  (∅ : Table Address BundleAccount).insert 0
    { wasDestroyed := false
      storage := (∅ : Table U256 StorageSlot).insert 0
        { originalValue := hash - 1, presentValue := hash } }

def executedBlock (hash : B256) : ExecutedBlock where
  block := block hash
  state := bundle hash

def engineCalls (call : EngineCall) : Prop :=
  call = .validateBlock 2 { observed := some (executedBlock 2), outcome := .ok (executedBlock 2) } ∨
    call = .validatePayload 3
      { observed := some (executedBlock 3), outcome := .error (.block true) }

def engineEvents : List Input :=
  [.event (executed 2 1), .event (.validated 2 1 2), .event (executed 3 3),
    .event (.rejected 4 1 3 "block_validation_failed")]

theorem executed_eq (hash : B256) (observedAt : Instant)
    (extracted : extractChanges watchSet (bundle hash) = [{ keyId := 0, newValue := hash }]) :
    executed hash observedAt =
      Produced.event ⟨observedAt, watchSet, .executed (block hash) (bundle hash)⟩ := by
  change _ = FeedEvent.executed observedAt 1 (block hash) (extractChanges watchSet (bundle hash))
  rw [extracted]
  rfl

theorem offers_engineEvents (input : Input) (member : input ∈ engineEvents) :
    (EngineValidator.mk true).Offers engineCalls input := by
  rintro callback rfl
  simp only [engineEvents, List.mem_cons, List.not_mem_nil, or_false, Input.event.injEq] at member
  rcases member with rfl | rfl | rfl | rfl
  · exact ⟨_, _, _, _, .inl rfl, List.mem_cons_self, executed_eq 2 1 (by decide +kernel)⟩
  · exact ⟨_, 2, watchSet, _, .inl rfl, List.mem_cons_of_mem _ List.mem_cons_self, rfl⟩
  · exact ⟨_, _, _, _, .inr rfl, List.mem_cons_self, executed_eq 3 3 (by decide +kernel)⟩
  · exact ⟨_, 4, watchSet, _, .inr rfl, List.mem_cons_of_mem _ List.mem_cons_self, rfl⟩

end Sample

theorem verdicts_from_engine_sample :
    ∃ loop, Loop.Reaches (fun _ _ => (EngineValidator.mk true).Offers Sample.engineCalls)
        Sample.start loop ∧
      loop.publisher.shared.frames.any (fun frame =>
        frame.envelope.event.any (Wire.Event.rejects 3)) = true ∧
      ∃ call, Sample.engineCalls call ∧ call.Rejects 3 := by
  obtain ⟨loop, reached, rejected⟩ := @Sample.exists_of_run
    (fun _ _ => (EngineValidator.mk true).Offers Sample.engineCalls) (Sample.env 1 0)
    Sample.engineEvents Sample.start
    (fun loop => loop.publisher.shared.frames.any (fun frame =>
      frame.envelope.event.any (Wire.Event.rejects 3)) = true) inferInstance
    (fun _ => Sample.offers_engineEvents) (by decide +kernel)
  obtain ⟨frame, member, told⟩ := List.any_eq_true.mp rejected
  cases carried : frame.envelope.event with
  | none =>
    rw [carried] at told
    cases told
  | some event =>
    rw [carried] at told
    refine ⟨loop, reached, rejected, ?_⟩
    exact (verdicts_from_engine Sample.started reached 3 frame member event carried).2.1 told

namespace Sample

def finalEvents : List Input :=
  [.event (fallback 2 1), .event (.rejected 4 1 3 "block_validation_failed")]

theorem offers_finalEvents (input : Input) (member : input ∈ finalEvents) :
    (EngineValidator.mk false).Offers engineCalls input := by
  have extracted : extractChanges watchSet (bundle 2) = [{ keyId := 0, newValue := 2 }] := by
    decide +kernel
  have produced : fallback 2 1 =
      Produced.event ⟨1, watchSet, .validatedFallback (block 2) (bundle 2)⟩ := by
    change _ = FeedEvent.validatedFallback 1 1 (block 2) (extractChanges watchSet (bundle 2))
    rw [extracted]
    rfl
  rintro callback rfl
  simp only [finalEvents, List.mem_cons, List.not_mem_nil, or_false, Input.event.injEq] at member
  rcases member with rfl | rfl
  · exact ⟨_, _, _, _, .inl rfl, List.mem_cons_self, produced⟩
  · exact ⟨_, 4, watchSet, _, .inr rfl, List.mem_cons_self, rfl⟩

end Sample

theorem executed_opt_in_sample :
    ∃ loop, Loop.Reaches (Allowed (fun _ => True) fun _ =>
        (EngineValidator.mk Sample.options.stream.publishExecuted).Offers Sample.engineCalls)
        Sample.start loop ∧
      loop.publisher.shared.frames.length = 1 ∧
      ∀ frame ∈ loop.publisher.shared.frames, ∀ event ∈ frame.envelope.event,
        ¬ event.Provisional := by
  obtain ⟨loop, reached, sent⟩ := @Sample.exists_of_run
    (Allowed (fun _ => True) fun _ =>
      (EngineValidator.mk Sample.options.stream.publishExecuted).Offers Sample.engineCalls)
    (Sample.env 1 0) Sample.finalEvents Sample.start
    (fun loop => loop.publisher.shared.frames.length = 1) inferInstance
    (fun _ input member => ⟨trivial, Sample.offers_finalEvents input member⟩) (by decide +kernel)
  exact ⟨loop, reached, sent, (executed_opt_in Sample.started (by decide) reached).2.2⟩

end Statefeed
