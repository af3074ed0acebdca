import Statefeed.Machine.Contents
import Statefeed.Model.Dump

set_option autoImplicit false

namespace Statefeed

def PublishedFrame.isSnapshot (frame : PublishedFrame) : Bool :=
  frame.envelope.event.any Dump.isSnapshot

namespace Machine

variable {world : Env → Prop} {offers : Publisher → Input → Prop}

inductive Edits (offers : Publisher → Input → Prop) : State → Store → Prop
  | thinned {state : State} {store : Store} (thins : Store.Thins state.publisher.store store) :
      Edits offers state store
  | promoted {p : Publisher} (hash : B256) :
      Edits offers ⟨.idle, p⟩ (Publisher.setStage hash .validated p.store)
  | announced {p : Publisher} {stage : CandidateStage} {block : BlockMeta}
      {changes : BlockChanges} {projection : Projection} (now : Instant) (firstSequence : Nat)
      (delta : Delta offers p stage block changes) (fresh : Fresh p block)
      (applies : Applies p stage block changes) (same : projection.block = block) :
      Edits offers ⟨.idle, p⟩ (p.store.placeCandidate now projection stage true firstSequence)
  | adopted {p : Publisher} (now : Instant) (projection : Projection) :
      Edits offers ⟨.idle, p⟩ (p.store.placeCandidate now projection .validated true 0)
  | deferred {p : Publisher} {block : BlockMeta} {changes : BlockChanges} (now : Instant)
      (delta : Delta offers p .executed block changes)
      (unknown : p.store.candidates.get block.hash = none) :
      Edits offers ⟨.idle, p⟩ (p.store.placeDeferred now block changes)

inductive Effect (world : Env → Prop) (offers : Publisher → Input → Prop) (state after : State) :
    Prop
  | silent (frames : after.publisher.shared.frames = state.publisher.shared.frames)
      (edits : Edits offers state after.publisher.store) : Effect world offers state after
  | sends {frame : PublishedFrame}
      (frames : after.publisher.shared.frames = state.publisher.shared.frames ++ [frame])
      (sends : Sends world offers state frame after.publisher.store)
      (edits : Edits offers state after.publisher.store) : Effect world offers state after
  | anchors {added : List PublishedFrame} {env : Env} {watchSet : WatchSet}
      {loaded : CanonicalSnapshot}
      (frames : after.publisher.shared.frames = state.publisher.shared.frames ++ added)
      (sends : ∀ frame ∈ added, Sends world offers state frame after.publisher.store)
      (shown : ∃ frame ∈ added, frame.isSnapshot = true)
      (lawful : world env) (loads : Loads env state.publisher watchSet loaded)
      (reset : after.publisher.store = state.publisher.store.resetCandidates
        (env.now .resetCandidates) loaded.projection loaded.forkchoice) :
      Effect world offers state after

theorem step_effect {state after : State} (step : Step world offers state after) :
    Effect world offers state after := by
  cases step with
  | promote => exact .silent rfl (.promoted _)
  | validate _ stored early cached =>
    exact .sends rfl ⟨_, _, rfl, rfl, .validated stored early cached⟩ (.promoted _)
  | announce lawful delta fresh inherits changed assembled =>
    refine .sends rfl ⟨_, _, rfl, rfl, .announced lawful delta fresh inherits changed assembled⟩ ?_
    exact .announced _ _ delta fresh ⟨_, _, _, inherits, changed⟩ (by rw [assembled]; rfl)
  | defer _ delta _ unknown => exact .silent rfl (.deferred _ delta unknown)
  | trimProjections trimmed => exact .silent rfl (.thinned (Store.thins_of_projections trimmed))
  | trimProjectionsFails trimmed =>
    exact .silent rfl (.thinned (Store.thins_of_projections trimmed))
  | trimMetadata trimmed => exact .silent rfl (.thinned (Store.thins_of_metadata trimmed))
  | trimMetadataFails trimmed => exact .silent rfl (.thinned (Store.thins_of_metadata trimmed))
  | retire _ nonempty fits =>
    exact .sends rfl ⟨_, _, rfl, rfl, .retired nonempty fits⟩ (.thinned (.refl _))
  | reject _ admitted rejectable =>
    exact .sends rfl ⟨_, _, rfl, rfl, .rejected admitted rejectable⟩
      (.thinned (Store.thins_removeCandidateTree _ _ _))
  | adopt => exact .silent rfl (.adopted _ _)
  | head lawful =>
    exact .sends rfl ⟨_, _, rfl, rfl, .headed lawful⟩ (.thinned (thins_commitCanonical _ _ _ _))
  | fence _ _ resolved ordered =>
    exact .sends rfl ⟨_, _, rfl, rfl, .fenced resolved ordered⟩ (.thinned (thins_afterFence _ _))
  | sweep => exact .silent rfl (.thinned (Store.thins_processFinalityBudget _ _))
  | maintain => exact .silent rfl (.thinned (Store.thins_processFinalityBudget _ _))
  | expire => exact .silent rfl (.thinned (Store.thins_removeEach _ _ _))
  | gap => exact .sends rfl ⟨_, _, rfl, rfl, .reset⟩ (.thinned (.refl _))
  | retryGap => exact .sends rfl ⟨_, _, rfl, rfl, .gapped⟩ (.thinned (.refl _))
  | @anchor p env _ loaded lawful loads =>
    have generation := (validateProjectionDictionary_ok loads.dictionary).1
    refine @Effect.anchors _ _ _ _ [_] env _ loaded rfl ?_ ⟨_, List.mem_cons_self, rfl⟩ lawful
      loads rfl
    intro frame member
    cases List.mem_singleton.mp member
    exact ⟨_, _, rfl, generation, .anchored lawful loads (.inl rfl)⟩
  | @activate p env _ loaded lawful admitted newer loads =>
    refine @Effect.anchors _ _ _ _ [_, _] env _ loaded (List.append_assoc _ _ _) ?_
      ⟨_, List.mem_cons_of_mem _ List.mem_cons_self, rfl⟩ lawful loads rfl
    intro frame member
    rcases List.mem_cons.mp member with rfl | later
    · exact ⟨_, _, rfl, rfl, .configured newer admitted⟩
    · cases List.mem_singleton.mp later
      exact ⟨_, _, rfl, rfl, .anchored lawful loads (.inr admitted)⟩
  | _ => exact .silent rfl (.thinned (.refl _))

def Exclusive (store : Store) : Prop :=
  ∀ hash entry, store.candidates.get hash = some entry → store.deferredExecuted.get hash = none

theorem exclusive_placeCandidate {store : Store} (exclusive : Exclusive store) (now : Instant)
    (projection : Projection) (stage : CandidateStage) (tracked : Bool) (firstSequence : Nat) :
    Exclusive (store.placeCandidate now projection stage tracked firstSequence) := by
  intro hash entry stored
  rw [Store.candidates_placeCandidate, Table.get_insert] at stored
  rw [Store.deferredExecuted_placeCandidate, Table.get_erase]
  split
  · rfl
  · next different =>
    rw [if_neg different] at stored
    exact exclusive hash entry stored

theorem exclusive_edits {state : State} {store : Store}
    (exclusive : Exclusive state.publisher.store) (edits : Edits offers state store) :
    Exclusive store := by
  intro hash entry stored
  cases edits with
  | thinned thins =>
    obtain ⟨old, earlier, _⟩ := thins.candidates hash entry stored
    cases deferred : store.deferredExecuted.get hash with
    | none => rfl
    | some record =>
      obtain ⟨delta, present, _⟩ := thins.deferred hash record deferred
      rw [exclusive hash old earlier] at present
      cases present
  | @promoted p other =>
    change (p.store.candidates.modify other _).get hash = _ at stored
    rw [Table.get_modify] at stored
    split at stored
    · next same =>
      obtain ⟨old, earlier, _⟩ := Option.map_eq_some_iff.mp stored
      rw [← same] at earlier
      exact exclusive hash old earlier
    · exact exclusive hash entry stored
  | announced => exact exclusive_placeCandidate exclusive _ _ _ _ _ hash entry stored
  | adopted => exact exclusive_placeCandidate exclusive _ _ _ _ _ hash entry stored
  | @deferred p block changes now delta unknown =>
    rw [Store.candidates_placeDeferred] at stored
    rw [Store.deferredExecuted_placeDeferred, Table.get_insert]
    split
    · next same =>
      rw [same, unknown] at stored
      cases stored
    · exact exclusive hash entry stored

theorem exclusive_resetCandidates (now : Instant) (projection : Projection) (view : ForkchoiceMeta)
    (store : Store) : Exclusive (store.resetCandidates now projection view) :=
  fun _ _ _ => rfl

theorem exclusive_step {state after : State} (exclusive : Exclusive state.publisher.store)
    (step : Step world offers state after) : Exclusive after.publisher.store := by
  cases step_effect step with
  | silent _ edits => exact exclusive_edits exclusive edits
  | sends _ _ edits => exact exclusive_edits exclusive edits
  | anchors _ _ _ _ _ reset =>
    rw [reset]
    exact exclusive_resetCandidates _ _ _ _

theorem events_of_emits {holds : Wire.Event → Prop} {state after : State}
    (step : Step world offers state after)
    (earlier : ∀ frame ∈ state.publisher.shared.frames, ∀ event ∈ frame.envelope.event, holds event)
    (emitted : ∀ generation event store, Emits world offers state generation event store →
      holds event) :
    ∀ frame ∈ after.publisher.shared.frames, ∀ event ∈ frame.envelope.event, holds event := by
  have sent {frame : PublishedFrame} {store : Store} (sends : Sends world offers state frame store) :
      ∀ event ∈ frame.envelope.event, holds event := by
    obtain ⟨_, event, read, _, emits⟩ := sends
    intro other carries
    cases read.symm.trans carries
    exact emitted _ _ _ emits
  intro frame member
  cases step_effect step with
  | silent frames =>
    rw [frames] at member
    exact earlier frame member
  | sends frames sends =>
    rw [frames] at member
    rcases List.mem_append.mp member with before | last
    · exact earlier frame before
    · cases List.mem_singleton.mp last
      exact sent sends
  | anchors frames sends =>
    rw [frames] at member
    rcases List.mem_append.mp member with before | added
    · exact earlier frame before
    · exact sent (sends frame added)

def Phase.Applies (holds : AppliedForkchoiceMeta → Prop) : Phase → Prop
  | .placed _ next | .trimming _ next | .retiring _ _ _ next => next.Applies holds
  | .heading _ _ applied | .fencing applied => holds applied
  | _ => True

theorem applies_step {holds : AppliedForkchoiceMeta → Prop}
    (offered : ∀ p observedAt generation applied,
      offers p (.event (.forkchoiceApplied observedAt generation applied)) → holds applied)
    {state after : State} (applied : state.phase.Applies holds)
    (step : Step world offers state after) : after.phase.Applies holds := by
  cases step with
  | trimProjections | trimMetadata | retire | retired | head => exact applied
  | adopt _ admitted => exact offered _ _ _ _ admitted
  | reaffirm admitted => exact offered _ _ _ _ admitted
  | @fence p env _ view =>
    rcases afterFence_phase view p.store with idle | sweeping
    · rw [idle]
      trivial
    · rw [sweeping]
      trivial
  | _ => trivial

section

variable {world' : Env → Prop} {offers' : Publisher → Input → Prop}
  (lawfully : ∀ env, world env → world' env)
  (admits : ∀ p input, offers p input → offers' p input)

include admits in
theorem Delta.mono {p : Publisher} {stage : CandidateStage} {block : BlockMeta}
    {changes : BlockChanges} (delta : Delta offers p stage block changes) :
    Delta offers' p stage block changes := by
  cases delta with
  | executed admitted later current => exact .executed (admits _ _ admitted) later current
  | fallback admitted later current => exact .fallback (admits _ _ admitted) later current
  | deferred admitted current stored => exact .deferred (admits _ _ admitted) current stored

include lawfully admits

theorem Step.mono {state after : State} (step : Step world offers state after) :
    Step world' offers' state after := by
  cases step with
  | promote stored early bare => exact .promote stored early bare
  | validate lawful stored early cached current =>
    exact .validate (lawfully _ lawful) stored early cached current
  | announce lawful delta fresh inherits changed assembled =>
    exact .announce (lawfully _ lawful) (delta.mono admits) fresh inherits changed assembled
  | defer lawful delta fresh unknown missing =>
    exact .defer (lawfully _ lawful) (delta.mono admits) fresh unknown missing
  | trimProjections trimmed => exact .trimProjections trimmed
  | trimProjectionsFails trimmed => exact .trimProjectionsFails trimmed
  | trimMetadata trimmed => exact .trimMetadata trimmed
  | trimMetadataFails trimmed => exact .trimMetadataFails trimmed
  | retire lawful nonempty fits => exact .retire (lawfully _ lawful) nonempty fits
  | retired => exact .retired
  | reject lawful admitted rejectable =>
    exact .reject (lawfully _ lawful) (admits _ _ admitted) rejectable
  | adopt lawful admitted later known moved found dictionary identity shape compared =>
    exact .adopt (lawfully _ lawful) (admits _ _ admitted) later known moved found dictionary
      identity shape compared
  | head lawful => exact .head (lawfully _ lawful)
  | reaffirm admitted later => exact .reaffirm (admits _ _ admitted) later
  | fence lawful same resolved ordered => exact .fence (lawfully _ lawful) same resolved ordered
  | sweep => exact .sweep
  | maintain admitted => exact .maintain (admits _ _ admitted)
  | expire lawful => exact .expire (lawfully _ lawful)
  | gap lawful admitted later => exact .gap (lawfully _ lawful) (admits _ _ admitted) later
  | retryGap lawful admitted => exact .retryGap (lawfully _ lawful) (admits _ _ admitted)
  | retryBurns => exact .retryBurns
  | retryAnchor admitted => exact .retryAnchor (admits _ _ admitted)
  | anchor lawful loads => exact .anchor (lawfully _ lawful) loads
  | anchorRefused => exact .anchorRefused
  | anchorFails => exact .anchorFails
  | activate lawful admitted newer loads config =>
    exact .activate (lawfully _ lawful) (admits _ _ admitted) newer loads config
  | refuse working => exact .refuse working
  | burn working => exact .burn working
  | recover => exact .recover
  | loss admitted => exact .loss (admits _ _ admitted)

end

end Machine

end Statefeed
