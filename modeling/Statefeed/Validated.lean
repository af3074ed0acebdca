import Statefeed.Machine.Heir
import Statefeed.Machine.Inversion
import Statefeed.Model.Sample

set_option autoImplicit false

namespace Statefeed

open Machine

namespace Wire.Event

/-- The event announces the block of `hash` as validated. -/
def validates (hash : B256) : Wire.Event → Bool
  | .blockState state => state.stage = BlockStage.validated.code ∧
      state.block.map BlockRef.hash = some (B256.toVec hash)
  | .blockValidated validated => validated.blockHash = B256.toVec hash
  | .canonicalHead head => head.block.map BlockRef.hash = some (B256.toVec hash)
  | _ => false

def revokes (hash : B256) : Wire.Event → Bool
  | .blockState state => state.stage = BlockStage.executed.code ∧
      state.block.map BlockRef.hash = some (B256.toVec hash)
  | .blockRejected rejected => rejected.blockHash = B256.toVec hash
  | _ => false

end Wire.Event

namespace PublishedFrame

def Validates (hash : B256) (frame : PublishedFrame) : Prop :=
  frame.envelope.event.any (Wire.Event.validates hash) = true

def Revokes (hash : B256) (frame : PublishedFrame) : Prop :=
  frame.envelope.event.any (Wire.Event.revokes hash) = true

end PublishedFrame

namespace Store

structure Firm (hash : B256) (store : Store) : Prop where
  undeferred : store.deferredExecuted.get hash = none
  validated : ∀ entry, store.candidates.get hash = some entry → entry.stage = .validated

def Stands (hash : B256) (store : Store) : Prop :=
  ∃ entry, store.candidates.get hash = some entry ∧ entry.stage = .validated

theorem Firm.thin {hash : B256} {before after : Store} (firm : Firm hash before)
    (thins : Thins before after) : Firm hash after := by
  constructor
  · cases present : after.deferredExecuted.get hash with
    | none => rfl
    | some record =>
      obtain ⟨old, earlier, _⟩ := thins.deferred hash record present
      rw [firm.undeferred] at earlier
      cases earlier
  · intro entry stored
    obtain ⟨old, earlier, faded⟩ := thins.candidates hash entry stored
    exact faded.stage.trans (firm.validated old earlier)

theorem firm_placeValidated {hash : B256} (now : Instant) (projection : Projection)
    (firstSequence : Nat) {store : Store}
    (firm : hash ≠ projection.block.hash → Firm hash store) :
    Firm hash (store.placeCandidate now projection .validated true firstSequence) := by
  constructor
  · rw [deferredExecuted_placeCandidate, Table.get_erase]
    split
    · rfl
    · next different => exact (firm different).undeferred
  · intro entry stored
    rw [candidates_placeCandidate, Table.get_insert] at stored
    split at stored
    · cases stored
      exact placedEntry_stage _ _ _ _ _ _
    · next different => exact (firm different).validated entry stored

theorem firm_placeOther {hash : B256} (now : Instant) (projection : Projection)
    (stage : CandidateStage) (firstSequence : Nat) {store : Store} (firm : Firm hash store)
    (different : hash ≠ projection.block.hash) :
    Firm hash (store.placeCandidate now projection stage true firstSequence) := by
  constructor
  · rw [deferredExecuted_placeCandidate, Table.get_erase, if_neg different]
    exact firm.undeferred
  · intro entry stored
    rw [candidates_placeCandidate, Table.get_insert, if_neg different] at stored
    exact firm.validated entry stored

theorem firm_setStage {hash other : B256} {store : Store}
    (undeferred : store.deferredExecuted.get hash = none)
    (validated : hash ≠ other → ∀ entry, store.candidates.get hash = some entry →
      entry.stage = .validated) :
    Firm hash (Publisher.setStage other .validated store) := by
  refine ⟨undeferred, fun entry stored => ?_⟩
  change (store.candidates.modify other _).get hash = _ at stored
  rw [Table.get_modify] at stored
  split at stored
  · obtain ⟨old, _, rfl⟩ := Option.map_eq_some_iff.mp stored
    rfl
  · next different => exact validated different entry stored

end Store

/-- No `Executed` event is carried out for a validated block. Such an event is ignored while the
block's projection is cached. -/
def Sustaining (p : Publisher) (input : Input) : Prop :=
  ∀ observedAt block changes entry,
    input = .event (.executed observedAt p.active.generation block changes) →
    p.snapshotAnchoredAt < observedAt → Fresh p block → Applies p .executed block changes →
    p.store.candidates.get block.hash = some entry → entry.stage ≠ .validated

def Held (base : Publisher) (p : Publisher) (input : Input) : Prop := p = base ∧ Sustaining p input

section Round

variable {world : Env → Prop} {base : Publisher} {hash : B256} {state after : State}

theorem Machine.Delta.origin {p : Publisher} {stage : CandidateStage} {block : BlockMeta}
    {changes : BlockChanges} (delta : Delta (Statefeed.Held base) p stage block changes) : p = base := by
  cases delta with
  | executed admitted => exact admitted.1
  | fallback admitted => exact admitted.1
  | deferred admitted => exact admitted.1

theorem Machine.Delta.sustained {p : Publisher} {block : BlockMeta} {changes : BlockChanges}
    (delta : Delta (Statefeed.Held base) p .executed block changes) (fresh : Fresh p block)
    (applies : Applies p .executed block changes) : ¬ Store.Stands block.hash p.store := by
  cases delta with
  | executed admitted later current =>
    subst current
    rintro ⟨entry, stored, validated⟩
    exact admitted.2 _ _ _ entry rfl later fresh applies stored validated

theorem emits_revokes {generation : Generation} {event : Wire.Event} {store : Store}
    (exclusive : Exclusive state.publisher.store)
    (emits : Emits world (Held base) state generation event store) (revokes : event.revokes hash = true) :
    state.publisher = base ∧ ¬ Store.Stands hash state.publisher.store := by
  cases emits with
  | @announced p env stage block changes _ _ projection _ delta fresh inherits changed assembled =>
    obtain ⟨code, shown⟩ := of_decide_eq_true revokes
    have same : block.hash = hash := by
      rw [assembled] at shown
      exact B256.toVec_injective (Option.some.inj shown)
    cases stage with
    | executed =>
      exact ⟨delta.origin, same ▸ delta.sustained fresh ⟨_, _, _, inherits, changed⟩⟩
    | validated => cases code
  | @rejected p observedAt other reason admitted rejectable =>
    have same : other = hash := B256.toVec_injective (of_decide_eq_true revokes)
    subst same
    refine ⟨admitted.1, fun ⟨entry, stored, validated⟩ => ?_⟩
    have undeferred : p.store.deferredExecuted.get other = none := exclusive other entry stored
    rcases rejectable with executed | deferred
    · have found : p.store.candidates.get other = some entry := stored
      simp [found, validated] at executed
    · simp [undeferred] at deferred
  | _ => cases revokes

theorem firm_edits {store : Store} (firm : Store.Firm hash state.publisher.store)
    (stands : state.phase = .idle → state.publisher = base →
      Store.Stands hash state.publisher.store)
    (edits : Edits (Held base) state store) : Store.Firm hash store := by
  cases edits with
  | thinned thins => exact firm.thin thins
  | promoted => exact Store.firm_setStage firm.undeferred fun _ => firm.validated
  | @announced p stage block changes projection now firstSequence delta fresh applies same =>
    cases stage with
    | validated => exact Store.firm_placeValidated _ _ _ fun _ => firm
    | executed =>
      refine Store.firm_placeOther _ _ _ _ firm ?_
      intro named
      have standing := stands rfl delta.origin
      rw [named, same] at standing
      exact delta.sustained fresh applies standing
  | adopted => exact Store.firm_placeValidated _ _ _ fun _ => firm
  | @deferred p block changes now delta unknown =>
    obtain ⟨entry, stored, _⟩ := stands rfl delta.origin
    have different : hash ≠ block.hash := by
      rintro rfl
      exact absurd (unknown.symm.trans stored) nofun
    refine ⟨?_, fun entry found => firm.validated entry ?_⟩
    · rw [Store.deferredExecuted_placeDeferred, Table.get_insert, if_neg different]
      exact firm.undeferred
    · rwa [Store.candidates_placeDeferred] at found

theorem emits_validates {generation : Generation} {event : Wire.Event} {store : Store}
    (exclusive : Exclusive state.publisher.store)
    (emits : Emits world (Held base) state generation event store)
    (validates : event.validates hash = true) :
    state.phase.heir = some hash ∨ Store.Firm hash store := by
  cases emits with
  | @validated p other entry _ stored =>
    have same : other = hash := B256.toVec_injective (of_decide_eq_true validates)
    subst same
    refine .inr (Store.firm_setStage (exclusive other entry stored) fun different => ?_)
    exact absurd rfl different
  | @announced p env stage block changes _ _ projection =>
    obtain ⟨code, shown⟩ := of_decide_eq_true validates
    have same : projection.block.hash = hash := B256.toVec_injective (Option.some.inj shown)
    cases stage with
    | executed => cases code
    | validated => exact .inr (Store.firm_placeValidated _ _ _ fun different => absurd same.symm different)
  | @headed p env projection =>
    have same : projection.block.hash = hash := B256.toVec_injective
      (Option.some.inj (of_decide_eq_true validates))
    exact .inl (congrArg some same)
  | _ => cases validates

theorem heir_step {offers : Publisher → Input → Prop} (step : Step world offers state after)
    (heir : after.phase.heir = some hash) :
    state.phase.heir = some hash ∨ Store.Firm hash after.publisher.store := by
  cases step with
  | trimProjections => exact .inl heir
  | trimMetadata => exact .inl heir
  | retire => exact .inl heir
  | retired => exact .inl heir
  | adopt =>
    refine .inr (Store.firm_placeValidated _ _ _ fun different => ?_)
    exact absurd (Option.some.inj heir).symm different
  | fence => rw [heir_afterFence] at heir; cases heir
  | _ => cases heir

/-- Nothing in `frames` starts the candidates anew. -/
def Unanchored (frames : List PublishedFrame) : Prop := ∀ frame ∈ frames, frame.isSnapshot = false

theorem Unanchored.left {earlier later : List PublishedFrame}
    (unanchored : Unanchored (earlier ++ later)) : Unanchored earlier :=
  fun frame member => unanchored frame (List.mem_append_left _ member)

def Claimed (hash : B256) (base : Publisher) (new : List PublishedFrame) (phase : Phase) : Prop :=
  Store.Stands hash base.store ∨ (∃ frame ∈ new, frame.Validates hash) ∨ phase.heir = some hash

structure Upheld (hash : B256) (base : Publisher) (new : List PublishedFrame) (state : State) :
    Prop where
  frames : state.publisher.shared.frames = base.shared.frames ++ new
  exclusive : Exclusive state.publisher.store
  ordered : Unanchored new →
    new.Pairwise fun earlier later => earlier.Validates hash → ¬ later.Revokes hash
  unrevoked : Unanchored new → Store.Stands hash base.store → ∀ frame ∈ new, ¬ frame.Revokes hash
  firm : Unanchored new → Claimed hash base new state.phase →
    Store.Firm hash state.publisher.store

variable {new : List PublishedFrame}

theorem Upheld.nothing (upheld : Upheld hash base new state) (origin : state.publisher = base) :
    new = [] := by
  have frames := upheld.frames
  rw [origin] at frames
  exact List.self_eq_append_right.mp frames

theorem Upheld.stands (upheld : Upheld hash base new state)
    (claimed : Claimed hash base new state.phase) (idle : state.phase = .idle)
    (origin : state.publisher = base) : Store.Stands hash state.publisher.store := by
  rcases claimed with stands | ⟨frame, member, _⟩ | heir
  · rw [origin]
    exact stands
  · rw [upheld.nothing origin] at member
    cases member
  · rw [idle] at heir
    cases heir

theorem upheld_silent (upheld : Upheld hash base new state)
    (step : Step world (Held base) state after)
    (frames : after.publisher.shared.frames = state.publisher.shared.frames)
    (edits : Edits (Held base) state after.publisher.store) : Upheld hash base new after where
  frames := frames.trans upheld.frames
  exclusive := exclusive_step upheld.exclusive step
  ordered := upheld.ordered
  unrevoked := upheld.unrevoked
  firm unanchored claimed := by
    have kept (earlier : Claimed hash base new state.phase) :
        Store.Firm hash after.publisher.store :=
      firm_edits (upheld.firm unanchored earlier) (upheld.stands earlier) edits
    rcases claimed with stands | announced | heir
    · exact kept (.inl stands)
    · exact kept (.inr (.inl announced))
    · rcases heir_step step heir with heir | firm
      · exact kept (.inr (.inr heir))
      · exact firm

theorem upheld_sends {frame : PublishedFrame} (upheld : Upheld hash base new state)
    (step : Step world (Held base) state after)
    (frames : after.publisher.shared.frames = state.publisher.shared.frames ++ [frame])
    (sends : Sends world (Held base) state frame after.publisher.store)
    (edits : Edits (Held base) state after.publisher.store) :
    Upheld hash base (new ++ [frame]) after := by
  obtain ⟨generation, event, shown, _, emits⟩ := sends
  have revoked (revokes : frame.Revokes hash) :
      state.publisher = base ∧ ¬ Store.Stands hash state.publisher.store := by
    unfold PublishedFrame.Revokes at revokes
    rw [shown] at revokes
    exact emits_revokes upheld.exclusive emits revokes
  refine ⟨?_, exclusive_step upheld.exclusive step, ?_, ?_, ?_⟩
  · rw [frames, upheld.frames, List.append_assoc]
  · intro unanchored
    refine List.pairwise_append.mpr ⟨upheld.ordered unanchored.left, List.pairwise_singleton _ _, ?_⟩
    intro earlier member later last _ revokes
    rw [List.mem_singleton.mp last] at revokes
    -- A revocation is the first frame of its round.
    rw [upheld.nothing (revoked revokes).1] at member
    cases member
  · intro unanchored stands other member revokes
    rcases List.mem_append.mp member with earlier | last
    · exact upheld.unrevoked unanchored.left stands other earlier revokes
    · rw [List.mem_singleton.mp last] at revokes
      obtain ⟨origin, fallen⟩ := revoked revokes
      rw [origin] at fallen
      exact fallen stands
  · intro unanchored claimed
    have kept (earlier : Claimed hash base new state.phase) :
        Store.Firm hash after.publisher.store :=
      firm_edits (upheld.firm unanchored.left earlier) (upheld.stands earlier) edits
    rcases claimed with stands | ⟨other, member, validates⟩ | heir
    · exact kept (.inl stands)
    · rcases List.mem_append.mp member with earlier | last
      · exact kept (.inr (.inl ⟨other, earlier, validates⟩))
      · unfold PublishedFrame.Validates at validates
        rw [List.mem_singleton.mp last, shown] at validates
        rcases emits_validates upheld.exclusive emits validates with heir | firm
        · exact kept (.inr (.inr heir))
        · exact firm
    · rcases heir_step step heir with heir | firm
      · exact kept (.inr (.inr heir))
      · exact firm

theorem upheld_step (upheld : Upheld hash base new state)
    (step : Step world (Held base) state after) : ∃ new, Upheld hash base new after := by
  cases step_effect step with
  | silent frames edits => exact ⟨new, upheld_silent upheld step frames edits⟩
  | sends frames sends edits => exact ⟨_, upheld_sends upheld step frames sends edits⟩
  | @anchors added _ _ _ frames _ shown =>
    obtain ⟨frame, member, anchor⟩ := shown
    have anchored : ¬ Unanchored (new ++ added) := by
      intro unanchored
      have free := unanchored frame (List.mem_append_right _ member)
      rw [anchor] at free
      cases free
    refine ⟨new ++ added, ?_, exclusive_step upheld.exclusive step, ?_, ?_, ?_⟩
    · rw [frames, upheld.frames, List.append_assoc]
    all_goals exact fun unanchored => absurd unanchored anchored

end Round

def Loop.published (before after : Loop) : List PublishedFrame :=
  after.publisher.shared.frames.drop before.publisher.shared.frames.length

def Store.Retains (hash : B256) (store : Store) : Prop := store.currentIncarnation hash ≠ none

instance (hash : B256) (store : Store) : Decidable (store.Retains hash) :=
  inferInstanceAs (Decidable (store.currentIncarnation hash ≠ none))

/-- Since a frame announced `hash` as validated, the publisher has kept a record for it, and no
snapshot was published. -/
inductive Standing (allowed : Publisher → Env → Input → Prop) (start : Publisher) (hash : B256) :
    Loop → Prop
  | announced {before after : Loop} (reached : Loop.Reaches allowed start before)
      (round : Loop.Round allowed before after)
      (announced : ∃ frame ∈ before.published after, frame.Validates hash)
      (unanchored : Unanchored (before.published after))
      (retained : after.publisher.store.Retains hash) : Standing allowed start hash after
  | retained {before after : Loop} (standing : Standing allowed start hash before)
      (round : Loop.Round allowed before after)
      (unanchored : Unanchored (before.published after))
      (retained : after.publisher.store.Retains hash) : Standing allowed start hash after

variable {world : Env → Prop} {allowed : Publisher → Env → Input → Prop} {start : Publisher}
  {hash : B256} {before after loop : Loop}

theorem Standing.reached (standing : Standing allowed start hash loop) :
    Loop.Reaches allowed start loop := by
  induction standing with
  | announced reached round => exact reached.tail round
  | retained _ round _ _ ih => exact ih.tail round

theorem exclusive_reaches (initial : Exclusive start.store)
    (reached : Loop.Reaches allowed start loop) : Exclusive loop.publisher.store := by
  refine @reaches_invariant _ _ (fun state => Exclusive state.publisher.store) start loop
    (reaches_any reached) initial fun state after exclusive step => ?_
  exact exclusive_step exclusive step

theorem upheld_round (hash : B256) (exclusive : Exclusive before.publisher.store)
    (round : Loop.Round (Allowed world Sustaining) before after) :
    Upheld hash before.publisher (before.published after) (.ofLoop after) := by
  obtain ⟨env, input, ⟨lawful, sustaining⟩, taken⟩ := round
  have held : Loop.Round (Allowed world (Held before.publisher)) before after :=
    ⟨env, input, ⟨lawful, rfl, sustaining⟩, taken⟩
  have started : Upheld hash before.publisher [] (.ofLoop before) := by
    refine ⟨(List.append_nil _).symm, exclusive, fun _ => .nil,
      fun _ _ _ member => absurd member List.not_mem_nil, ?_⟩
    rintro _ (⟨entry, stored, validated⟩ | ⟨_, member, _⟩ | heir)
    · refine ⟨exclusive hash entry stored, fun other found => ?_⟩
      have same : some entry = some other := stored.symm.trans found
      cases same
      exact validated
    · cases member
    · obtain ⟨publisher, control⟩ := before
      cases control <;> cases heir
  obtain ⟨new, upheld⟩ := @steps_invariant _ _
    (fun state => ∃ new, Upheld hash before.publisher new state) _ _ (round_steps held)
    ⟨[], started⟩ fun state after ⟨new, upheld⟩ step => upheld_step upheld step
  have same : before.published after = new := by
    have frames : after.publisher.shared.frames = _ := upheld.frames
    rw [Loop.published, frames, List.drop_left]
  rw [same]
  exact upheld

theorem stands_of_firm {store : Store} (firm : store.Firm hash) (retained : store.Retains hash) :
    store.Stands hash := by
  unfold Store.Retains Store.currentIncarnation at retained
  cases stored : store.candidates.get hash with
  | none => simp [stored, firm.undeferred] at retained
  | some entry => exact ⟨entry, stored, firm.validated entry stored⟩

theorem Standing.stands (initial : Exclusive start.store)
    (standing : Standing (Allowed world Sustaining) start hash loop) :
    loop.publisher.store.Stands hash := by
  induction standing with
  | announced reached round announced unanchored retained =>
    have upheld := upheld_round hash (exclusive_reaches initial reached) round
    exact stands_of_firm (upheld.firm unanchored (.inr (.inl announced))) retained
  | retained standing round unanchored retained ih =>
    have upheld := upheld_round hash (exclusive_reaches initial standing.reached) round
    exact stands_of_firm (upheld.firm unanchored (.inl ih)) retained

/-- In every run in which no `Executed` event is taken up for a validated block without a
projection: a block announced as validated is neither rejected nor announced as executed while
its record is kept, and the stage of its record stays. -/
theorem validated_never_revoked {env : Env} {options : Publisher.ServiceOptions}
    {watchSet : WatchSet} {start : Publisher}
    (started : Publisher.startService env options watchSet = some start) (hash : B256) :
    (∀ loop, Standing (Allowed (fun _ => True) Sustaining) start hash loop →
      (∃ entry, loop.publisher.store.candidates.get hash = some entry ∧ entry.stage = .validated) ∧
      ∀ after, Loop.Round (Allowed (fun _ => True) Sustaining) loop after →
        Unanchored (loop.published after) → ∀ frame ∈ loop.published after, ¬ frame.Revokes hash) ∧
    (∀ before after, Loop.Reaches (Allowed (fun _ => True) Sustaining) start before →
      Loop.Round (Allowed (fun _ => True) Sustaining) before after →
      Unanchored (before.published after) →
      (before.published after).Pairwise fun earlier later =>
        earlier.Validates hash → ¬ later.Revokes hash) ∧
    ∀ before after, Loop.Reaches (Allowed (fun _ => True) Sustaining) start before →
      Loop.Round (Allowed (fun _ => True) Sustaining) before after →
      Unanchored (before.published after) →
      ∀ entry, before.publisher.store.candidates.get hash = some entry →
        entry.stage = .validated →
        ∀ other, after.publisher.store.candidates.get hash = some other →
          other.stage = .validated := by
  have initial : Exclusive start.store := by
    obtain ⟨loaded, _, rfl⟩ := Publisher.startService_eq_some.mp started
    exact fun _ _ _ => rfl
  refine ⟨fun loop standing => ⟨standing.stands initial, ?_⟩, ?_, ?_⟩
  · intro after round unanchored
    have upheld := upheld_round hash (exclusive_reaches initial standing.reached) round
    exact upheld.unrevoked unanchored (standing.stands initial)
  · intro before after reached round unanchored
    exact (upheld_round hash (exclusive_reaches initial reached) round).ordered unanchored
  · intro before after reached round unanchored entry stored validated other found
    have upheld := upheld_round hash (exclusive_reaches initial reached) round
    exact (upheld.firm unanchored (.inl ⟨entry, stored, validated⟩)).validated other found

namespace Sample

def validatedTwo : Loop := handled (fallback 2 1) (.start narrowStart)

def evictedTwo : Loop := handled (executed 3 2) validatedTwo

def executedTwo : Loop := handled (executed 2 3) evictedTwo

def rejectedTwo : Loop := handled (.rejected 4 1 2 "invalid") executedTwo

theorem idle_validatedTwo : validatedTwo.control = .idle := by decide +kernel
theorem idle_evictedTwo : evictedTwo.control = .idle := by decide +kernel
theorem idle_executedTwo : executedTwo.control = .idle := by decide +kernel

theorem announces_validatedTwo : ((Loop.start narrowStart).published validatedTwo).any
    (fun frame => frame.envelope.event.any (Wire.Event.validates 2)) = true := by
  decide +kernel

theorem unanchored_of_all {frames : List PublishedFrame}
    (none : frames.all (fun frame => !frame.isSnapshot) = true) : Unanchored frames :=
  fun frame member => by simpa using List.all_eq_true.mp none frame member

end Sample

theorem validated_block_revoked :
    Publisher.startService (Sample.env 1 0) Sample.narrowOptions Sample.watchSet =
        some Sample.narrowStart ∧
      ∃ loop executed rejected,
        Standing (Allowed (Chained Sample.block) fun _ => Foretold Sample.block)
          Sample.narrowStart 2 loop ∧
        Loop.Round (Allowed (Chained Sample.block) fun _ => Foretold Sample.block) loop executed ∧
        (∃ frame ∈ loop.published executed, frame.Revokes 2) ∧
        Standing (Allowed (Chained Sample.block) fun _ => Foretold Sample.block)
          Sample.narrowStart 2 executed ∧
        (executed.publisher.store.candidates.get 2).map CandidateEntry.stage = some .executed ∧
        Loop.Round (Allowed (Chained Sample.block) fun _ => Foretold Sample.block) executed
          rejected ∧
        (executed.published rejected).map (·.envelope.event) =
          [some (.blockRejected { blockHash := B256.toVec 2, reason := "invalid" })] := by
  have chained := sample_chained 1 0
  have first : Loop.Round (Allowed (Chained Sample.block) fun _ => Foretold Sample.block)
      (.start Sample.narrowStart) Sample.validatedTwo :=
    Sample.round_handled rfl ⟨chained, sample_foretold_fallback 2 1⟩
  have announced : Standing (Allowed (Chained Sample.block) fun _ => Foretold Sample.block)
      Sample.narrowStart 2 Sample.validatedTwo := by
    refine .announced .refl first ?_ ?_ ?_
    · exact List.any_eq_true.mp Sample.announces_validatedTwo
    · exact Sample.unanchored_of_all (by decide +kernel)
    · decide +kernel
  have evicted : Standing (Allowed (Chained Sample.block) fun _ => Foretold Sample.block)
      Sample.narrowStart 2 Sample.evictedTwo := by
    refine .retained announced (Sample.round_handled Sample.idle_validatedTwo
      ⟨chained, sample_foretold_executed 3 2⟩) ?_ ?_
    · exact Sample.unanchored_of_all (by decide +kernel)
    · decide +kernel
  have executed : Loop.Round (Allowed (Chained Sample.block) fun _ => Foretold Sample.block)
      Sample.evictedTwo Sample.executedTwo :=
    Sample.round_handled Sample.idle_evictedTwo ⟨chained, sample_foretold_executed 2 3⟩
  refine ⟨Sample.narrow_started, Sample.evictedTwo, Sample.executedTwo, Sample.rejectedTwo, evicted,
    executed, ?_, .retained evicted executed ?_ ?_, ?_, ?_, ?_⟩
  rotate_right
  · decide +kernel
  · exact List.any_eq_true.mp (by decide +kernel)
  · exact Sample.unanchored_of_all (by decide +kernel)
  · decide +kernel
  · decide +kernel
  · refine Sample.round_handled Sample.idle_executedTwo ⟨chained, foretold_of_no_delta ?_⟩
    rintro event ⟨rfl⟩
    rfl

theorem sustaining_of_unknown {p : Publisher} {observedAt : Instant} {generation : Generation}
    {block : BlockMeta} {changes : BlockChanges}
    (unknown : (p.store.candidates.get block.hash).isNone = true) :
    Sustaining p (.event (.executed observedAt generation block changes)) := by
  intro _ _ _ entry taken _ _ _ stored
  cases taken
  rw [stored] at unknown
  cases unknown

theorem sustaining_fallback (p : Publisher) (observedAt : Instant) (generation : Generation)
    (block : BlockMeta) (changes : BlockChanges) :
    Sustaining p (.event (.validatedFallback observedAt generation block changes)) := by
  intro _ _ _ _ taken
  cases taken

theorem sample_standing :
    Standing (Allowed (fun _ => True) Sustaining) Sample.narrowStart 2 Sample.validatedTwo := by
  refine .announced .refl (Sample.round_handled rfl ⟨trivial, sustaining_fallback _ _ _ _ _⟩)
    ?_ ?_ ?_
  · exact List.any_eq_true.mp Sample.announces_validatedTwo
  · exact Sample.unanchored_of_all (by decide +kernel)
  · decide +kernel

theorem validated_never_revoked_sample :
    (Sample.validatedTwo.published Sample.evictedTwo).length = 2 ∧
      ∀ frame ∈ Sample.validatedTwo.published Sample.evictedTwo, ¬ frame.Revokes 2 := by
  refine ⟨by decide +kernel, ?_⟩
  have round : Loop.Round (Allowed (fun _ => True) Sustaining) Sample.validatedTwo
      Sample.evictedTwo := by
    refine Sample.round_handled Sample.idle_validatedTwo ⟨trivial, sustaining_of_unknown ?_⟩
    decide +kernel
  have kept := (validated_never_revoked Sample.narrow_started 2).1 Sample.validatedTwo sample_standing
  exact kept.2 Sample.evictedTwo round (Sample.unanchored_of_all (by decide +kernel))

end Statefeed
