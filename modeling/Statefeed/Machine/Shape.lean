import Statefeed.Machine.Contents

set_option autoImplicit false

namespace Statefeed

structure Projection.Whole (watchSet : WatchSet) (projection : Projection) : Prop where
  typed : projection.watchSet = watchSet
  values : projection.values.length = watchSet.len * 32

theorem length_setBit (bitmap : Bytes) (index : Nat) : (setBit bitmap index).length = bitmap.length :=
  List.length_modify ..

theorem length_setBits (bits : List Nat) (bitmap : Bytes) :
    (bits.foldl setBit bitmap).length = bitmap.length := by
  induction bits generalizing bitmap with
  | nil => rfl
  | cons index rest ih => rw [List.foldl_cons, ih, length_setBit]

theorem applyChanges_lengths {changes : BlockChanges} {values bitmap : Bytes}
    {applied : Bytes × Bytes} (changed : applyChanges changes values bitmap = .ok applied) :
    applied.1.length = values.length ∧ applied.2.length = bitmap.length := by
  induction changes generalizing values bitmap with
  | nil => cases changed; exact ⟨rfl, rfl⟩
  | cons change rest ih =>
    unfold applyChanges at changed
    split at changed
    · next inside =>
      dsimp only at changed
      split at changed
      · exact ih changed
      · obtain ⟨sameValues, sameBitmap⟩ := ih changed
        rw [sameValues, sameBitmap, length_setBit]
        refine ⟨Slots.length_setSlot inside ?_, rfl⟩
        exact BigEndian.length_encode ..
    · cases changed

theorem applyChanges_error {changes : BlockChanges} {values bitmap : Bytes} {failure : Error}
    (failed : applyChanges changes values bitmap = .error failure) :
    ∃ change ∈ changes, failure = .invalidKeyId change.keyId ∧
      values.length < 32 * change.keyId + 32 := by
  induction changes generalizing values bitmap with
  | nil => cases failed
  | cons change rest ih =>
    unfold applyChanges at failed
    split at failed
    · next inside =>
      dsimp only at failed
      split at failed
      · obtain ⟨later, member, invalid, outside⟩ := ih failed
        exact ⟨later, List.mem_cons_of_mem _ member, invalid, outside⟩
      · obtain ⟨later, member, invalid, outside⟩ := ih failed
        have same := Slots.length_setSlot inside (U256.length_toBeBytes change.newValue)
        unfold replaceChunk at outside
        exact ⟨later, List.mem_cons_of_mem _ member, invalid, by omega⟩
    · next outside =>
      cases failed
      exact ⟨change, List.mem_cons_self, rfl, by omega⟩

theorem validateProjectionShape_ok {projection : Projection}
    (accepted : validateProjectionShape projection = .ok ()) :
    projection.values.length = projection.watchSet.len * 32 ∧
      (projection.changedBitmap = [] ∨
        projection.changedBitmap.length = bitmapLen projection.watchSet.len) := by
  unfold validateProjectionShape at accepted
  split at accepted
  · cases accepted
  · next whole =>
    split at accepted
    · cases accepted
    · next bitmap => exact ⟨not_not.mp whole, by tauto⟩

theorem validateProjectionFrames_whole {shared : Shared} {projection : Projection}
    {forkchoice : ForkchoiceMeta}
    (accepted : validateProjectionFrames shared projection forkchoice = .ok ()) :
    projection.values.length = projection.watchSet.len * 32 := by
  unfold validateProjectionFrames at accepted
  exact (validateProjectionShape_ok (Effect.bind_unit_ok accepted).1).1

theorem canonicalChangedBitmap_length {previous next : Projection} {changedBitmap : Bytes}
    (compared : canonicalChangedBitmap previous next = .ok changedBitmap) :
    changedBitmap.length = bitmapLen next.watchSet.len := by
  unfold canonicalChangedBitmap at compared
  dsimp only at compared
  split at compared
  · cases compared
  · split at compared
    · next reused => cases compared; exact reused.2
    · cases compared
      rw [length_setBits, List.length_replicate]

theorem Projection.whole_of_shape {projection : Projection} {watchSet : WatchSet}
    (typed : projection.watchSet = watchSet) (shape : validateProjectionShape projection = .ok ()) :
    projection.Whole watchSet := by
  have values := (validateProjectionShape_ok shape).1
  rw [typed] at values
  exact ⟨typed, values⟩

namespace Machine

variable {world : Env → Prop} {offers : Publisher → Input → Prop}

theorem Inherits.whole {env : Env} {p : Publisher} {block : BlockMeta} {stage : CandidateStage}
    {values : Bytes} (inherits : Inherits env p block stage values) :
    values.length = p.active.len * 32 := by
  cases inherits with
  | cached stored inherited =>
    unfold Publisher.inheritedValues at inherited
    split_ifs at inherited with _ _ mismatch
    cases inherited
    rw [not_or, not_not, not_not] at mismatch
    exact mismatch.2
  | loaded missing read inherited =>
    obtain ⟨rfl, typed, _, shape⟩ := loadedValues_ok inherited
    exact (Projection.whole_of_shape typed shape).values

theorem Loads.whole {env : Env} {p : Publisher} {watchSet : WatchSet} {loaded : CanonicalSnapshot}
    (loads : Loads env p watchSet loaded) : loaded.projection.Whole watchSet := by
  have typed := watchSet_of_dictionary loads.dictionary
  have whole := validateProjectionFrames_whole loads.frames
  rw [typed] at whole
  exact ⟨typed, whole⟩

def Phase.Heads (good : Projection → Bytes → Prop) : Phase → Prop
  | .placed _ next | .trimming _ next | .retiring _ _ _ next => next.Heads good
  | .heading projection changedBitmap _ => good projection changedBitmap
  | _ => True

structure Shaped (valid : WatchSet → Prop) (state : State) : Prop where
  dictionary : valid state.publisher.active
  canonical : state.publisher.shared.published.canonical.Whole state.publisher.active
  heading : state.phase.Heads fun projection changedBitmap =>
    projection.Whole state.publisher.active ∧
      changedBitmap.length = bitmapLen state.publisher.active.len

variable {valid : WatchSet → Prop}

theorem Shaped.settle {state after : State} (shaped : Shaped valid state)
    (published : after.publisher.shared.published.canonical =
      state.publisher.shared.published.canonical)
    (heading : after.phase.Heads fun projection changedBitmap =>
      projection.Whole state.publisher.active ∧
        changedBitmap.length = bitmapLen state.publisher.active.len) : Shaped valid after := by
  have active : after.publisher.active = state.publisher.active :=
    congrArg Projection.watchSet published
  refine ⟨?_, ?_, ?_⟩
  · rw [active]
    exact shaped.dictionary
  · rw [active, published]
    exact shaped.canonical
  · rw [active]
    exact heading

theorem Shaped.anchor {after : State} {projection : Projection} {watchSet : WatchSet}
    (published : after.publisher.shared.published.canonical = projection)
    (whole : projection.Whole watchSet) (good : valid watchSet)
    (heading : ∀ good, after.phase.Heads good) : Shaped valid after := by
  have active : after.publisher.active = watchSet :=
    (congrArg Projection.watchSet published).trans whole.typed
  refine ⟨?_, ?_, heading _⟩
  · rw [active]
    exact good
  · rw [active, published]
    exact whole

theorem heads_afterFence (view : ForkchoiceMeta) (store : Store)
    (good : Projection → Bytes → Prop) : (afterFence view store).1.Heads good := by
  rcases afterFence_phase view store with idle | sweeping
  · rw [idle]
    trivial
  · rw [sweeping]
    trivial

theorem shaped_step (activates : ∀ p watchSet, offers p (.activation watchSet) → valid watchSet)
    {state after : State} (shaped : Shaped valid state) (step : Step world offers state after) :
    Shaped valid after := by
  cases step with
  | trimProjections | trimMetadata | retire | retired => exact shaped.settle rfl shaped.heading
  | adopt _ _ _ _ _ _ dictionary _ shape compared =>
    have typed := watchSet_of_dictionary dictionary
    have whole := (validateProjectionShape_ok shape).1
    have bits := canonicalChangedBitmap_length compared
    rw [typed] at whole bits
    exact shaped.settle rfl ⟨⟨typed, whole⟩, bits⟩
  | head =>
    have whole := shaped.heading.1
    exact Shaped.anchor rfl whole shaped.dictionary (fun _ => trivial)
  | fence => exact shaped.settle rfl (heads_afterFence _ _ _)
  | anchor _ loads => exact Shaped.anchor rfl loads.whole shaped.dictionary (fun _ => trivial)
  | activate _ admitted _ loads =>
    exact Shaped.anchor rfl loads.whole (activates _ _ admitted) (fun _ => trivial)
  | _ => exact shaped.settle rfl trivial

theorem starts_whole {env : Env} {options : Publisher.ServiceOptions} {watchSet : WatchSet}
    {loaded : CanonicalSnapshot} (starts : Publisher.Starts env options watchSet loaded) :
    loaded.projection.Whole watchSet := by
  have typed := watchSet_of_dictionary starts.dictionary
  have frames := starts.frames
  unfold validateHandshakeFrames at frames
  have whole := validateProjectionFrames_whole (Effect.bind_unit_ok (Effect.bind_unit_ok frames).2).2
  rw [typed] at whole
  exact ⟨typed, whole⟩

theorem shaped_initial {env : Env} {options : Publisher.ServiceOptions} {watchSet : WatchSet}
    {start : Publisher} (good : valid watchSet)
    (started : Publisher.startService env options watchSet = some start) :
    Shaped valid ⟨.idle, start⟩ := by
  obtain ⟨loaded, starts, rfl⟩ := Publisher.startService_eq_some.mp started
  exact Shaped.anchor rfl (starts_whole starts) good (fun _ => trivial)

def Archived (valid : WatchSet → Prop) (shared : Shared) : Prop :=
  ∀ frame ∈ shared.frames, ∀ stored, frame.stored = some stored →
    ∃ watchSet, valid watchSet ∧ stored.canonical.Whole watchSet

theorem archived_sent {shared : Shared} {env : Env} {generation : Generation} {event : Wire.Event}
    {nextState : Option (Projection × Option ForkchoiceMeta × Bool)} {watchSet : WatchSet}
    (archived : Archived valid shared) (good : valid watchSet)
    (whole : ∀ projection view, nextState = some (projection, view) → projection.Whole watchSet) :
    Archived valid (shared.sent env generation event nextState) := by
  intro frame member stored found
  rcases List.mem_append.mp member with earlier | last
  · exact archived frame earlier stored found
  · cases List.mem_singleton.mp last
    obtain ⟨⟨projection, view⟩, next, rfl⟩ := Option.map_eq_some_iff.mp found
    exact ⟨watchSet, good, whole _ _ next⟩

theorem archived_step (activates : ∀ p watchSet, offers p (.activation watchSet) → valid watchSet)
    {state after : State} (shaped : Shaped valid state)
    (archived : Archived valid state.publisher.shared) (step : Step world offers state after) :
    Archived valid after.publisher.shared := by
  have plain {p : Publisher} {env : Env} {generation : Generation} {event : Wire.Event}
      (archived : Archived valid p.shared) (good : valid p.active) :
      Archived valid (p.send env generation event none).shared :=
    archived_sent archived good nofun
  cases step with
  | validate | announce | retire | reject => exact plain archived shaped.dictionary
  | head =>
    refine archived_sent archived shaped.dictionary ?_
    rintro _ _ ⟨⟩
    exact shaped.heading.1
  | fence | gap | retryGap =>
    refine archived_sent archived shaped.dictionary ?_
    rintro _ _ ⟨⟩
    exact shaped.canonical
  | anchor _ loads =>
    refine archived_sent archived shaped.dictionary ?_
    rintro _ _ ⟨⟩
    exact loads.whole
  | activate _ admitted _ loads =>
    have good := activates _ _ admitted
    refine archived_sent (archived_sent archived good ?_) good nofun
    rintro _ _ ⟨⟩
    exact loads.whole
  | _ => exact archived

theorem shaped_reaches (activates : ∀ p watchSet, offers p (.activation watchSet) → valid watchSet)
    {env : Env} {options : Publisher.ServiceOptions} {watchSet : WatchSet} {start : Publisher}
    {state : State} (good : valid watchSet)
    (started : Publisher.startService env options watchSet = some start)
    (run : Steps world offers ⟨.idle, start⟩ state) :
    Shaped valid state ∧ Archived valid state.publisher.shared := by
  refine @steps_invariant world offers
    (fun state => Shaped valid state ∧ Archived valid state.publisher.shared) _ _ run ?_ ?_
  · refine ⟨shaped_initial good started, ?_⟩
    obtain ⟨loaded, _, rfl⟩ := Publisher.startService_eq_some.mp started
    exact fun _ member => absurd member List.not_mem_nil
  · rintro state after ⟨shaped, archived⟩ step
    exact ⟨shaped_step activates shaped step, archived_step activates shaped archived step⟩

end Machine

end Statefeed
