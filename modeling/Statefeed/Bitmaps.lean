import Statefeed.Library.Bitmap
import Statefeed.Machine.Inversion
import Statefeed.Machine.Shape
import Statefeed.Stream.Refinement
import Statefeed.Truth

set_option autoImplicit false

namespace Statefeed

open Effect Effect.Op

theorem test_setBit (bitmap : Bytes) (index other : Nat) :
    Bitmap.test (setBit bitmap index) other =
      (Bitmap.test bitmap other || decide (index = other ∧ index / 8 < bitmap.length)) :=
  Bitmap.test_modify bitmap index other

theorem test_setBits (bits : List Nat) (bitmap : Bytes) (index : Nat) :
    Bitmap.test (bits.foldl setBit bitmap) index = true ↔
      Bitmap.test bitmap index = true ∨ index ∈ bits ∧ index / 8 < bitmap.length := by
  induction bits generalizing bitmap with
  | nil => simp
  | cons first rest ih =>
    rw [List.foldl_cons, ih, test_setBit, length_setBit, Bool.or_eq_true, decide_eq_true_eq,
      List.mem_cons]
    by_cases same : first = index
    · subst same
      tauto
    · have other : index ≠ first := fun equal => same equal.symm
      simp [same, other]

theorem key_lt_bitmapLen {index keyCount : Nat} (inside : index < keyCount) :
    index / 8 < bitmapLen keyCount := by
  unfold bitmapLen
  omega

theorem applyChanges_unnamed {changes : BlockChanges} {values bitmap : Bytes}
    {applied : Bytes × Bytes} {index : Nat} (unnamed : index ∉ changes.map SlotChange.keyId)
    (changed : applyChanges changes values bitmap = .ok applied) :
    Slots.slot 32 applied.1 index = Slots.slot 32 values index := by
  induction changes generalizing values bitmap with
  | nil =>
    cases changed
    rfl
  | cons change rest ih =>
    rw [List.map_cons, List.mem_cons, not_or] at unnamed
    unfold applyChanges at changed
    split at changed
    · next fits =>
      dsimp only at changed
      split at changed
      · exact ih unnamed.2 changed
      · rw [ih unnamed.2 changed]
        exact Slots.slot_setSlot_other fits (U256.length_toBeBytes _) unnamed.1
    · cases changed

theorem applyChanges_bits {changes : BlockChanges} {values bitmap : Bytes} {applied : Bytes × Bytes}
    {keyCount : Nat} (once : (changes.map SlotChange.keyId).Nodup)
    (whole : values.length = 32 * keyCount) (room : bitmap.length = bitmapLen keyCount)
    (changed : applyChanges changes values bitmap = .ok applied) (index : Nat) :
    Bitmap.test applied.2 index = true ↔ Bitmap.test bitmap index = true ∨
      Slots.slot 32 applied.1 index ≠ Slots.slot 32 values index := by
  induction changes generalizing values bitmap with
  | nil =>
    cases changed
    simp
  | cons change rest ih =>
    rw [List.map_cons, List.nodup_cons] at once
    unfold applyChanges at changed
    split at changed
    · next fits =>
      dsimp only at changed
      split at changed
      · exact ih once.2 whole room changed
      · next different =>
        have bytes := U256.length_toBeBytes change.newValue
        have length := Slots.length_setSlot fits bytes
        have later : Bitmap.test applied.2 index = true ↔
            Bitmap.test (setBit bitmap change.keyId) index = true ∨
              Slots.slot 32 applied.1 index ≠ Slots.slot 32
                (replaceChunk values change.keyId (U256.toBeBytes change.newValue)) index :=
          ih once.2 (length.trans whole) ((length_setBit _ _).trans room) changed
        rw [later, test_setBit, Bool.or_eq_true, decide_eq_true_eq]
        have inside : change.keyId / 8 < bitmap.length := by
          rw [room]
          exact key_lt_bitmapLen (by omega)
        by_cases same : index = change.keyId
        · -- The rest of the delta leaves the slot as it is now, and it was different before.
          subst same
          have kept := applyChanges_unnamed once.1 changed
          have written : Slots.slot 32 (replaceChunk values change.keyId
              (U256.toBeBytes change.newValue)) change.keyId = U256.toBeBytes change.newValue :=
            Slots.slot_setSlot_self fits bytes
          have moved : Slots.slot 32 applied.1 change.keyId ≠ Slots.slot 32 values change.keyId := by
            rw [kept, written]
            exact fun equal => different equal.symm
          exact ⟨fun _ => .inr moved, fun _ => .inl (.inr ⟨rfl, inside⟩)⟩
        · have untouched : Slots.slot 32 (replaceChunk values change.keyId
              (U256.toBeBytes change.newValue)) index = Slots.slot 32 values index :=
            Slots.slot_setSlot_other fits bytes same
          have other : ¬ (change.keyId = index ∧ change.keyId / 8 < bitmap.length) := by
            rintro ⟨rfl, _⟩
            exact same rfl
          rw [untouched]
          tauto
    · cases changed

structure Marks (keyCount : Nat) (before after bitmap : Bytes) : Prop where
  length : bitmap.length = bitmapLen keyCount
  bits : ∀ index, Bitmap.test bitmap index = true ↔
    index < keyCount ∧ packedValue before index ≠ packedValue after index

theorem Marks.unique {keyCount : Nat} {before after left right : Bytes}
    (first : Marks keyCount before after left) (second : Marks keyCount before after right) :
    left = right := by
  apply Bitmap.ext_test (first.length.trans second.length.symm)
  intro index
  exact Bool.eq_iff_iff.mpr ((first.bits index).trans (second.bits index).symm)

/-- The full comparison of `canonical_changed_bitmap`. -/
def comparedBitmap (previous next : Projection) : Bytes :=
  ((List.range (next.values.length / 32)).filter fun index =>
    chunk previous.values index ≠ chunk next.values index).foldl setBit
      (List.replicate (bitmapLen next.watchSet.len) 0)

namespace Truth

variable {truth : Truth} {watchSet : WatchSet}

theorem slot_outside (hash : B256) {index : Nat} (outside : watchSet.len ≤ index) :
    Slots.slot 32 (truth.packed hash watchSet) index = [] := by
  unfold Slots.slot
  rw [List.drop_eq_nil_of_le, List.take_nil]
  rw [length_packed]
  exact Nat.mul_le_mul_left 32 outside

theorem packedValue_outside (hash : B256) {index : Nat} (outside : watchSet.len ≤ index) :
    packedValue (truth.packed hash watchSet) index = none := by
  unfold packedValue
  rw [if_neg]
  rw [length_packed]
  unfold WatchSet.len at outside
  omega

theorem packedValue_ne_iff (left right : B256) (index : Nat) :
    packedValue (truth.packed left watchSet) index ≠ packedValue (truth.packed right watchSet) index ↔
      index < watchSet.len ∧ Slots.slot 32 (truth.packed left watchSet) index ≠
        Slots.slot 32 (truth.packed right watchSet) index := by
  by_cases inside : index < watchSet.len
  · obtain ⟨key, present⟩ : ∃ key, watchSet.keys[index]? = some key :=
      ⟨_, List.getElem?_eq_getElem inside⟩
    rw [packedValue_packed truth left present, packedValue_packed truth right present,
      slot_packed truth left present, slot_packed truth right present]
    have injective := Function.LeftInverse.injective U256.fromBeSlice_toBeBytes
    constructor
    · intro different
      exact ⟨inside, fun same => different (congrArg some (injective same))⟩
    · rintro ⟨_, different⟩ same
      exact different (congrArg U256.toBeBytes (Option.some.inj same))
  · have outside := Nat.le_of_not_lt inside
    rw [packedValue_outside left outside, packedValue_outside right outside]
    simp [inside]

theorem marks_comparedBitmap {previous next : Projection} (before : truth.Holds watchSet previous)
    (after : truth.Holds watchSet next) :
    Marks watchSet.len previous.values next.values (comparedBitmap previous next) := by
  obtain ⟨typedBefore, describedBefore⟩ := before
  obtain ⟨typed, described⟩ := after
  have values : next.values = truth.packed next.block.hash watchSet := typed ▸ described.2
  have earlier : previous.values = truth.packed previous.block.hash watchSet :=
    typedBefore ▸ describedBefore.2
  have count : next.values.length / 32 = watchSet.len := by
    rw [values, length_packed]
    exact Nat.mul_div_cancel_left _ (by decide)
  unfold comparedBitmap
  rw [count, typed]
  constructor
  · rw [length_setBits, List.length_replicate]
  · intro index
    rw [test_setBits, Bitmap.test_replicate, List.length_replicate, List.mem_filter, List.mem_range,
      earlier, values, packedValue_ne_iff, decide_eq_true_eq, ← and_assoc, and_self]
    constructor
    · rintro (never | ⟨marked, _⟩)
      · cases never
      · exact marked
    · intro marked
      exact .inr ⟨marked, key_lt_bitmapLen marked.1⟩

theorem marks_applied {parent : Projection} {block : BlockMeta} {changes : BlockChanges}
    {applied : Bytes × Bytes} (holds : truth.Holds watchSet parent)
    (child : parent.block.hash = block.parentHash) (covers : truth.Covers watchSet block changes)
    (changed : applyChanges changes parent.values (List.replicate (bitmapLen watchSet.len) 0) =
      .ok applied) :
    Marks watchSet.len (truth.packed block.parentHash watchSet) applied.1 applied.2 := by
  have described := describes_assembled holds.1 holds.2 child covers changed
  have values : applied.1 = truth.packed block.hash watchSet := described.2
  have earlier : parent.values = truth.packed block.parentHash watchSet := by
    rw [← child, ← holds.1]
    exact holds.2.2
  have whole : parent.values.length = 32 * watchSet.len := by
    rw [earlier]
    exact length_packed truth _ _
  constructor
  · rw [(applyChanges_lengths changed).2, List.length_replicate]
  · intro index
    rw [applyChanges_bits covers.once whole List.length_replicate changed, Bitmap.test_replicate,
      values, earlier, packedValue_ne_iff, ← and_assoc, and_self]
    by_cases inside : index < watchSet.len
    · simp [inside, eq_comm]
    · have outside := Nat.le_of_not_lt inside
      simp [inside, slot_outside _ outside]

/-- A truthful snapshot source that leaves the bitmaps to the publisher. -/
structure ServesBare (truth : Truth) (env : Env) : Prop where
  serves : truth.Serves env
  latest : ∀ watchSet loaded, env.loadLatest watchSet = some loaded →
    loaded.projection.changedBitmap = []
  found : ∀ watchSet hash projection, env.loadAt watchSet hash = some projection →
    projection.changedBitmap = []

def Marked (truth : Truth) (watchSet : WatchSet) (projection : Projection) : Prop :=
  truth.Holds watchSet projection ∧ (projection.changedBitmap = [] ∨
    Marks watchSet.len (truth.packed projection.block.parentHash watchSet) projection.values
      projection.changedBitmap)

theorem spreads_marked (truth : Truth) :
    Machine.Spreads truth.Marked truth.Covers truth.ServesBare truth.Admits where
  typed _ _ marked := marked.1.1
  latest _ bare _ _ read watchSet :=
    ⟨⟨watchSet, bare.serves.latest _ _ read⟩, .inl (bare.latest _ _ read)⟩
  found _ bare _ _ _ read watchSet :=
    ⟨⟨watchSet, bare.serves.found _ _ _ read⟩, .inl (bare.found _ _ _ read)⟩
  delta := truth.spreads.delta
  applies _ _ _ _ _ marked child covers changed :=
    ⟨truth.spreads.applies _ _ _ _ _ marked.1 child covers changed,
      .inr (marks_applied marked.1 child covers changed)⟩

theorem canonicalChangedBitmap_eq {previous next : Projection} (before : truth.Marked watchSet previous)
    (after : truth.Marked watchSet next) :
    canonicalChangedBitmap previous next = .ok (comparedBitmap previous next) := by
  have compared := marks_comparedBitmap before.1 after.1
  have generation : previous.watchSet.generation = next.watchSet.generation := by
    rw [before.1.1, after.1.1]
  have earlier : previous.values = truth.packed previous.block.hash watchSet :=
    before.1.1 ▸ before.1.2.2
  have lengths : previous.values.length = next.values.length := by
    rw [before.1.2.2, after.1.2.2, length_packed, length_packed, before.1.1, after.1.1]
  unfold canonicalChangedBitmap
  dsimp only
  rw [if_neg (by simp [generation, lengths])]
  split
  · next reused =>
    obtain ⟨child, full⟩ := reused
    congr 1
    rcases after.2 with empty | marks
    · have short : (comparedBitmap previous next).length = 0 := by
        rw [compared.length, ← after.1.1, ← full, empty]
        rfl
      rw [empty, List.eq_nil_of_length_eq_zero short]
    · rw [child, ← earlier] at marks
      exact marks.unique compared
  · rfl

/-- The bitmap of a frame is exact, against what the frames `before` have published. -/
def FrameMarks (truth : Truth) (start : Publisher) (before : List PublishedFrame)
    (frame : PublishedFrame) : Prop :=
  let previous := (publishedAfter start before).canonical
  (∀ message, frame.envelope.event = some (.blockState message) →
    ∃ block, message.block = some (blockRef block) ∧ block = truth.block block.hash ∧
      Marks previous.watchSet.len (truth.packed block.parentHash previous.watchSet) message.values
        message.changedBitmap) ∧
  ∀ message, frame.envelope.event = some (.canonicalHead message) →
    message.previousBlockHash = B256.toVec previous.block.hash ∧
      Marks previous.watchSet.len previous.values message.values message.changedBitmap

end Truth

namespace Machine

variable {truth : Truth} {world : Env → Prop} {offers : Publisher → Input → Prop} {start : Publisher}

def Compares (state : State) : Prop :=
  state.phase.Heads fun projection changedBitmap =>
    canonicalChangedBitmap state.publisher.shared.published.canonical projection = .ok changedBitmap

theorem compares_step {state after : State} (compares : Compares state)
    (step : Step world offers state after) : Compares after := by
  cases step with
  | trimProjections | trimMetadata | retire | retired => exact compares
  | adopt _ _ _ _ _ _ _ _ _ compared => exact compared
  | fence => exact heads_afterFence _ _ _
  | _ => trivial

theorem frameMarks_step {state after : State}
    (step : Step truth.ServesBare truth.Admits state after)
    (filled : Filled truth.Marked truth.Covers state)
    (compares : Compares state)
    (canonical : state.publisher.store.canonicalHash =
      state.publisher.shared.published.canonical.block.hash)
    (latest : publishedAfter start state.publisher.shared.frames = state.publisher.shared.published)
    (each : History.Each (truth.FrameMarks start) state.publisher.shared.frames) :
    History.Each (truth.FrameMarks start) after.publisher.shared.frames := by
  have other {p : Publisher} {env : Env} {generation : Generation} {event : Wire.Event}
      {stored : Option (Projection × Option ForkchoiceMeta × Bool)}
      (each : History.Each (truth.FrameMarks start) p.shared.frames)
      (plain : ∀ message, event ≠ .blockState message)
      (quiet : ∀ message, event ≠ .canonicalHead message) :
      History.Each (truth.FrameMarks start) (p.send env generation event stored).shared.frames := by
    refine History.each_concat.mpr ⟨each, ?_, ?_⟩
    · rintro message ⟨rfl⟩
      exact absurd rfl (plain message)
    · rintro message ⟨rfl⟩
      exact absurd rfl (quiet message)
  cases step with
  | validate => exact other each nofun nofun
  | @announce p env stage block changes inherited applied projection lawful delta _ inherits
      changed assembled =>
    refine History.each_concat.mpr ⟨each, ?_, nofun⟩
    rintro message ⟨rfl⟩
    obtain ⟨parent, marked, keyed, rfl⟩ := inherits.parent truth.spreads_marked lawful filled.1
    have covers := delta.isSound truth.spreads_marked filled.1
    subst assembled
    rw [latest]
    exact ⟨block, rfl, covers.known, Truth.marks_applied marked.1 keyed covers changed⟩
  | retire => exact other each nofun nofun
  | reject => exact other each nofun nofun
  | @head p env projection changedBitmap applied =>
    refine History.each_concat.mpr ⟨each, nofun, ?_⟩
    rintro message ⟨rfl⟩
    rw [latest]
    have carried : truth.Marked p.active projection := filled.2
    have published : truth.Marked p.active p.shared.published.canonical := filled.1.canonical
    have compared : canonicalChangedBitmap p.shared.published.canonical projection =
        .ok changedBitmap := compares
    rw [Truth.canonicalChangedBitmap_eq published carried] at compared
    cases compared
    refine ⟨congrArg B256.toVec canonical, ?_⟩
    exact Truth.marks_comparedBitmap published.1 carried.1
  | fence => exact other each nofun nofun
  | gap => exact other each nofun nofun
  | retryGap => exact other each nofun nofun
  | @anchor p env _ loaded => exact other (p := p.installSnapshot env loaded) each nofun nofun
  | @activate p env watchSet loaded =>
    exact other (other (p := p.installSnapshot env loaded) each nofun nofun) nofun nofun
  | _ => exact each

/-- What the thread can compare: the published projection, stored ones and ones it loads. -/
inductive Comparable (truth : Truth) (p : Publisher) : Projection → Prop
  | published : Comparable truth p p.shared.published.canonical
  | stored {hash : B256} {projection : Projection}
      (found : p.store.projectionAt hash = some projection) : Comparable truth p projection
  | loaded {env : Env} {hash : B256} {projection : Projection} (bare : truth.ServesBare env)
      (read : env.loadAt p.active hash = some projection)
      (typed : projection.watchSet = p.active) : Comparable truth p projection

theorem Comparable.marked {p : Publisher} {projection : Projection}
    (contents : Contents truth.Marked truth.Covers p) (comparable : Comparable truth p projection) :
    truth.Marked p.active projection := by
  cases comparable with
  | published => exact contents.canonical
  | stored found => exact (contents.cached _ _ found).2
  | loaded bare read typed => exact truth.spreads_marked.found _ bare _ _ _ read typed

end Machine

open Machine

/-- In every run over a truthful source and covering deltas the bitmap of every published block
state and canonical head marks exactly the keys whose value changed, and comparing two
projections gives the full comparison, however it is computed. -/
theorem changed_bitmaps_exact (truth : Truth) {env : Env} {options : Publisher.ServiceOptions}
    {watchSet : WatchSet} {start : Publisher} {loop : Loop} (bare : truth.ServesBare env)
    (started : Publisher.startService env options watchSet = some start)
    (reached : Loop.Reaches (Allowed truth.ServesBare truth.Admits) start loop) :
    History.Each (truth.FrameMarks start) loop.publisher.shared.frames ∧
      ∀ previous next, Comparable truth loop.publisher previous →
        Comparable truth loop.publisher next →
        canonicalChangedBitmap previous next = .ok (comparedBitmap previous next) := by
  obtain ⟨loaded, starts, made⟩ := Publisher.startService_eq_some.mp started
  have marked : truth.Marked loaded.projection.watchSet loaded.projection :=
    truth.spreads_marked.latest env bare _ _
      (watchSet_of_dictionary starts.dictionary ▸ starts.read) rfl
  have contents : Contents truth.Marked truth.Covers start := by
    rw [made]
    exact contents_initial env options watchSet marked
  have silent : start.shared.frames = [] := by
    rw [made]
    rfl
  have invariant := @reaches_invariant _ _
    (fun state => Streaming options.bootId (Monitor.initial start) state ∧
      Filled truth.Marked truth.Covers state ∧ Compares state ∧
      History.Each (truth.FrameMarks start) state.publisher.shared.frames) start loop reached
    ⟨streaming_initial started, ⟨contents, trivial⟩, trivial, by
      change History.Each _ start.shared.frames
      rw [silent]
      exact History.each_nil⟩
    (fun state after holds step => by
      obtain ⟨streaming, filled, compares, each⟩ := holds
      obtain ⟨monitor, stream, tracks⟩ := id streaming
      have latest : publishedAfter start state.publisher.shared.frames =
          state.publisher.shared.published := (Monitor.latest_stream stream).trans tracks.published
      exact ⟨streaming_step (Monitor.coherent_initial started) streaming step,
        filled_step truth.spreads_marked filled step, compares_step compares step,
        frameMarks_step step filled compares tracks.canonical latest each⟩)
  obtain ⟨_, filled, _, each⟩ := invariant
  exact ⟨each, fun previous next before after =>
    Truth.canonicalChangedBitmap_eq (before.marked filled.1) (after.marked filled.1)⟩

namespace Sample

theorem serves_bare (head : B256) (anchoredAt : Instant) :
    Truth.sample.ServesBare (env head anchoredAt) where
  serves := Truth.sample_serves head anchoredAt
  latest _ _ read := by
    cases read
    rfl
  found _ _ _ read := by
    cases read
    rfl

def advanced : Loop := handled (applied 2 1) (handled (executed 2 1) (.start start))

theorem reaches_advanced :
    Loop.Reaches (Allowed Truth.sample.ServesBare Truth.sample.Admits) start advanced := by
  have first : Truth.sample.Admits start (.event (executed 2 1)) :=
    (Truth.sample_allows_executed 2).2 _ rfl
  have second (p : Publisher) : Truth.sample.Admits p (.event (applied 2 1)) := by
    intro block changes carried
    cases carried
  exact .tail (.single (round_handled rfl ⟨serves_bare 1 0, first⟩))
    (round_handled (by decide +kernel) ⟨serves_bare 1 0, second _⟩)

end Sample

theorem changed_bitmaps_exact_sample :
    Sample.advanced.publisher.shared.published.canonical.block.hash = 2 ∧
      Sample.advanced.publisher.shared.frames.length = 3 ∧
      History.Each (Truth.sample.FrameMarks Sample.start) Sample.advanced.publisher.shared.frames := by
  refine ⟨by decide +kernel, by decide +kernel, ?_⟩
  exact (changed_bitmaps_exact Truth.sample (Sample.serves_bare 1 0) Sample.started
    Sample.reaches_advanced).1

end Statefeed
