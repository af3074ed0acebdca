import Statefeed.Agreement

set_option autoImplicit false

namespace Statefeed

open Machine

structure Notice where
  block : Wire.BlockRef
  values : Bytes
  stage : Nat
deriving DecidableEq

def Ledger := Bytes → Option Notice

namespace Ledger

def blank : Ledger := fun _ => none

def write (ledger : Ledger) (block : Option Wire.BlockRef) (values : Bytes) (stage : Nat) : Ledger :=
  fun hash =>
    match block with
    | some block => if hash = block.hash then some { block, values, stage } else ledger hash
    | none => ledger hash

def see (ledger : Ledger) : Wire.Event → Ledger
  | .blockState state => ledger.write state.block state.values state.stage
  | .canonicalHead head => ledger.write head.block head.values Wire.BlockStage.validated.code
  | .snapshot shown => blank.write shown.block shown.values Wire.BlockStage.validated.code
  | .blockValidated notice => fun hash =>
    if hash = notice.blockHash then
      (ledger hash).map fun known => { known with stage := Wire.BlockStage.validated.code }
    else ledger hash
  | .blockRejected notice => fun hash => if hash = notice.blockHash then none else ledger hash
  | .candidatesRetired notice => fun hash =>
    if hash ∈ notice.blockHashes then none else ledger hash
  | .configActivated _ | .gap _ => blank
  | .hello _ | .forkchoiceApplied _ => ledger

def after (ledger : Ledger) (events : List Wire.Event) : Ledger := events.foldl see ledger

def entry (projection : Projection) (stage : CandidateStage) : Notice where
  block := blockRef projection.block
  values := projection.values
  stage := stage.wire.code

def Describes (ledger : Ledger) (hash : B256) (record : CandidateEntry) : Prop :=
  ∀ projection, record.projection = some projection → record.tracked = true →
    ledger (B256.toVec hash) = some (entry projection record.stage)

end Ledger

open Ledger

/-- No rejection names the canonical block. -/
def Loyal (p : Publisher) (input : Input) : Prop :=
  ∀ observedAt generation hash reason,
    input = .event (.rejected observedAt generation hash reason) → hash ≠ p.store.canonicalHash

namespace Machine

def Phase.crown : Phase → Option Projection
  | .placed _ next | .trimming _ next | .retiring _ _ _ next => next.crown
  | .heading projection _ _ => some projection
  | _ => none

structure Described (ledger : Ledger) (state : State) : Prop where
  untracked : ∀ hash ∈ state.phase.waiting, state.publisher.store.isTracked hash = false
  -- The head under way is in the store before its frame is in the ledger.
  crowned : ∀ crown ∈ state.phase.crown, ∀ record,
    state.publisher.store.candidates.get crown.block.hash = some record →
    record.stage = .validated ∧ (record.projection = some crown ∨ record.projection = none)
  told : state.phase.Keeps → ∀ hash record, hash ∉ state.phase.crown.map (·.block.hash) →
    state.publisher.store.candidates.get hash = some record → ledger.Describes hash record

def noted (first : Ledger) (p : Publisher) : Ledger :=
  first.after (p.shared.frames.filterMap (·.envelope.event))

variable {ledger ledger' first : Ledger} {phase phase' : Phase} {p p' : Publisher}

theorem noted_send (env : Env) (generation : Generation) (event : Wire.Event)
    (nextState : Option (Projection × Option ForkchoiceMeta × Bool)) :
    noted first (p.send env generation event nextState) = (noted first p).see event := by
  unfold noted Ledger.after
  change List.foldl _ _ ((p.shared.frames ++ [_]).filterMap _) = _
  rw [List.filterMap_append, List.foldl_append]
  rfl

theorem noted_withStore (store : Store) : noted first (p.withStore store) = noted first p := rfl

theorem described_of_reset (resets : ¬ phase.Keeps) (none : phase.waiting = [])
    (crownless : phase.crown = .none) : Described ledger ⟨phase, p⟩ := by
  refine ⟨?_, ?_, fun keeps => absurd keeps resets⟩
  · simp [none]
  · simp [crownless]

theorem described_of_told (none : phase.waiting = []) (crownless : phase.crown = .none)
    (told : ∀ hash record, p.store.candidates.get hash = some record →
      ledger.Describes hash record) : Described ledger ⟨phase, p⟩ := by
  refine ⟨?_, ?_, fun _ hash record _ => told hash record⟩
  · simp [none]
  · simp [crownless]

theorem Described.told_of_idle (described : Described ledger ⟨phase, p⟩) (keeps : phase.Keeps)
    (crownless : phase.crown = .none) {hash : B256} {record : CandidateEntry}
    (stored : p.store.candidates.get hash = some record) : ledger.Describes hash record :=
  described.told keeps hash record (by simp [crownless]) stored

theorem describes_thin {before after : Store} {hash : B256} {old record : CandidateEntry}
    (describes : ledger.Describes hash old) (earlier : before.candidates.get hash = some old)
    (stored : after.candidates.get hash = some record) (fades : Store.Fades old record)
    (shed : after.isTracked hash = true → before.isTracked hash = true)
    (same : after.isTracked hash = true → ledger' (B256.toVec hash) = ledger (B256.toVec hash)) :
    ledger'.Describes hash record := by
  intro projection cached live
  have tracked : after.isTracked hash = true := Store.isTracked_iff.mpr ⟨record, stored, live⟩
  obtain ⟨entry, found, was⟩ := Store.isTracked_iff.mp (shed tracked)
  cases earlier.symm.trans found
  have kept : old.projection = some projection := by
    rcases fades.projection with kept | gone
    · rw [← kept, cached]
    · cases gone.symm.trans cached
  rw [same tracked, describes projection kept was, fades.stage]

theorem Described.thin (described : Described ledger ⟨phase, p⟩)
    (thins : Store.Thins p.store p'.store)
    (shed : ∀ hash, p'.store.isTracked hash = true → p.store.isTracked hash = true)
    (untracked : ∀ hash ∈ phase'.waiting, p'.store.isTracked hash = false)
    (crown : phase'.crown = phase.crown) (keeps : phase'.Keeps → phase.Keeps)
    (same : ∀ hash, p'.store.isTracked hash = true →
      ledger' (B256.toVec hash) = ledger (B256.toVec hash)) :
    Described ledger' ⟨phase', p'⟩ := by
  refine ⟨untracked, fun head crowned record stored => ?_, fun still hash record other stored => ?_⟩
  · obtain ⟨old, earlier, fades⟩ := thins.candidates _ record stored
    obtain ⟨stage, projection⟩ := described.crowned head (crown ▸ crowned) old earlier
    refine ⟨fades.stage.trans stage, ?_⟩
    rcases fades.projection with kept | gone
    · rw [kept]
      exact projection
    · exact .inr gone
  · obtain ⟨old, earlier, fades⟩ := thins.candidates hash record stored
    have describes := described.told (keeps still) hash old (crown ▸ other) earlier
    exact describes_thin describes earlier stored fades (shed hash) (same hash)

theorem Described.shed {retired : List B256} (described : Described ledger ⟨phase, p⟩)
    (thins : Store.Thins p.store p'.store) (sheds : Store.Sheds p.store retired p'.store)
    (waiting : phase'.waiting = retired ++ phase.waiting) (crown : phase'.crown = phase.crown)
    (keeps : phase'.Keeps → phase.Keeps) : Described ledger ⟨phase', p'⟩ := by
  have shed (hash : B256) (tracked : p'.store.isTracked hash = true) :
      p.store.isTracked hash = true := (sheds.split hash).mpr (.inl tracked)
  refine described.thin thins shed (fun hash member => ?_) crown keeps fun _ _ => rfl
  rw [waiting] at member
  rcases List.mem_append.mp member with new | old
  · exact sheds.gone hash new
  · have before := described.untracked hash old
    by_contra tracked
    rw [shed hash (by simpa using tracked)] at before
    cases before

theorem Described.keep (described : Described ledger ⟨phase, p⟩)
    (thins : Store.Thins p.store p'.store)
    (same : ∀ hash, p'.store.isTracked hash = p.store.isTracked hash)
    (waiting : phase'.waiting = phase.waiting) (crown : phase'.crown = phase.crown)
    (keeps : phase'.Keeps → phase.Keeps) : Described ledger ⟨phase', p'⟩ :=
  described.shed thins ((Store.Sheds.refl p.store).keep same) waiting crown keeps

theorem toVec_ne {hash other : B256} (different : hash ≠ other) :
    B256.toVec hash ≠ B256.toVec other := fun same => different (B256.toVec_injective same)

theorem write_of_ne (ledger : Ledger) (block : BlockMeta) (values : Bytes) (stage : Nat)
    {hash : B256} (different : hash ≠ block.hash) :
    ledger.write (some (blockRef block)) values stage (B256.toVec hash) =
      ledger (B256.toVec hash) :=
  if_neg (toVec_ne different)

theorem write_self (ledger : Ledger) (projection : Projection) (stage : CandidateStage) :
    ledger.write (some (blockRef projection.block)) projection.values stage.wire.code
      (B256.toVec projection.block.hash) = some (entry projection stage) :=
  if_pos rfl

theorem described_announce {now : Instant} {projection : Projection} {stage : CandidateStage}
    {firstSequence : Nat} (described : Described ledger ⟨.idle, p⟩)
    (store : p'.store = p.store.placeCandidate now projection stage true firstSequence) :
    Described (ledger.see (.blockState (blockState projection stage.wire)))
      ⟨.placed projection .idle, p'⟩ := by
  refine described_of_told rfl rfl fun hash record stored => ?_
  rw [store, Store.candidates_placeCandidate, Table.get_insert] at stored
  split at stored
  · next same =>
    cases stored
    intro shown cached _
    rw [Store.placedEntry_projection] at cached
    cases cached
    rw [same, Store.placedEntry_stage]
    exact write_self _ _ _
  · next different =>
    intro shown cached live
    have before := described.told_of_idle trivial rfl stored shown cached live
    exact (write_of_ne _ _ _ _ different).trans before

theorem described_validate {hash : B256} (described : Described ledger ⟨.idle, p⟩)
    (store : p'.store = Publisher.setStage hash .validated p.store) :
    Described (ledger.see (.blockValidated { blockHash := B256.toVec hash })) ⟨.idle, p'⟩ := by
  refine described_of_told rfl rfl fun other entry found => ?_
  rw [store] at found
  change (p.store.candidates.modify hash _).get other = _ at found
  rw [Table.get_modify] at found
  split at found
  · next same =>
    obtain ⟨old, earlier, rfl⟩ := Option.map_eq_some_iff.mp found
    intro projection cached live
    have before := described.told_of_idle trivial rfl earlier projection cached live
    rw [same]
    refine (if_pos rfl).trans ?_
    rw [before]
    rfl
  · next different =>
    intro projection cached live
    have before := described.told_of_idle trivial rfl found projection cached live
    exact (if_neg (toVec_ne different)).trans before

theorem described_promote {hash : B256} {record : CandidateEntry}
    (described : Described ledger ⟨.idle, p⟩)
    (stored : p.store.candidates.get hash = some record) (bare : record.projection = none)
    (store : p'.store = Publisher.setStage hash .validated p.store) :
    Described ledger ⟨.idle, p'⟩ := by
  refine described_of_told rfl rfl fun other entry found => ?_
  rw [store] at found
  change (p.store.candidates.modify hash _).get other = _ at found
  rw [Table.get_modify] at found
  split at found
  · obtain ⟨old, earlier, rfl⟩ := Option.map_eq_some_iff.mp found
    cases stored.symm.trans earlier
    -- A record without a projection is not described.
    intro projection cached
    cases bare.symm.trans cached
  · exact described.told_of_idle trivial rfl found

theorem described_adopt {now : Instant} {projection : Projection} {changedBitmap : Bytes}
    {applied : AppliedForkchoiceMeta} (described : Described ledger ⟨.idle, p⟩)
    (store : p'.store = p.store.placeCandidate now projection .validated true 0) :
    Described ledger ⟨.placed projection (.heading projection changedBitmap applied), p'⟩ := by
  refine ⟨nofun, fun crown crowned record stored => ?_, fun _ hash record other stored => ?_⟩
  · cases crowned
    rw [store, Store.candidates_placeCandidate, Table.get_insert, if_pos rfl] at stored
    cases stored
    exact ⟨Store.placedEntry_stage _ _ _ _ _ _, .inl (Store.placedEntry_projection _ _ _ _ _ _)⟩
  · have different : hash ≠ projection.block.hash := by
      rintro rfl
      exact other rfl
    rw [store, Store.candidates_placeCandidate, Table.get_insert, if_neg different] at stored
    exact described.told_of_idle trivial rfl stored

theorem described_head {now : Instant} {projection : Projection} {changedBitmap : Bytes}
    {applied : AppliedForkchoiceMeta} {sequence : Nat} {previous : Bytes}
    (described : Described ledger ⟨.heading projection changedBitmap applied, p⟩)
    (store : p'.store = Publisher.commitCanonical now projection.block.hash sequence p.store) :
    Described (ledger.see (.canonicalHead
        { previousBlockHash := previous
          block := some (blockRef projection.block)
          values := projection.values
          changedBitmap })) ⟨.fencing applied, p'⟩ := by
  refine described_of_told rfl rfl fun hash record stored => ?_
  rw [store] at stored
  obtain ⟨old, earlier, fades⟩ := (thins_commitCanonical now projection.block.hash sequence
    p.store).candidates hash record stored
  have shed (tracked : (Publisher.commitCanonical now projection.block.hash sequence
      p.store).isTracked hash = true) : p.store.isTracked hash = true := by
    rwa [isTracked_commitCanonical] at tracked
  -- The new head was stored before its frame; every other record was in the ledger already.
  by_cases same : hash = projection.block.hash
  · rw [same] at earlier ⊢
    obtain ⟨stage, kept⟩ := described.crowned projection rfl old earlier
    intro shown cached _
    rw [fades.stage, stage]
    have crown : shown = projection := by
      rcases fades.projection with keeps | gone
      · rw [keeps] at cached
        rcases kept with kept | gone
        · exact Option.some.inj (cached.symm.trans kept)
        · cases gone.symm.trans cached
      · cases gone.symm.trans cached
    rw [crown]
    exact write_self _ _ .validated
  · have describes := described.told trivial hash old (by simpa [Phase.crown] using Ne.symm same)
      earlier
    exact describes_thin describes earlier stored fades shed
      fun _ => write_of_ne _ _ _ _ same

theorem described_alone {projection : Projection} {record : CandidateEntry}
    (alone : p.store.candidates =
      (∅ : Table B256 CandidateEntry).insert projection.block.hash record)
    (shown : record.projection = some projection) (validated : record.stage = .validated) :
    Described (ledger.write (some (blockRef projection.block)) projection.values
      Wire.BlockStage.validated.code) ⟨.idle, p⟩ := by
  refine described_of_told rfl rfl fun hash entry stored => ?_
  rw [alone, Table.get_insert] at stored
  split at stored
  · next same =>
    cases stored
    intro other cached _
    cases shown.symm.trans cached
    rw [same, validated]
    exact write_self _ _ .validated
  · cases stored

theorem described_reject {hash : B256} {reason : String} (described : Described ledger ⟨.idle, p⟩)
    (foreign : hash ≠ p.store.canonicalHash)
    (store : p'.store = p.store.removeCandidateTree hash true) :
    Described (ledger.see (.blockRejected { blockHash := B256.toVec hash, reason }))
      ⟨.idle, p'⟩ := by
  have left (other : B256) (tracked : p'.store.isTracked other = true) :
      p.store.isTracked other = true ∧ ¬ p.store.Descends hash other := by
    rw [store] at tracked
    exact (Store.isTracked_removeCandidateTree true foreign other).mp tracked
  refine described.thin (store ▸ Store.thins_removeCandidateTree _ _ _)
    (fun other tracked => (left other tracked).1) nofun rfl id fun other tracked => ?_
  refine if_neg (toVec_ne ?_)
  rintro rfl
  exact (left other tracked).2 .refl

theorem described_retire {generation : Generation} {batch rest : List B256}
    {reason : Wire.RetirementReason} {next : Phase}
    (described : Described ledger ⟨.retiring generation (batch ++ rest) reason next, p⟩)
    (store : p'.store = p.store) :
    Described (ledger.see (.candidatesRetired
        { blockHashes := batch.map B256.toVec, reason := reason.code }))
      ⟨.retiring generation rest reason next, p'⟩ := by
  have untracked : ∀ hash ∈ batch ++ rest ++ next.waiting, p.store.isTracked hash = false :=
    described.untracked
  refine described.thin (store ▸ .refl _) (fun other tracked => store ▸ tracked)
    (fun hash member => ?_) rfl id fun hash tracked => ?_
  · rw [store]
    refine untracked hash ?_
    rw [List.append_assoc]
    exact List.mem_append_right _ member
  -- What the batch names is untracked by now, so no described record is struck out.
  · refine if_neg fun member => ?_
    obtain ⟨other, inside, same⟩ := List.mem_map.mp member
    cases B256.toVec_injective same
    have gone := untracked hash (by simp [inside])
    rw [store, gone] at tracked
    cases tracked

theorem crown_afterFence (view : ForkchoiceMeta) (store : Store) :
    (afterFence view store).1.crown = none := by
  rcases afterFence_phase view store with same | same
  · rw [same]
    rfl
  · rw [same]
    rfl

theorem described_step {world : Env → Prop} {state after : State}
    (described : Described (noted first state.publisher) state)
    (step : Step world Loyal state after) : Described (noted first after.publisher) after := by
  cases step with
  | promote stored _ bare => exact described_promote described stored bare rfl
  | validate =>
    simp only [noted_withStore, noted_send]
    exact described_validate described rfl
  | announce =>
    simp only [noted_withStore, noted_send]
    exact described_announce described rfl
  | @defer p env block changes =>
    refine described_of_told rfl rfl fun hash record stored => ?_
    change (p.store.placeDeferred _ _ _).candidates.get hash = _ at stored
    rw [Store.candidates_placeDeferred] at stored
    exact described.told_of_idle trivial rfl stored
  | trimProjections trimmed =>
    exact described.shed (Store.thins_of_projections trimmed)
      (Store.sheds_trimProjectionCache trimmed) rfl rfl id
  | trimMetadata trimmed =>
    exact described.shed (Store.thins_of_metadata trimmed) (Store.sheds_trimMetadata trimmed) rfl
      rfl id
  | retire =>
    simp only [noted_send]
    exact described_retire described rfl
  | retired => exact ⟨described.untracked, described.crowned, described.told⟩
  | reject _ admitted =>
    simp only [noted_withStore, noted_send]
    exact described_reject described (admitted _ _ _ _ rfl) rfl
  | adopt => exact described_adopt described rfl
  | head =>
    simp only [noted_withStore, noted_send]
    exact described_head described rfl
  | reaffirm => exact described.keep (.refl _) (fun _ => rfl) rfl rfl id
  | @fence p env applied view =>
    simp only [noted_withStore, noted_send]
    refine described.keep (thins_afterFence _ _) (fun hash => ?_) (waiting_afterFence _ _)
      (crown_afterFence _ _) fun _ => trivial
    obtain ⟨finalized, sweep, left⟩ := afterFence_store view p.store
    change (afterFence view p.store).2.isTracked hash = _
    rw [left]
    rfl
  | sweep | maintain =>
    exact described.shed (Store.thins_processFinalityBudget _ _)
      (Store.sheds_processFinalityBudget _ _) rfl rfl id
  | expire => exact described.shed (Store.thins_removeEach _ _ _) (Store.sheds_removeEach _ _) rfl rfl id
  | anchor =>
    simp only [noted_send]
    exact described_alone rfl rfl rfl
  | activate =>
    change Described (noted first (Publisher.send _ _ _ _ (Publisher.send _ _ _ _ _))) _
    simp only [noted_send]
    exact described_alone rfl rfl rfl
  -- The steps of a recovery: the records go with its reset.
  | _ => exact described_of_reset id rfl rfl

theorem described_initial {env : Env} {options : Publisher.ServiceOptions} {watchSet : WatchSet}
    {start : Publisher} {handshake : Handshake}
    (started : Publisher.startService env options watchSet = some start)
    (joined : Handshake.accept start.shared.publishedSequence start.shared.published =
      .ok handshake) :
    Described (noted (Ledger.blank.after (handshake.events start.shared)) start) ⟨.idle, start⟩ := by
  obtain ⟨baseline, shown, view⟩ := handshake
  obtain ⟨_, _, canonical, _, _⟩ := Session.accepted_of_accept joined
  obtain ⟨loaded, _, rfl⟩ := Publisher.startService_eq_some.mp started
  have same : loaded.projection = shown := canonical
  subst same
  exact described_alone rfl rfl rfl

end Machine

/-- The ledger of a consumer that connected when the service started and has taken every frame
sent since. -/
def consumerLedger (start : Publisher) (handshake : Handshake) (loop : Loop) : Ledger :=
  Ledger.blank.after
    (handshake.events start.shared ++ loop.publisher.shared.frames.filterMap (·.envelope.event))

theorem candidates_described {env : Env} {options : Publisher.ServiceOptions} {watchSet : WatchSet}
    {start : Publisher} {handshake : Handshake} {loop : Loop}
    (started : Publisher.startService env options watchSet = some start)
    (joined : Handshake.accept start.shared.publishedSequence start.shared.published =
      .ok handshake)
    (reached : Loop.Reaches (Allowed (fun _ => True) Loyal) start loop)
    (ended : loop.control = .idle) {hash : B256} {record : CandidateEntry} {projection : Projection}
    (stored : loop.publisher.store.candidates.get hash = some record)
    (tracked : record.tracked = true) (cached : record.projection = some projection) :
    consumerLedger start handshake loop (B256.toVec hash) =
      some { block := blockRef projection.block
             values := projection.values
             stage := record.stage.wire.code } := by
  have described := @reaches_invariant _ _
    (fun state => Described
      (noted (Ledger.blank.after (handshake.events start.shared)) state.publisher) state)
    start loop reached (described_initial started joined)
    fun state after described step => described_step described step
  have phase : Phase.ofControl loop.control = .idle := by
    rw [ended]
    rfl
  have replay : consumerLedger start handshake loop =
      noted (Ledger.blank.after (handshake.events start.shared)) loop.publisher :=
    List.foldl_append
  rw [replay]
  exact described.told_of_idle (by rw [phase]; trivial) (by rw [phase]; rfl) stored projection
    cached tracked

namespace Sample

def promotedTwo : Loop := handled (.validated 2 1 2) (handled (executed 2 1) (.start start))

theorem reaches_promotedTwo : Loop.Reaches (Allowed (fun _ => True) Loyal) start promotedTwo := by
  have loyal {p : Publisher} {event : FeedEvent} (other : ∀ observedAt generation hash reason,
      event ≠ .rejected observedAt generation hash reason) :
      Allowed (fun _ => True) Loyal p (env 1 0) (.event event) := by
    refine ⟨trivial, fun observedAt generation hash reason same => ?_⟩
    exact absurd (Input.event.inj same) (other observedAt generation hash reason)
  have first : Loop.Round (Allowed (fun _ => True) Loyal) (.start start)
      (handled (executed 2 1) (.start start)) := round_handled rfl (loyal nofun)
  exact .tail (.single first) (round_handled (by decide +kernel) (loyal nofun))

def promotedRecord : CandidateEntry :=
  (promotedTwo.publisher.store.candidates.get 2).get (by decide +kernel)

def promotedProjection : Projection := promotedRecord.projection.get (by decide +kernel)

end Sample

theorem candidates_described_sample :
    Sample.promotedTwo.publisher.shared.frames.length = 2 ∧
      consumerLedger Sample.start (Sample.greeting 1) Sample.promotedTwo (B256.toVec 2) =
        some { block := blockRef (Sample.block 2)
               values := Sample.values Sample.watchSet 2
               stage := Wire.BlockStage.validated.code } := by
  have stored : Sample.promotedTwo.publisher.store.candidates.get 2 =
      some Sample.promotedRecord := (Option.some_get _).symm
  have cached : Sample.promotedRecord.projection = some Sample.promotedProjection :=
    (Option.some_get _).symm
  have told := @candidates_described _ _ _ _ (Sample.greeting 1) _ Sample.started rfl
    Sample.reaches_promotedTwo (by decide +kernel) _ _ _ stored (by decide +kernel) cached
  exact ⟨by decide +kernel, told.trans (by decide +kernel)⟩

end Statefeed
