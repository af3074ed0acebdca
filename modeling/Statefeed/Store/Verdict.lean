import Statefeed.Library.Lineage
import Statefeed.Store.Subsiding

set_option autoImplicit false

namespace Statefeed.Store

open Effect Effect.Op

def joinedSweep (store : Store) : Option FinalitySweep :=
  match store.finalitySweep with
  | some sweep => some sweep
  | none => store.lastFinalized.map fun checkpoint =>
      { checkpoint, pending := [], classifications := ∅, active := none }

structure Joins (before after : Store) (entry : Nat × B256) (keep : Nat × B256 → Bool) : Prop where
  live : ∀ entry, after.currentIncarnation entry.2 = some entry.1 → keep entry = true
  sweep : after.finalitySweep = before.joinedSweep.map fun sweep =>
    { sweep with pending := (sweep.pending ++ [entry]).filter keep }

theorem queueFinalityCheck_eq (incarnation : Nat) (hash : B256) (store : Store) :
    store.queueFinalityCheck incarnation hash = store.setSweep (store.joinedSweep.map fun sweep =>
      if (sweep.pending ++ [(incarnation, hash)]).length > store.metadataLimit * 2 then
        { sweep with
          pending := (sweep.pending ++ [(incarnation, hash)]).filter fun entry =>
            store.currentIncarnation entry.2 = some entry.1 }
      else { sweep with pending := sweep.pending ++ [(incarnation, hash)] }) := by
  unfold queueFinalityCheck joinedSweep
  cases store.finalitySweep with
  | some sweep => rfl
  | none => cases store.lastFinalized <;> rfl

theorem joins_enlist (incarnation : Nat) (block : BlockMeta) (store : Store) :
    ∃ keep, Joins store (store.enlist incarnation block) (incarnation, block.hash) keep := by
  unfold enlist
  dsimp only
  rw [queueFinalityCheck_eq]
  cases joined : store.joinedSweep with
  | none =>
    refine ⟨fun _ => true, fun _ _ => rfl, ?_⟩
    rw [joined]
    exact congrArg (Option.map _) joined
  | some sweep =>
    by_cases long : (sweep.pending ++ [(incarnation, block.hash)]).length > store.metadataLimit * 2
    · refine ⟨fun entry => store.currentIncarnation entry.2 = some entry.1, fun entry live =>
        decide_eq_true live, ?_⟩
      rw [joined]
      refine (congrArg (Option.map _) joined).trans (congrArg some ?_)
      exact if_pos long
    · refine ⟨fun _ => true, fun _ _ => rfl, ?_⟩
      rw [joined]
      refine (congrArg (Option.map _) joined).trans (congrArg some ?_)
      exact (if_neg long).trans
        (congrArg (fun pending => { sweep with pending }) (List.filter_true _).symm)

variable {store : Store}

structure Places (before after : Store) (block : BlockMeta) (incarnation : Nat) : Prop where
  settings : after.settings = before.settings
  tombstones : after.tombstones = before.tombstones
  placed : ∃ live, after.record block.hash = some live ∧ live.block = block ∧
    live.incarnation = incarnation
  others : ∀ other, other ≠ block.hash → after.record other = before.record other
  indexes : (∃ old, before.record block.hash = some old ∧ incarnation = old.incarnation ∧
      after.metadataOrder = before.metadataOrder ∧
      after.childrenByParent = before.childrenByParent ∧
      after.finalitySweep = before.finalitySweep) ∨
    (before.record block.hash = none ∧
      after.metadataOrder = before.metadataOrder ++ [(incarnation, block.hash)] ∧
      after.childrenByParent = (before.addChild block.parentHash block.hash).childrenByParent ∧
      ∃ keep, Joins before after (incarnation, block.hash) keep)

theorem places_placeCandidate (now : Instant) (projection : Projection) (stage : CandidateStage)
    (firstSequence : Nat) (store : Store) :
    Places store (store.placeCandidate now projection stage true firstSequence) projection.block
      (store.placedIncarnation projection.block.hash) where
  settings := settings_placeCandidate now projection stage true firstSequence store
  tombstones := (tombs_placeCandidate now projection stage firstSequence store).1
  placed := by
    rw [record_placeCandidate, if_pos rfl]
    exact ⟨_, rfl, rfl, rfl⟩
  others other different := by rw [record_placeCandidate, if_neg different]
  indexes := by
    cases stored : store.record projection.block.hash with
    | some old =>
      left
      have replaced := placeCandidate_over now projection stage firstSequence stored
      refine ⟨old, rfl, placedIncarnation_of_some stored, replaced.metadata, replaced.children, ?_⟩
      unfold record at stored
      unfold placeCandidate
      dsimp only
      split
      · split <;> rfl
      · rfl
      · next absent unknown =>
        rw [absent, unknown] at stored
        cases stored
    | none =>
      right
      have anew := (placeCandidate_anew now projection stage firstSequence stored).1
      rw [placedIncarnation_of_none stored]
      refine ⟨rfl, anew.metadata, anew.children, ?_⟩
      unfold record at stored
      cases cached : store.candidates.get projection.block.hash with
      | some entry => rw [cached] at stored; cases stored
      | none =>
        rw [cached] at stored
        cases deferred : store.deferredExecuted.get projection.block.hash with
        | some delta => rw [deferred] at stored; cases stored
        | none =>
          unfold placeCandidate
          dsimp only
          rw [cached, deferred]
          obtain ⟨keep, live, sweep⟩ := joins_enlist store.nextIncarnation projection.block
            (store.allocateIncarnation.2.setCandidate projection.block.hash (newEntry projection
              stage true firstSequence store.nextIncarnation (now + store.candidateRetention)))
          exact ⟨keep, live, sweep⟩

theorem places_placeDeferred (now : Instant) (block : BlockMeta) (changes : BlockChanges)
    (unknown : store.candidates.get block.hash = none) :
    Places store (store.placeDeferred now block changes) block
      (store.placedIncarnation block.hash) where
  settings := settings_placeDeferred now block changes store
  tombstones := (unchanged_placeDeferred now block changes store).2.2.1
  placed := by
    rw [record_placeDeferred now block changes unknown, if_pos rfl]
    exact ⟨_, rfl, rfl, rfl⟩
  others other different := by
    rw [record_placeDeferred now block changes unknown, if_neg different]
  indexes := by
    rcases placeDeferred_indexes now block changes unknown with ⟨old, stored, _, replaced⟩ | ⟨fresh, anew⟩
    · left
      refine ⟨old, stored, placedIncarnation_of_some stored, replaced.metadata, replaced.children, ?_⟩
      unfold record at stored
      rw [unknown] at stored
      unfold placeDeferred
      dsimp only
      split
      · rfl
      · next absent =>
        rw [absent] at stored
        cases stored
    · right
      rw [placedIncarnation_of_none fresh]
      refine ⟨fresh, anew.metadata, anew.children, ?_⟩
      unfold record at fresh
      rw [unknown] at fresh
      unfold placeDeferred
      dsimp only
      split
      · next deferred =>
        rw [deferred] at fresh
        cases fresh
      · obtain ⟨keep, live, sweep⟩ := joins_enlist store.nextIncarnation block
          (store.allocateIncarnation.2.setDeferred
            { block, changes
              incarnation := store.nextIncarnation
              expiresAt := now + store.candidateRetention })
        exact ⟨keep, live, sweep⟩

theorem treeChildren_of_get {left right : Store}
    (same : left.childrenByParent = right.childrenByParent) (parent : B256) :
    left.treeChildren parent = right.treeChildren parent := by
  unfold treeChildren
  rw [same]

theorem mem_treeChildren_addChild {parent child above other : B256}
    (member : other ∈ (store.addChild parent child).treeChildren above) :
    other ∈ store.treeChildren above ∨ above = parent ∧ other = child := by
  by_cases known : child ∈ store.childrenByParent.listed parent
  · refine .inl ?_
    change other ∈ (Table.insert _ _ (if child ∈ store.childrenByParent.listed parent
      then _ else _)).listed above at member
    rw [if_pos known, Table.listed_insert] at member
    split at member
    · next same => exact same ▸ member
    · exact member
  · change other ∈ (store.addChild parent child).childrenByParent.listed above at member
    rw [childrenByParent_addChild known] at member
    exact Table.mem_listed_attach.mp member

structure Dooms (chain : B256 → BlockMeta) (recorded : CheckpointMeta → Prop)
    (doomed : B256 → Prop) : Prop where
  conflicts : ∀ checkpoint hash, recorded checkpoint → (chain hash).number = checkpoint.number →
    hash ≠ checkpoint.hash → doomed hash
  inherits : ∀ hash, 0 < (chain hash).number → doomed (chain hash).parentHash → doomed hash

abbrev Ascends (chain : B256 → BlockMeta) (hash above : B256) : Prop :=
  Lineage.Ascends (fun hash => (chain hash).parentHash) (fun hash => (chain hash).number) hash above

theorem Dooms.of_ascends {chain : B256 → BlockMeta} {recorded : CheckpointMeta → Prop}
    {doomed : B256 → Prop} (dooms : Dooms chain recorded doomed) {hash above : B256}
    (ascends : Ascends chain hash above) (condemned : doomed above) : doomed hash := by
  induction ascends using Relation.ReflTransGen.head_induction_on with
  | refl => exact condemned
  | head link _ ih =>
    obtain ⟨positive, rfl⟩ := link
    exact dooms.inherits _ positive ih

structure Weighs (chain : B256 → BlockMeta) (recorded : CheckpointMeta → Prop)
    (doomed : B256 → Prop) (sweep : FinalitySweep) : Prop where
  checkpoint : recorded sweep.checkpoint
  remembered : ∀ hash, sweep.classifications.get hash = some .conflict → doomed hash
  walked : ∀ walk ∈ sweep.active, ∀ hash ∈ walk.root :: walk.path, Ascends chain hash walk.current

structure Judged (chain : B256 → BlockMeta) (recorded : CheckpointMeta → Prop)
    (doomed : B256 → Prop) (store : Store) : Prop where
  known : ∀ hash live, store.record hash = some live → live.block = chain hash ∧
    live.block.hash = hash
  children : ∀ parent child, child ∈ store.treeChildren parent → (chain child).parentHash = parent
  buried : ∀ hash ∈ store.tombstones, doomed hash
  finalized : ∀ checkpoint, store.lastFinalized = some checkpoint → recorded checkpoint
  sweep : ∀ sweep, store.finalitySweep = some sweep → Weighs chain recorded doomed sweep

section

variable {chain : B256 → BlockMeta} {recorded recorded' : CheckpointMeta → Prop}
  {doomed doomed' : B256 → Prop} {after : Store} {sweep sweep' left : FinalitySweep}
  {walk onward : FinalityWalk}

theorem Weighs.mono (weighs : Weighs chain recorded doomed sweep)
    (more : ∀ checkpoint, recorded checkpoint → recorded' checkpoint)
    (worse : ∀ hash, doomed hash → doomed' hash) : Weighs chain recorded' doomed' sweep :=
  ⟨more _ weighs.checkpoint, fun hash known => worse hash (weighs.remembered hash known),
    weighs.walked⟩

theorem Judged.mono (judged : Judged chain recorded doomed store)
    (more : ∀ checkpoint, recorded checkpoint → recorded' checkpoint)
    (worse : ∀ hash, doomed hash → doomed' hash) : Judged chain recorded' doomed' store where
  known := judged.known
  children := judged.children
  buried hash dead := worse hash (judged.buried hash dead)
  finalized checkpoint last := more checkpoint (judged.finalized checkpoint last)
  sweep sweep pending := (judged.sweep sweep pending).mono more worse

theorem Judged.subside (judged : Judged chain recorded doomed store)
    (subsides : Subsides doomed store after) : Judged chain recorded doomed after where
  known hash live found := by
    obtain ⟨old, stored, block, _⟩ := subsides.records hash live found
    rw [block]
    exact judged.known hash old stored
  children parent child member := judged.children parent child (subsides.children parent member)
  buried hash dead := by
    rcases subsides.tombstones hash dead with earlier | fresh
    · exact judged.buried hash earlier
    · exact fresh
  finalized checkpoint last := by
    have same : after.lastFinalized = store.lastFinalized :=
      congrArg Settings.lastFinalized subsides.settings
    exact judged.finalized checkpoint (same ▸ last)
  sweep sweep pending := judged.sweep sweep (subsides.sweep ▸ pending)

theorem Judged.joinedSweep (judged : Judged chain recorded doomed store)
    (joined : store.joinedSweep = some sweep) : Weighs chain recorded doomed sweep := by
  unfold Store.joinedSweep at joined
  cases pending : store.finalitySweep with
  | some current =>
    rw [pending] at joined
    cases joined
    exact judged.sweep _ pending
  | none =>
    rw [pending] at joined
    obtain ⟨checkpoint, last, rfl⟩ := Option.map_eq_some_iff.mp joined
    exact ⟨judged.finalized checkpoint last, by simp, by simp⟩

theorem Judged.place {block : BlockMeta} {incarnation : Nat}
    (judged : Judged chain recorded doomed store) (known : block = chain block.hash)
    (places : Places store after block incarnation) : Judged chain recorded doomed after where
  known hash live found := by
    by_cases same : hash = block.hash
    · obtain ⟨placed, stored, rfl, _⟩ := places.placed
      rw [same, stored] at found
      cases found
      rw [same]
      exact ⟨known, rfl⟩
    · rw [places.others hash same] at found
      exact judged.known hash live found
  children parent child member := by
    rcases places.indexes with ⟨_, _, _, _, children, _⟩ | ⟨_, _, children, _⟩
    · rw [treeChildren_of_get children] at member
      exact judged.children parent child member
    · rw [treeChildren_of_get children] at member
      rcases mem_treeChildren_addChild member with earlier | ⟨rfl, rfl⟩
      · exact judged.children parent child earlier
      · rw [← known]
  buried hash dead := judged.buried hash (places.tombstones ▸ dead)
  finalized checkpoint last := by
    have same : after.lastFinalized = store.lastFinalized :=
      congrArg Settings.lastFinalized places.settings
    exact judged.finalized checkpoint (same ▸ last)
  sweep sweep pending := by
    rcases places.indexes with ⟨_, _, _, _, _, same⟩ | ⟨_, _, _, keep, joins⟩
    · exact judged.sweep sweep (same ▸ pending)
    · rw [joins.sweep, Option.map_eq_some_iff] at pending
      obtain ⟨joined, found, rfl⟩ := pending
      have weighs := judged.joinedSweep found
      exact ⟨weighs.checkpoint, weighs.remembered, weighs.walked⟩

theorem Judged.blockMeta (judged : Judged chain recorded doomed store) {hash : B256}
    {block : BlockMeta} (stored : store.blockMeta hash = some block) :
    block = chain hash ∧ block.hash = hash := by
  rw [blockMeta_eq, Option.map_eq_some_iff] at stored
  obtain ⟨live, found, rfl⟩ := stored
  exact judged.known hash live found

theorem Judged.condemned (judged : Judged chain recorded doomed store)
    (dooms : Dooms chain recorded doomed) (weighs : Weighs chain recorded doomed sweep)
    {hash : B256} (condemned : CondemnedBy sweep store hash) : doomed hash := by
  induction condemned with
  | remembered conflict => exact weighs.remembered _ conflict
  | replaced _ stored level other =>
    obtain ⟨rfl, same⟩ := judged.blockMeta stored
    rw [same] at other
    exact dooms.conflicts _ _ weighs.checkpoint level other
  | buried _ stored above _ dead =>
    obtain ⟨rfl, _⟩ := judged.blockMeta stored
    exact dooms.inherits _ (Nat.zero_lt_of_lt above) (judged.buried _ dead)
  | inherited _ stored above found _ _ ih =>
    obtain ⟨rfl, _⟩ := judged.blockMeta stored
    rw [(judged.blockMeta found).2] at ih
    exact dooms.inherits _ (Nat.zero_lt_of_lt above) ih

theorem Weighs.taken (weighs : Weighs chain recorded doomed sweep)
    (taken : Taken sweep store walk left) :
    Weighs chain recorded doomed left ∧
      ∀ hash ∈ walk.root :: walk.path, Ascends chain hash walk.current := by
  have idle : ∀ walk ∈ left.active, ∀ hash ∈ walk.root :: walk.path,
      Ascends chain hash walk.current := by
    rw [taken.active_eq_none]
    exact nofun
  cases taken with
  | resumed active =>
    exact ⟨⟨weighs.checkpoint, weighs.remembered, idle⟩, weighs.walked walk active⟩
  | popped =>
    refine ⟨⟨weighs.checkpoint, weighs.remembered, idle⟩, ?_⟩
    intro hash member
    rw [List.mem_singleton.mp member]
    exact .refl

theorem Weighs.memoize (weighs : Weighs chain recorded doomed left)
    {classification : FinalityClassification}
    (settled : classification = .conflict → ∀ hash ∈ walk.current :: walk.path, doomed hash) :
    Weighs chain recorded doomed (memoize walk classification left) := by
  by_cases unknown : classification = .unknown
  · unfold Store.memoize
    rw [if_pos unknown]
    exact weighs
  · refine ⟨?_, ?_, ?_⟩
    · unfold Store.memoize
      rw [if_neg unknown]
      exact weighs.checkpoint
    · intro hash conflict
      rw [get_memoize walk unknown] at conflict
      split at conflict
      · next member => exact settled (Option.some.inj conflict) hash member
      · exact weighs.remembered hash conflict
    · rw [active_memoize]
      exact weighs.walked

theorem Judged.verdict (judged : Judged chain recorded doomed store)
    (dooms : Dooms chain recorded doomed) (weighs : Weighs chain recorded doomed sweep)
    (taken : Taken sweep store walk left)
    (settled : classifyStep left walk store = .inl .conflict) :
    doomed walk.root ∧ ∀ hash ∈ walk.current :: walk.path, doomed hash := by
  obtain ⟨weighs', ascends⟩ := weighs.taken taken
  have condemned := judged.condemned dooms weighs' ((classifyStep_cases settled).1 rfl)
  refine ⟨dooms.of_ascends (ascends _ List.mem_cons_self) condemned, ?_⟩
  intro hash member
  rcases List.mem_cons.mp member with rfl | passed
  · exact condemned
  · exact dooms.of_ascends (ascends hash (List.mem_cons_of_mem _ passed)) condemned

theorem Judged.sweepStep {conflicting : List B256} (judged : Judged chain recorded doomed store)
    (dooms : Dooms chain recorded doomed) (weighs : Weighs chain recorded doomed sweep)
    (step : Store.sweepStep sweep store = .progressed sweep' conflicting after) :
    Judged chain recorded doomed after ∧ Weighs chain recorded doomed sweep' ∧
      ∀ hash ∈ conflicting, doomed hash := by
  cases sweepStep_cases step with
  | dropped => exact ⟨judged, ⟨weighs.checkpoint, weighs.remembered, weighs.walked⟩, nofun⟩
  | moved walk onward left taken edge =>
    obtain ⟨weighs', ascends⟩ := weighs.taken taken
    obtain ⟨_, block, parent, stored, above, found, _, rfl⟩ := classifyStep_moved edge
    obtain ⟨rfl, _⟩ := judged.blockMeta stored
    have link : Lineage.Link (fun hash => (chain hash).parentHash) (fun hash => (chain hash).number)
        walk.current parent.hash :=
      ⟨Nat.zero_lt_of_lt above, (judged.blockMeta found).2⟩
    refine ⟨judged, ⟨weighs'.checkpoint, weighs'.remembered, ?_⟩, nofun⟩
    rintro other ⟨rfl⟩ hash member
    change hash ∈ walk.root :: (walk.path ++ [walk.current]) at member
    rw [← List.cons_append] at member
    rcases List.mem_append.mp member with passed | last
    · exact (ascends hash passed).tail link
    · rw [List.mem_singleton.mp last]
      exact .single link
  | kept walk left classification taken settled =>
    refine ⟨judged, (weighs.taken taken).1.memoize ?_, nofun⟩
    rintro rfl
    exact (judged.verdict dooms weighs taken settled).2
  | removed walk left taken settled live =>
    obtain ⟨root, passed⟩ := judged.verdict dooms weighs taken settled
    refine ⟨judged.subside (subsides_removeOne walk.root true store fun _ => root),
      (weighs.taken taken).1.memoize fun _ => passed, ?_⟩
    intro hash member
    split at member
    · rw [List.mem_singleton.mp member]
      exact root
    · cases member

theorem Judged.setSweep (judged : Judged chain recorded doomed store)
    {suspended : Option FinalitySweep}
    (weighs : ∀ sweep, suspended = some sweep → Weighs chain recorded doomed sweep) :
    Judged chain recorded doomed (store.setSweep suspended) :=
  ⟨judged.known, judged.children, judged.buried, judged.finalized, weighs⟩

theorem Judged.processFinalityBudget (judged : Judged chain recorded doomed store)
    (dooms : Dooms chain recorded doomed) (budget : Nat) :
    Judged chain recorded doomed (store.processFinalityBudget budget).2 ∧
      ∀ hash ∈ (store.processFinalityBudget budget).1.2, doomed hash := by
  unfold Store.processFinalityBudget
  cases pending : store.finalitySweep with
  | none => exact ⟨judged, nofun⟩
  | some sweep =>
    have swept := sweepLoop_rule (motive := fun retired sweep s =>
      Judged chain recorded doomed s ∧ Weighs chain recorded doomed sweep ∧
        ∀ hash ∈ retired, doomed hash) ?_ budget 0 [] sweep (store.setSweep none)
      ⟨judged.setSweep nofun, judged.sweep sweep pending, nofun⟩
    · refine ⟨?_, swept.2.2⟩
      dsimp only
      split
      · exact swept.1
      · refine swept.1.setSweep ?_
        rintro suspended ⟨rfl⟩
        exact swept.2.1
    · rintro retired before s after conflicting s' step ⟨holds, weighs, dead⟩
      obtain ⟨holds', weighs', fresh⟩ := holds.sweepStep dooms weighs step
      refine ⟨holds', weighs', ?_⟩
      intro hash member
      rcases List.mem_append.mp member with earlier | new
      · exact dead hash earlier
      · exact fresh hash new

theorem Judged.beginFinalitySweep {checkpoint : CheckpointMeta}
    (judged : Judged chain recorded doomed store) (newest : recorded checkpoint) :
    Judged chain recorded doomed
      ({ store with lastFinalized := some checkpoint }.beginFinalitySweep checkpoint) where
  known := judged.known
  children := judged.children
  buried := judged.buried
  finalized := by
    rintro other ⟨rfl⟩
    exact newest
  sweep := by
    rintro sweep ⟨rfl⟩
    exact ⟨newest, by simp, by simp⟩

theorem judged_anchored {hash : B256} {entry : CandidateEntry}
    (candidates : store.candidates = (∅ : Table B256 CandidateEntry).insert hash entry)
    (known : entry.block = chain hash ∧ entry.block.hash = hash)
    (deferred : store.deferredExecuted = ∅) (children : store.childrenByParent = ∅)
    (tombstones : store.tombstones = ∅) (idle : store.finalitySweep = none)
    (finalized : ∀ checkpoint, store.lastFinalized = some checkpoint → recorded checkpoint) :
    Judged chain recorded doomed store where
  known other live found := by
    unfold record at found
    rw [candidates, deferred, Table.get_insert] at found
    by_cases same : other = hash
    · rw [if_pos same] at found
      cases found
      rw [same]
      exact known
    · rw [if_neg same] at found
      cases found
  children parent child member := by
    unfold treeChildren at member
    rw [children] at member
    cases member
  buried hash dead := by
    rw [tombstones] at dead
    exact absurd dead (Finset.notMem_empty hash)
  finalized := finalized
  sweep sweep pending := by
    rw [idle] at pending
    cases pending

theorem judged_resetCandidates {projection : Projection} {view : ForkchoiceMeta}
    (now : Instant) (store : Store) (known : projection.block = chain projection.block.hash)
    (finalized : ∀ checkpoint, view.finalized = some checkpoint → recorded checkpoint) :
    Judged chain recorded doomed (store.resetCandidates now projection view) :=
  judged_anchored rfl ⟨known, rfl⟩ rfl rfl rfl rfl finalized

theorem judged_newConfigured {initial : Projection} {view : ForkchoiceMeta} (now : Instant)
    (policy : CandidatePolicy) (known : initial.block = chain initial.block.hash)
    (finalized : ∀ checkpoint, view.finalized = some checkpoint → recorded checkpoint) :
    Judged chain recorded doomed (newConfigured now initial view policy) :=
  judged_anchored rfl ⟨known, rfl⟩ rfl rfl rfl rfl finalized

end

end Statefeed.Store
