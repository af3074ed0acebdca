import Statefeed.Store.Verdict

set_option autoImplicit false

namespace Statefeed.Store

open Effect Effect.Op

def Misplaced (chain : B256 → BlockMeta) (finalized : CheckpointMeta) (hash : B256) : Prop :=
  (chain hash).number = finalized.number ∧ hash ≠ finalized.hash

/-- What a sweep has found about misplaced blocks: they conflict, and no walk has passed one. -/
structure Attends (chain : B256 → BlockMeta) (sweep : FinalitySweep) : Prop where
  remembered : ∀ hash verdict, sweep.classifications.get hash = some verdict →
    Misplaced chain sweep.checkpoint hash → verdict = .conflict
  passed : ∀ walk ∈ sweep.active, ∀ hash ∈ walk.path, ¬ Misplaced chain sweep.checkpoint hash

structure Examined (chain : B256 → BlockMeta) (store : Store) : Prop where
  known : ∀ hash live, store.record hash = some live → live.block = chain hash ∧
    live.block.hash = hash
  order : ∀ hash live, store.record hash = some live →
    (live.incarnation, hash) ∈ store.metadataOrder
  awaited : ∀ finalized hash live, store.lastFinalized = some finalized →
    store.record hash = some live → hash ≠ store.canonicalHash →
    Misplaced chain finalized hash →
    ∃ sweep, store.finalitySweep = some sweep ∧ (live.incarnation, hash) ∈ sweep.pending
  current : ∀ sweep, store.finalitySweep = some sweep →
    store.lastFinalized = some sweep.checkpoint ∧ Attends chain sweep

section

variable {chain : B256 → BlockMeta} {store after : Store} {sweep sweep' left : FinalitySweep}
  {walk onward : FinalityWalk}

theorem Examined.subside {buried : B256 → Prop} (examined : Examined chain store)
    (subsides : Subsides buried store after) : Examined chain after := by
  have last : after.lastFinalized = store.lastFinalized :=
    congrArg Settings.lastFinalized subsides.settings
  have canonical := canonicalHash_of_settings subsides.settings
  constructor
  · intro hash live found
    obtain ⟨old, stored, block, _⟩ := subsides.records hash live found
    rw [block]
    exact examined.known hash old stored
  · intro hash live found
    obtain ⟨old, stored, _, incarnation⟩ := subsides.records hash live found
    apply subsides.order hash live found
    rw [incarnation]
    exact examined.order hash old stored
  · intro finalized hash live recorded found foreign misplaced
    obtain ⟨old, stored, _, incarnation⟩ := subsides.records hash live found
    rw [last] at recorded
    rw [canonical] at foreign
    rw [subsides.sweep, incarnation]
    exact examined.awaited finalized hash old recorded stored foreign misplaced
  · intro sweep pending
    rw [last]
    exact examined.current sweep (subsides.sweep ▸ pending)

theorem attends_new (checkpoint : CheckpointMeta) (pending : List (Nat × B256)) :
    Attends chain { checkpoint, pending, classifications := ∅, active := none } :=
  ⟨by simp, by simp⟩

theorem Examined.joinedSweep (examined : Examined chain store)
    (joined : store.joinedSweep = some sweep) :
    store.lastFinalized = some sweep.checkpoint ∧ Attends chain sweep := by
  unfold Store.joinedSweep at joined
  cases pending : store.finalitySweep with
  | some current =>
    rw [pending] at joined
    cases joined
    exact examined.current _ pending
  | none =>
    rw [pending] at joined
    obtain ⟨checkpoint, last, rfl⟩ := Option.map_eq_some_iff.mp joined
    exact ⟨last, attends_new checkpoint []⟩

theorem exists_joinedSweep {finalized : CheckpointMeta}
    (recorded : store.lastFinalized = some finalized) :
    ∃ sweep, store.joinedSweep = some sweep ∧
      ∀ pending, store.finalitySweep = some pending → pending = sweep := by
  unfold Store.joinedSweep
  cases pending : store.finalitySweep with
  | some current => exact ⟨current, rfl, fun _ same => (Option.some.inj same).symm⟩
  | none =>
    rw [recorded]
    exact ⟨_, rfl, nofun⟩

theorem Examined.place {block : BlockMeta} {incarnation : Nat} (examined : Examined chain store)
    (known : block = chain block.hash) (places : Places store after block incarnation) :
    Examined chain after := by
  have last : after.lastFinalized = store.lastFinalized :=
    congrArg Settings.lastFinalized places.settings
  have canonical := canonicalHash_of_settings places.settings
  obtain ⟨placed, stored, rfl, rfl⟩ := places.placed
  have cases_record : ∀ hash live, after.record hash = some live →
      hash = placed.block.hash ∧ live = placed ∨
        hash ≠ placed.block.hash ∧ store.record hash = some live := by
    intro hash live found
    by_cases same : hash = placed.block.hash
    · rw [same, stored] at found
      exact .inl ⟨same, (Option.some.inj found).symm⟩
    · rw [places.others hash same] at found
      exact .inr ⟨same, found⟩
  constructor
  · intro hash live found
    rcases cases_record hash live found with ⟨rfl, rfl⟩ | ⟨_, earlier⟩
    · exact ⟨known, rfl⟩
    · exact examined.known hash live earlier
  · intro hash live found
    rcases places.indexes with ⟨old, replaced, same, order, _⟩ | ⟨_, order, _⟩
    · rw [order]
      rcases cases_record hash live found with ⟨rfl, rfl⟩ | ⟨_, earlier⟩
      · rw [same]
        exact examined.order _ old replaced
      · exact examined.order hash live earlier
    · rw [order, List.mem_append]
      rcases cases_record hash live found with ⟨rfl, rfl⟩ | ⟨_, earlier⟩
      · exact .inr List.mem_cons_self
      · exact .inl (examined.order hash live earlier)
  · intro finalized hash live recorded found foreign misplaced
    rw [last] at recorded
    rw [canonical] at foreign
    rcases places.indexes with ⟨old, replaced, same, _, _, unchanged⟩ | ⟨_, _, _, keep, joins⟩
    · rw [unchanged]
      rcases cases_record hash live found with ⟨rfl, rfl⟩ | ⟨_, earlier⟩
      · rw [same]
        exact examined.awaited finalized _ old recorded replaced foreign misplaced
      · exact examined.awaited finalized hash live recorded earlier foreign misplaced
    · obtain ⟨sweep, joined, only⟩ := exists_joinedSweep recorded
      have current : after.currentIncarnation hash = some live.incarnation := by
        rw [currentIncarnation_eq, found]
        rfl
      have queued : (live.incarnation, hash) ∈
          sweep.pending ++ [(placed.incarnation, placed.block.hash)] := by
        rw [List.mem_append]
        rcases cases_record hash live found with ⟨rfl, rfl⟩ | ⟨_, earlier⟩
        · exact .inr List.mem_cons_self
        · obtain ⟨pending, under, waiting⟩ :=
            examined.awaited finalized hash live recorded earlier foreign misplaced
          exact .inl (only pending under ▸ waiting)
      rw [joins.sweep, joined]
      exact ⟨_, rfl, List.mem_filter.mpr ⟨queued, joins.live _ current⟩⟩
  · intro sweep pending
    rw [last]
    rcases places.indexes with ⟨_, _, _, _, _, unchanged⟩ | ⟨_, _, _, keep, joins⟩
    · exact examined.current sweep (unchanged ▸ pending)
    · rw [joins.sweep, Option.map_eq_some_iff] at pending
      obtain ⟨joined, found, rfl⟩ := pending
      obtain ⟨recorded, attends⟩ := examined.joinedSweep found
      exact ⟨recorded, attends.remembered, attends.passed⟩

structure Examining (chain : B256 → BlockMeta) (sweep : FinalitySweep) (store : Store) : Prop where
  known : ∀ hash live, store.record hash = some live → live.block = chain hash ∧
    live.block.hash = hash
  order : ∀ hash live, store.record hash = some live →
    (live.incarnation, hash) ∈ store.metadataOrder
  awaited : ∀ hash live, store.record hash = some live → hash ≠ store.canonicalHash →
    Misplaced chain sweep.checkpoint hash → (live.incarnation, hash) ∈ sweep.pending
  recorded : store.lastFinalized = some sweep.checkpoint
  attends : Attends chain sweep

theorem Attends.classify (attends : Attends chain sweep)
    (known : ∀ block, store.blockMeta walk.current = some block →
      block = chain walk.current ∧ block.hash = walk.current)
    (misplaced : Misplaced chain sweep.checkpoint walk.current) :
    classifyStep sweep walk store = .inl .conflict ∨
      store.blockMeta walk.current = none ∧ classifyStep sweep walk store = .inl .unknown := by
  unfold classifyStep
  cases remembered : sweep.classifications.get walk.current with
  | some verdict =>
    rw [attends.remembered _ verdict remembered misplaced]
    exact .inl rfl
  | none =>
    dsimp only
    unfold advanceFinalityWalk
    cases stored : store.blockMeta walk.current with
    | none => exact .inr ⟨rfl, rfl⟩
    | some block =>
      obtain ⟨rfl, same⟩ := known block stored
      dsimp only
      rw [if_pos misplaced.1, same, if_neg misplaced.2]
      exact .inl rfl

theorem Examining.blockMeta (examining : Examining chain sweep store) {hash : B256}
    {block : BlockMeta} (stored : store.blockMeta hash = some block) :
    block = chain hash ∧ block.hash = hash := by
  rw [blockMeta_eq, Option.map_eq_some_iff] at stored
  obtain ⟨live, found, rfl⟩ := stored
  exact examining.known hash live found

theorem Taken.fields (taken : Taken sweep store walk left) :
    left.checkpoint = sweep.checkpoint ∧ left.classifications = sweep.classifications := by
  cases taken <;> exact ⟨rfl, rfl⟩

theorem Attends.taken (attends : Attends chain sweep) (taken : Taken sweep store walk left) :
    Attends chain left := by
  obtain ⟨checkpoint, classifications⟩ := taken.fields
  refine ⟨?_, ?_⟩
  · rw [classifications, checkpoint]
    exact attends.remembered
  · rw [taken.active_eq_none]
    exact nofun

theorem Examining.taken {before : Store} (examining : Examining chain sweep store)
    (taken : Taken sweep before walk left)
    (settled : walk.path = [] → walk.current = walk.root →
      Misplaced chain sweep.checkpoint walk.root → ∀ live, store.record walk.root = some live →
      live.incarnation ≠ walk.incarnation) :
    Examining chain left store := by
  have checkpoint := taken.fields.1
  refine ⟨examining.known, examining.order, ?_, checkpoint ▸ examining.recorded,
    examining.attends.taken taken⟩
  rw [checkpoint]
  intro hash live found foreign misplaced
  have waiting := examining.awaited hash live found foreign misplaced
  cases taken with
  | resumed => exact waiting
  | popped _ queued =>
    rw [queued] at waiting
    rcases List.mem_cons.mp waiting with same | later
    · cases same
      exact absurd rfl (settled rfl rfl misplaced live found)
    · exact later

theorem Examining.passed (examining : Examining chain sweep store)
    (taken : Taken sweep store walk left) :
    ∀ hash ∈ walk.path, ¬ Misplaced chain left.checkpoint hash := by
  rw [taken.fields.1]
  cases taken with
  | resumed active => exact examining.attends.passed walk active
  | popped => exact nofun

theorem Attends.memoize (attends : Attends chain left) {verdict : FinalityClassification}
    (passed : ∀ hash ∈ walk.path, ¬ Misplaced chain left.checkpoint hash)
    (settled : Misplaced chain left.checkpoint walk.current → verdict ≠ .unknown →
      verdict = .conflict) :
    Attends chain (memoize walk verdict left) := by
  by_cases unknown : verdict = .unknown
  · unfold Store.memoize
    rw [if_pos unknown]
    exact attends
  · have checkpoint : (Store.memoize walk verdict left).checkpoint = left.checkpoint := by
      unfold Store.memoize
      rw [if_neg unknown]
    refine ⟨?_, ?_⟩
    · intro hash found known misplaced
      rw [get_memoize walk unknown] at known
      rw [checkpoint] at misplaced
      split at known
      · next member =>
        rw [← Option.some.inj known]
        rcases List.mem_cons.mp member with rfl | inside
        · exact settled misplaced unknown
        · exact absurd misplaced (passed hash inside)
      · exact attends.remembered hash found known misplaced
    · rw [active_memoize, checkpoint]
      exact attends.passed

theorem Examining.subside {buried : B256 → Prop} (examining : Examining chain sweep store)
    (subsides : Subsides buried store after) : Examining chain sweep after := by
  have last : after.lastFinalized = store.lastFinalized :=
    congrArg Settings.lastFinalized subsides.settings
  have canonical := canonicalHash_of_settings subsides.settings
  refine ⟨?_, ?_, ?_, last.trans examining.recorded, examining.attends⟩
  · intro hash live found
    obtain ⟨old, stored, block, _⟩ := subsides.records hash live found
    rw [block]
    exact examining.known hash old stored
  · intro hash live found
    obtain ⟨old, stored, _, incarnation⟩ := subsides.records hash live found
    apply subsides.order hash live found
    rw [incarnation]
    exact examining.order hash old stored
  · intro hash live found foreign misplaced
    obtain ⟨old, stored, _, incarnation⟩ := subsides.records hash live found
    rw [canonical] at foreign
    rw [incarnation]
    exact examining.awaited hash old stored foreign misplaced

theorem Examining.settle {before : Store} {verdict : FinalityClassification}
    (examining : Examining chain left store)
    (passed : ∀ hash ∈ walk.path, ¬ Misplaced chain left.checkpoint hash)
    (known : ∀ block, before.blockMeta walk.current = some block →
      block = chain walk.current ∧ block.hash = walk.current)
    (settled : classifyStep left walk before = .inl verdict) :
    Examining chain (Store.memoize walk verdict left) store := by
  obtain ⟨checkpoint, pending⟩ := memoize_fields walk verdict left
  refine ⟨examining.known, examining.order, ?_, checkpoint ▸ examining.recorded,
    examining.attends.memoize passed ?_⟩
  · rw [checkpoint, pending]
    exact examining.awaited
  · intro misplaced decided
    rcases examining.attends.classify known misplaced with conflict | ⟨_, unknown⟩
    · rw [conflict] at settled
      exact (Sum.inl.inj settled).symm
    · rw [unknown] at settled
      exact absurd (Sum.inl.inj settled).symm decided

theorem Examining.sweepStep {conflicting : List B256} (examining : Examining chain sweep store)
    (step : Store.sweepStep sweep store = .progressed sweep' conflicting after) :
    Examining chain sweep' after := by
  have known (hash : B256) (block : BlockMeta) (stored : store.blockMeta hash = some block) :=
    examining.blockMeta stored
  cases sweepStep_cases step with
  | dropped incarnation hash rest fresh queued ignored =>
    refine ⟨examining.known, examining.order, ?_, examining.recorded, examining.attends.remembered,
      examining.attends.passed⟩
    intro other live found foreign misplaced
    have waiting := examining.awaited other live found foreign misplaced
    rw [queued] at waiting
    rcases List.mem_cons.mp waiting with same | later
    · cases same
      rw [currentIncarnation_eq, found] at ignored
      exact ignored.elim (absurd rfl) (absurd · foreign)
    · exact later
  | moved walk onward left taken edge =>
    obtain ⟨_, block, parent, stored, above, _, _, rfl⟩ := classifyStep_moved edge
    obtain ⟨rfl, _⟩ := examining.blockMeta stored
    have higher : ¬ Misplaced chain left.checkpoint walk.current := by
      rintro ⟨level, _⟩
      omega
    have left' := examining.taken taken fun _ same misplaced => by
      rw [← same, ← taken.fields.1] at misplaced
      exact absurd misplaced higher
    refine ⟨left'.known, left'.order, left'.awaited, left'.recorded, left'.attends.remembered, ?_⟩
    rintro other ⟨rfl⟩ hash member
    rcases List.mem_append.mp member with earlier | last
    · exact examining.passed taken hash earlier
    · rw [List.mem_singleton.mp last]
      exact higher
  | kept walk left verdict taken settled harmless =>
    refine (examining.taken taken ?_).settle (examining.passed taken) (known walk.current) settled
    intro _ same misplaced live found incarnation
    rw [← same, ← taken.fields.1] at misplaced
    rcases (examining.attends.taken taken).classify (known walk.current) misplaced with
      conflict | ⟨gone, _⟩
    · rw [conflict] at settled
      refine harmless ⟨(Sum.inl.inj settled).symm, ?_⟩
      rw [currentIncarnation_eq, found, ← incarnation]
      rfl
    · rw [same, blockMeta_eq, found] at gone
      cases gone
  | removed walk left taken settled live =>
    have removed : Subsides (fun _ => True) store (store.removeOne walk.root true).2 :=
      subsides_removeOne walk.root true store fun _ => trivial
    refine ((examining.subside removed).taken taken ?_).settle (examining.passed taken)
      (known walk.current) settled
    intro _ _ _ other found
    rw [record_removeOne, without, if_pos rfl] at found
    cases found

theorem Examined.processFinalityBudget (examined : Examined chain store) (budget : Nat) :
    Examined chain (store.processFinalityBudget budget).2 := by
  unfold Store.processFinalityBudget
  cases pending : store.finalitySweep with
  | none => exact examined
  | some sweep =>
    obtain ⟨recorded, attends⟩ := examined.current sweep pending
    have started : Examining chain sweep (store.setSweep none) := by
      refine ⟨examined.known, examined.order, ?_, recorded, attends⟩
      intro hash live found foreign misplaced
      obtain ⟨other, same, waiting⟩ :=
        examined.awaited sweep.checkpoint hash live recorded found foreign misplaced
      rw [pending] at same
      cases same
      exact waiting
    have swept := sweepLoop_rule (motive := fun _ sweep s => Examining chain sweep s)
      (fun _ _ _ _ _ _ step holds => holds.sweepStep step) budget 0 [] sweep (store.setSweep none)
      started
    have idle : (sweepLoop budget 0 [] sweep (store.setSweep none)).2.finalitySweep = none :=
      finalitySweep_sweepLoop budget 0 [] sweep (store.setSweep none)
    dsimp only
    split
    · next finished =>
      refine ⟨swept.known, swept.order, ?_, ?_⟩
      · intro finalized hash live last found foreign misplaced
        rw [swept.recorded] at last
        cases last
        have waiting := swept.awaited hash live found foreign misplaced
        rw [finished.1] at waiting
        cases waiting
      · intro other same
        rw [idle] at same
        cases same
    · refine ⟨swept.known, swept.order, ?_, ?_⟩
      · intro finalized hash live last found foreign misplaced
        have same := swept.recorded.symm.trans last
        cases same
        exact ⟨_, rfl, swept.awaited hash live found foreign misplaced⟩
      · rintro other ⟨rfl⟩
        exact ⟨swept.recorded, swept.attends⟩

theorem Examined.beginFinalitySweep (examined : Examined chain store) (checkpoint : CheckpointMeta) :
    Examined chain
      ({ store with lastFinalized := some checkpoint }.beginFinalitySweep checkpoint) where
  known := examined.known
  order := examined.order
  awaited := by
    intro finalized hash live _ found _ _
    exact ⟨_, rfl, examined.order hash live found⟩
  current := by
    rintro sweep ⟨rfl⟩
    exact ⟨rfl, attends_new checkpoint _⟩

theorem Examined.crown (examined : Examined chain store) (hash : B256)
    (placed : ∀ finalized, store.lastFinalized = some finalized →
      ¬ Misplaced chain finalized store.canonicalHash) :
    Examined chain { store with canonicalHash := hash } where
  known := examined.known
  order := examined.order
  awaited := by
    intro finalized other live recorded found _ misplaced
    apply examined.awaited finalized other live recorded found ?_ misplaced
    rintro rfl
    exact placed finalized recorded misplaced
  current := examined.current

theorem examined_anchored {hash : B256} {entry : CandidateEntry}
    (candidates : store.candidates = (∅ : Table B256 CandidateEntry).insert hash entry)
    (known : entry.block = chain hash ∧ entry.block.hash = hash)
    (deferred : store.deferredExecuted = ∅) (canonical : store.canonicalHash = hash)
    (order : store.metadataOrder = [(entry.incarnation, hash)])
    (idle : store.finalitySweep = none) : Examined chain store := by
  have only : ∀ other live, store.record other = some live →
      other = hash ∧ live = CandidateEntry.record entry := by
    intro other live found
    unfold record at found
    rw [candidates, deferred, Table.get_insert] at found
    by_cases same : other = hash
    · rw [if_pos same] at found
      exact ⟨same, (Option.some.inj found).symm⟩
    · rw [if_neg same] at found
      cases found
  constructor
  · intro other live found
    obtain ⟨rfl, rfl⟩ := only other live found
    exact known
  · intro other live found
    obtain ⟨rfl, rfl⟩ := only other live found
    rw [order]
    exact List.mem_cons_self
  · intro finalized other live _ found foreign
    exact absurd ((only other live found).1.trans canonical.symm) foreign
  · intro sweep pending
    rw [idle] at pending
    cases pending

end

end Statefeed.Store
