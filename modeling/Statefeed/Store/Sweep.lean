import Statefeed.Store.Head

set_option autoImplicit false

namespace Statefeed.Store

-- The child of an edge is the last block on the path of the walk that the unit leaves.
def followedEdge : SweepOutcome → List (B256 × B256)
  | .progressed { active := some walk, .. } _ _ =>
    walk.path.getLast?.toList.map fun child => (child, walk.current)
  | _ => []

def sweepEdges : Nat → FinalitySweep → Store → List (B256 × B256)
  | 0, _, _ => []
  | budget + 1, sweep, store =>
    match sweepStep sweep store with
    | .finished => []
    | .progressed after retired store =>
      followedEdge (.progressed after retired store) ++ sweepEdges budget after store

def sweepWork : Nat → FinalitySweep → Store → Nat
  | 0, _, _ => 0
  | budget + 1, sweep, store =>
    match sweepStep sweep store with
    | .finished => 0
    | .progressed after _ store => sweepWork budget after store + 1

def afterUnits : Nat → FinalitySweep → Store → FinalitySweep × Store
  | 0, sweep, store => (sweep, store)
  | budget + 1, sweep, store =>
    match sweepStep sweep store with
    | .finished => (sweep, store)
    | .progressed after _ store => afterUnits budget after store

def budgetEdges (budget : Nat) (store : Store) : List (B256 × B256) :=
  match store.finalitySweep with
  | none => []
  | some sweep => sweepEdges budget sweep (store.setSweep none)

structure SweepRun where
  work : Nat
  edges : List (B256 × B256)
  store : Store

def processBudgets : List Nat → Store → SweepRun
  | [], store => { work := 0, edges := [], store }
  | budget :: rest, store =>
    let done := store.processFinalityBudget budget
    let later := processBudgets rest done.2
    { work := done.1.1 + later.work
      edges := store.budgetEdges budget ++ later.edges
      store := later.store }

def Leads (sweep : FinalitySweep) (store : Store) (child parent : B256) : Prop :=
  ∃ walk onward : FinalityWalk, walk.current = child ∧
    classifyStep sweep walk store = .inr onward ∧ onward.current = parent

def LeadsTo (sweep : FinalitySweep) (store : Store) : B256 → B256 → Prop :=
  Relation.ReflTransGen (Leads sweep store)

def Unreached (sweep : FinalitySweep) (store : Store) (hash : B256) : Prop :=
  ∀ incarnation root, (incarnation, root) ∈ sweep.pending →
    store.currentIncarnation root = some incarnation → root ≠ store.canonicalHash →
    ¬ LeadsTo sweep store root hash

def Unshared (sweep : FinalitySweep) (store : Store) : Prop :=
  ∀ walk left, Taken sweep store walk left → classifyStep left walk store = .inl .unknown →
    ∀ hash ∈ walk.path, Unreached left store hash

def freshSweep (checkpoint : CheckpointMeta) (store : Store) : FinalitySweep :=
  { checkpoint, pending := store.metadataOrder, classifications := ∅, active := none }

/-- Before each unit of the sweep that begins here, the unknown path it leaves is not shared. -/
def Conclusive (checkpoint : CheckpointMeta) (store : Store) : Prop :=
  ∀ budget, Unshared (afterUnits budget (store.freshSweep checkpoint) (store.setSweep none)).1
    (afterUnits budget (store.freshSweep checkpoint) (store.setSweep none)).2

section

variable {sweep sweep' left : FinalitySweep} {store store' : Store} {walk onward : FinalityWalk}
  {child parent hash above : B256}

theorem mem_liveKeys_of_blockMeta {block : BlockMeta} (stored : store.blockMeta hash = some block) :
    hash ∈ store.liveKeys := by
  rw [blockMeta_eq, Option.map_eq_some_iff] at stored
  obtain ⟨record, live, _⟩ := stored
  exact mem_liveKeys.mpr ⟨record, live⟩

theorem classifyStep_of_parent {block found : BlockMeta}
    (unjudged : sweep.classifications.get walk.current = none)
    (stored : store.blockMeta walk.current = some block)
    (higher : sweep.checkpoint.number < block.number)
    (retained : store.blockMeta block.parentHash = some found)
    (consecutive : found.number + 1 = block.number) :
    classifyStep sweep walk store =
      .inr { walk with path := walk.path ++ [walk.current], current := found.hash } := by
  unfold classifyStep
  rw [unjudged]
  unfold advanceFinalityWalk
  rw [stored]
  dsimp only
  rw [if_neg (by omega), if_neg (by omega), retained]
  dsimp only
  rw [if_neg (by omega)]

theorem classifyStep_unknown {block : BlockMeta}
    (settled : classifyStep sweep walk store = .inl .unknown)
    (decided : sweep.classifications.get walk.current ≠ some .unknown)
    (stored : store.blockMeta walk.current = some block) :
    sweep.classifications.get walk.current = none ∧ sweep.checkpoint.number < block.number ∧
      (∀ parent, store.blockMeta block.parentHash = some parent →
        parent.number + 1 ≠ block.number) ∧
      (store.blockMeta block.parentHash = none → block.parentHash ∉ store.tombstones) := by
  unfold classifyStep at settled
  split at settled
  · next known =>
    rw [Sum.inl.inj settled] at known
    exact absurd known decided
  · next unjudged =>
    unfold advanceFinalityWalk at settled
    rw [stored] at settled
    dsimp only at settled
    split at settled
    · split at settled <;> cases settled
    · next other =>
      split at settled
      · cases settled
      · next above =>
        refine ⟨unjudged, by omega, ?_, ?_⟩
        · intro parent found
          rw [found] at settled
          dsimp only at settled
          split at settled
          · next skipped => exact skipped
          · cases settled
        · intro missing
          rw [missing] at settled
          dsimp only at settled
          split at settled
          · cases settled
          · next unburied => exact unburied

theorem leads_iff : Leads sweep store child parent ↔
    sweep.classifications.get child = none ∧ ∃ block found,
      store.blockMeta child = some block ∧ sweep.checkpoint.number < block.number ∧
      store.blockMeta block.parentHash = some found ∧ found.number + 1 = block.number ∧
      found.hash = parent := by
  constructor
  · rintro ⟨walk, onward, rfl, moved, rfl⟩
    obtain ⟨unjudged, block, found, stored, higher, retained, consecutive, rfl⟩ :=
      classifyStep_moved moved
    exact ⟨unjudged, block, found, stored, higher, retained, consecutive, rfl⟩
  · rintro ⟨unjudged, block, found, stored, higher, retained, consecutive, rfl⟩
    have moved := @classifyStep_of_parent sweep store ⟨0, child, child, []⟩ block found unjudged
      stored higher retained consecutive
    exact ⟨_, _, rfl, moved, rfl⟩

theorem leads_unique : Relator.RightUnique (Leads sweep store) := by
  intro child parent other first second
  obtain ⟨_, block, found, stored, _, retained, _, rfl⟩ := leads_iff.mp first
  obtain ⟨_, again, lower, same, _, held, _, rfl⟩ := leads_iff.mp second
  cases stored.symm.trans same
  cases retained.symm.trans held
  rfl

theorem Leads.moves (leads : Leads sweep store walk.current parent) :
    classifyStep sweep walk store =
      .inr { walk with path := walk.path ++ [walk.current], current := parent } := by
  obtain ⟨unjudged, block, found, stored, higher, retained, consecutive, rfl⟩ := leads_iff.mp leads
  exact classifyStep_of_parent unjudged stored higher retained consecutive

structure Recedes (sweep : FinalitySweep) (store : Store) (sweep' : FinalitySweep) (store' : Store) :
    Prop where
  checkpoint : sweep'.checkpoint = sweep.checkpoint
  judged : ∀ hash, sweep'.classifications.get hash = none → sweep.classifications.get hash = none
  kept : ∀ hash record, store'.record hash = some record → store.record hash = some record
  canonical : store'.canonicalHash = store.canonicalHash

theorem blockMeta_of_kept
    (kept : ∀ hash record, store'.record hash = some record → store.record hash = some record)
    {block : BlockMeta} (stored : store'.blockMeta hash = some block) :
    store.blockMeta hash = some block := by
  rw [blockMeta_eq, Option.map_eq_some_iff] at stored ⊢
  obtain ⟨record, live, same⟩ := stored
  exact ⟨record, kept _ _ live, same⟩

theorem Recedes.leads (recedes : Recedes sweep store sweep' store')
    (leads : Leads sweep' store' child parent) : Leads sweep store child parent := by
  obtain ⟨unjudged, block, found, stored, higher, retained, consecutive, rfl⟩ := leads_iff.mp leads
  rw [recedes.checkpoint] at higher
  exact leads_iff.mpr ⟨recedes.judged _ unjudged, block, found,
    blockMeta_of_kept recedes.kept stored, higher, blockMeta_of_kept recedes.kept retained,
    consecutive, rfl⟩

theorem Recedes.leadsTo (recedes : Recedes sweep store sweep' store')
    (leads : LeadsTo sweep' store' child parent) : LeadsTo sweep store child parent :=
  Relation.ReflTransGen.mono (fun _ _ => recedes.leads) _ _ leads

theorem Recedes.unreached (recedes : Recedes sweep store sweep' store')
    (pending : ∀ entry ∈ sweep'.pending, entry ∈ sweep.pending)
    (unreached : Unreached sweep store hash) : Unreached sweep' store' hash := by
  intro incarnation root member live foreign leads
  refine unreached incarnation root (pending _ member) ?_ ?_ (recedes.leadsTo leads)
  · rw [currentIncarnation_eq, Option.map_eq_some_iff] at live ⊢
    obtain ⟨record, held, same⟩ := live
    exact ⟨record, recedes.kept _ _ held, same⟩
  · rw [← recedes.canonical]
    exact foreign

theorem recedes_memoize (classification : FinalityClassification)
    (kept : ∀ hash record, store'.record hash = some record → store.record hash = some record)
    (canonical : store'.canonicalHash = store.canonicalHash) :
    Recedes left store (memoize walk classification left) store' := by
  refine ⟨(memoize_fields _ _ _).1, fun hash unjudged => ?_, kept, canonical⟩
  by_cases unknown : classification = .unknown
  · unfold memoize at unjudged
    rw [if_pos unknown] at unjudged
    exact unjudged
  · rw [get_memoize walk unknown] at unjudged
    split at unjudged
    · cases unjudged
    · exact unjudged

theorem kept_removeOne (root : B256) (hash : B256) (record : Record)
    (live : (store.removeOne root true).2.record hash = some record) :
    store.record hash = some record := by
  rw [record_removeOne] at live
  exact without_eq_some live

theorem canonicalHash_removeOne (root : B256) :
    (store.removeOne root true).2.canonicalHash = store.canonicalHash :=
  canonicalHash_of_settings (settings_removeOne root true store)

end

structure OnWay (edges : List (B256 × B256)) (sweep : FinalitySweep) (store : Store)
    (walk : FinalityWalk) : Prop where
  standing : ∃ block, store.blockMeta walk.current = some block
  root : LeadsTo sweep store walk.root walk.current
  path : ∀ hash ∈ walk.path, Relation.TransGen (Leads sweep store) hash walk.current
  followed : ∀ hash ∈ walk.path, hash ∈ edges.map Prod.fst

structure Treads (origin : Store) (queued : Nat) (edges : List (B256 × B256)) (work : Nat)
    (sweep : FinalitySweep) (store : Store) : Prop where
  kept : ∀ hash record, store.record hash = some record → origin.record hash = some record
  decided : ∀ hash, sweep.classifications.get hash ≠ some .unknown
  links : ∀ edge ∈ edges, ∃ child parent, origin.blockMeta edge.1 = some child ∧
    child.parentHash = edge.2 ∧ origin.blockMeta edge.2 = some parent
  walking : ∀ walk ∈ sweep.active, OnWay edges sweep store walk
  counted : work + sweep.pending.length + sweep.active.toList.length = queued + edges.length

def HashKeyed (store : Store) : Prop :=
  ∀ hash block, store.blockMeta hash = some block → block.hash = hash

section

variable {origin store store' : Store} {queued work : Nat} {edges : List (B256 × B256)}
  {sweep sweep' left : FinalitySweep} {walk onward : FinalityWalk} {conflicting : List B256}

theorem Treads.taken (treads : Treads origin queued edges work sweep store)
    (taken : Taken sweep store walk left) : OnWay edges left store walk := by
  cases taken with
  | resumed active =>
    have onWay := treads.walking walk active
    exact ⟨onWay.standing, onWay.root, onWay.path, onWay.followed⟩
  | popped fresh queued live foreign =>
    rw [currentIncarnation_eq, Option.map_eq_some_iff] at live
    obtain ⟨record, stored, _⟩ := live
    exact ⟨⟨record.block, by rw [blockMeta_eq, stored]; rfl⟩, .refl, by simp, by simp⟩

theorem Taken.length (taken : Taken sweep store walk left) :
    left.pending.length + 1 = sweep.pending.length + sweep.active.toList.length := by
  cases taken with
  | resumed active => simp [active]
  | popped fresh queued => simp [fresh, queued]

theorem decided_memoize (classification : FinalityClassification)
    (decided : ∀ hash, left.classifications.get hash ≠ some .unknown) (hash : B256) :
    (memoize walk classification left).classifications.get hash ≠ some .unknown := by
  by_cases unknown : classification = .unknown
  · unfold memoize
    rw [if_pos unknown]
    exact decided hash
  · rw [get_memoize walk unknown]
    split
    · exact fun same => unknown (Option.some.inj same)
    · exact decided hash

theorem followedEdge_idle (idle : sweep'.active = none) :
    followedEdge (.progressed sweep' conflicting store') = [] := by
  unfold followedEdge
  split
  · next same =>
    cases same
    cases idle
  · rfl

theorem followedEdge_moved (moved : classifyStep left walk store = .inr onward) :
    followedEdge (.progressed { left with active := some onward } [] store) =
      [(walk.current, onward.current)] := by
  obtain ⟨_, block, parent, _, _, _, _, rfl⟩ := classifyStep_moved moved
  simp [followedEdge]

theorem OnWay.moved (onWay : OnWay edges left store walk) (keyed : store.HashKeyed)
    (moved : classifyStep left walk store = .inr onward) :
    OnWay (edges ++ [(walk.current, onward.current)]) { left with active := some onward } store
      onward := by
  have leads : Leads left store walk.current onward.current := ⟨walk, onward, rfl, moved, rfl⟩
  obtain ⟨_, block, parent, stored, _, found, _, rfl⟩ := classifyStep_moved moved
  refine ⟨⟨parent, by rw [keyed _ _ found]; exact found⟩, onWay.root.tail leads, ?_, ?_⟩
  · intro hash member
    rcases List.mem_append.mp member with old | new
    · exact (onWay.path hash old).tail leads
    · rw [List.mem_singleton.mp new]
      exact .single leads
  · intro hash member
    rw [List.map_append, List.mem_append]
    exact (List.mem_append.mp member).imp (onWay.followed hash) id

theorem Treads.step (treads : Treads origin queued edges work sweep store) (keyed : origin.HashKeyed)
    (step : sweepStep sweep store = .progressed sweep' conflicting store') :
    Treads origin queued (edges ++ followedEdge (.progressed sweep' conflicting store')) (work + 1)
      sweep' store' := by
  have counted := treads.counted
  have same : store.HashKeyed := fun hash block stored =>
    keyed hash block (blockMeta_of_kept treads.kept stored)
  -- A unit that ends a walk or drops an entry leaves no walk and follows no edge.
  have idle {swept : FinalitySweep} {after : Store} {retired : List B256}
      (fresh : swept.active = none)
      (kept : ∀ hash record, after.record hash = some record → origin.record hash = some record)
      (decided : ∀ hash, swept.classifications.get hash ≠ some .unknown)
      (fewer : swept.pending.length + 1 = sweep.pending.length + sweep.active.toList.length) :
      Treads origin queued (edges ++ followedEdge (.progressed swept retired after)) (work + 1)
        swept after := by
    rw [followedEdge_idle fresh, List.append_nil]
    refine ⟨kept, decided, treads.links, by rw [fresh]; exact nofun, ?_⟩
    rw [fresh, Option.toList_none, List.length_nil]
    omega
  cases sweepStep_cases step with
  | dropped incarnation hash rest fresh first =>
    refine idle fresh treads.kept treads.decided ?_
    rw [first, fresh, Option.toList_none, List.length_nil, List.length_cons]
  | moved walk onward left taken moved =>
    have onWay := treads.taken taken
    have fewer := taken.length
    rw [followedEdge_moved moved]
    refine ⟨treads.kept, ?_, ?_, ?_, ?_⟩
    · cases taken with
      | resumed | popped => exact treads.decided
    · intro edge member
      rcases List.mem_append.mp member with old | new
      · exact treads.links edge old
      · obtain ⟨_, block, parent, stored, _, found, _, rfl⟩ := classifyStep_moved moved
        rw [List.mem_singleton.mp new]
        have named : parent.hash = block.parentHash := same _ _ found
        refine ⟨block, parent, blockMeta_of_kept treads.kept stored, named.symm, ?_⟩
        rw [named]
        exact blockMeta_of_kept treads.kept found
    · rintro other ⟨rfl⟩
      exact onWay.moved same moved
    · rw [List.length_append]
      simp only [Option.toList_some, List.length_singleton]
      omega
  | kept walk left classification taken settled =>
    have fewer := taken.length
    refine idle ((active_memoize _ _ _).trans taken.active_eq_none) treads.kept
      (decided_memoize classification ?_) (by rw [(memoize_fields _ _ _).2]; exact fewer)
    cases taken with
    | resumed | popped => exact treads.decided
  | removed walk left taken settled live =>
    have fewer := taken.length
    refine idle ((active_memoize _ _ _).trans taken.active_eq_none)
      (fun hash record live => treads.kept _ _ (kept_removeOne _ _ _ live))
      (decided_memoize .conflict ?_) (by rw [(memoize_fields _ _ _).2]; exact fewer)
    cases taken with
    | resumed | popped => exact treads.decided

theorem lower_of_transGen (keyed : store.HashKeyed) {hash above : B256}
    (leads : Relation.TransGen (Leads sweep store) hash above) :
    ∃ block reached, store.blockMeta hash = some block ∧ store.blockMeta above = some reached ∧
      reached.number < block.number := by
  have edge {child parent : B256} (leads : Leads sweep store child parent) :
      ∃ block reached, store.blockMeta child = some block ∧ store.blockMeta parent = some reached ∧
        reached.number < block.number := by
    obtain ⟨_, block, found, stored, _, retained, consecutive, rfl⟩ := leads_iff.mp leads
    exact ⟨block, found, stored, by rw [keyed _ _ retained]; exact retained, by omega⟩
  induction leads with
  | single leads => exact edge leads
  | tail _ leads ih =>
    obtain ⟨block, middle, stored, found, less⟩ := ih
    obtain ⟨again, reached, same, retained, lower⟩ := edge leads
    cases found.symm.trans same
    exact ⟨block, reached, stored, retained, lower.trans less⟩

structure Climbs (origin : Store) (queued : Nat) (edges : List (B256 × B256)) (work : Nat)
    (sweep : FinalitySweep) (store : Store) : Prop
    extends Treads origin queued edges work sweep store where
  once : (edges.map Prod.fst).Nodup
  passed : ∀ edge ∈ edges, (sweep.classifications.get edge.1).isSome ∨
    (∃ walk ∈ sweep.active, edge.1 ∈ walk.path) ∨
    (Unreached sweep store edge.1 ∧ ∀ walk ∈ sweep.active, ¬ LeadsTo sweep store walk.current edge.1)

theorem Climbs.taken (climbs : Climbs origin queued edges work sweep store)
    (taken : Taken sweep store walk left) {edge : B256 × B256} (member : edge ∈ edges) :
    (left.classifications.get edge.1).isSome ∨ edge.1 ∈ walk.path ∨
      (Unreached left store edge.1 ∧ ¬ LeadsTo left store walk.current edge.1) := by
  rcases climbs.passed edge member with known | ⟨other, active, path⟩ | ⟨unreached, elsewhere⟩
  · cases taken with
    | resumed | popped => exact .inl known
  · cases taken with
    | resumed same =>
      rw [same] at active
      cases active
      exact .inr (.inl path)
    | popped fresh =>
      rw [fresh] at active
      cases active
  · cases taken with
    | resumed active => exact .inr (.inr ⟨unreached, elsewhere _ active⟩)
    | popped fresh queued live foreign =>
      refine .inr (.inr ⟨fun incarnation root pending => ?_, ?_⟩)
      · exact unreached incarnation root (queued ▸ List.mem_cons_of_mem _ pending)
      · exact unreached _ _ (queued ▸ List.mem_cons_self) live foreign

theorem Climbs.fresh (climbs : Climbs origin queued edges work sweep store) (keyed : store.HashKeyed)
    (taken : Taken sweep store walk left) (moved : classifyStep left walk store = .inr onward) :
    walk.current ∉ edges.map Prod.fst := by
  intro member
  obtain ⟨edge, listed, same⟩ := List.mem_map.mp member
  rcases climbs.taken taken listed with known | path | ⟨_, elsewhere⟩
  · rw [same, (classifyStep_moved moved).1] at known
    cases known
  · rw [same] at path
    obtain ⟨block, reached, stored, found, less⟩ :=
      lower_of_transGen keyed ((climbs.toTreads.taken taken).path _ path)
    cases stored.symm.trans found
    exact Nat.lt_irrefl _ less
  · rw [same] at elsewhere
    exact elsewhere .refl

theorem Climbs.settled (climbs : Climbs origin queued edges work sweep store)
    (unshared : Unshared sweep store) (taken : Taken sweep store walk left)
    {classification : FinalityClassification}
    (settled : classifyStep left walk store = .inl classification)
    (recedes : Recedes left store (memoize walk classification left) store')
    {edge : B256 × B256} (member : edge ∈ edges) :
    ((memoize walk classification left).classifications.get edge.1).isSome ∨
      Unreached (memoize walk classification left) store' edge.1 := by
  have pending (entry : Nat × B256) (queued : entry ∈ (memoize walk classification left).pending) :
      entry ∈ left.pending := by
    rw [(memoize_fields _ _ _).2] at queued
    exact queued
  by_cases unknown : classification = .unknown
  · subst unknown
    rcases climbs.taken taken member with known | path | ⟨unreached, _⟩
    · exact .inl known
    · exact .inr (recedes.unreached pending (unshared walk left taken settled _ path))
    · exact .inr (recedes.unreached pending unreached)
  · rw [get_memoize walk unknown]
    rcases climbs.taken taken member with known | path | ⟨unreached, _⟩
    · left
      split
      · rfl
      · exact known
    · rw [if_pos (List.mem_cons_of_mem _ path)]
      exact .inl rfl
    · exact .inr (recedes.unreached pending unreached)

theorem Climbs.step (climbs : Climbs origin queued edges work sweep store) (keyed : origin.HashKeyed)
    (unshared : Unshared sweep store)
    (step : sweepStep sweep store = .progressed sweep' conflicting store') :
    Climbs origin queued (edges ++ followedEdge (.progressed sweep' conflicting store')) (work + 1)
      sweep' store' := by
  have treads := climbs.toTreads.step keyed step
  have same : store.HashKeyed := fun hash block stored =>
    keyed hash block (blockMeta_of_kept climbs.kept stored)
  refine ⟨treads, ?_, ?_⟩
  · -- No edge is followed twice: only a move adds one, and its child was not passed before.
    cases sweepStep_cases step with
    | dropped _ _ rest fresh =>
      have idle : { sweep with pending := rest }.active = none := fresh
      rw [followedEdge_idle idle, List.append_nil]
      exact climbs.once
    | moved walk onward left taken moved =>
      rw [followedEdge_moved moved, List.map_append]
      exact climbs.once.append (List.nodup_singleton _)
        (List.disjoint_singleton.mpr (climbs.fresh same taken moved))
    | kept _ _ _ taken | removed _ _ taken =>
      rw [followedEdge_idle ((active_memoize _ _ _).trans taken.active_eq_none), List.append_nil]
      exact climbs.once
  · cases sweepStep_cases step with
    | dropped incarnation hash rest fresh first =>
      have idle : { sweep with pending := rest }.active = none := fresh
      rw [followedEdge_idle idle, List.append_nil]
      intro edge member
      -- Fewer roots are pending, so what was out of reach stays so.
      rcases climbs.passed edge member with known | active | ⟨unreached, elsewhere⟩
      · exact .inl known
      · exact .inr (.inl active)
      · refine .inr (.inr ⟨fun incarnation root pending => ?_, elsewhere⟩)
        exact unreached incarnation root (first ▸ List.mem_cons_of_mem _ pending)
    | moved walk onward left taken moved =>
      have leads : Leads left store walk.current onward.current := ⟨walk, onward, rfl, moved, rfl⟩
      have path : onward.path = walk.path ++ [walk.current] := by
        obtain ⟨_, _, _, _, _, _, _, rfl⟩ := classifyStep_moved moved
        rfl
      rw [followedEdge_moved moved]
      intro edge member
      rcases List.mem_append.mp member with old | new
      · rcases climbs.taken taken old with known | passed | ⟨unreached, elsewhere⟩
        · exact .inl known
        · exact .inr (.inl ⟨onward, rfl, path ▸ List.mem_append_left _ passed⟩)
        · -- What the walk could reach from its next block, it could reach before.
          refine .inr (.inr ⟨unreached, ?_⟩)
          rintro other ⟨rfl⟩ onwards
          exact elsewhere (.head leads onwards)
      · rw [List.mem_singleton.mp new]
        exact .inr (.inl ⟨onward, rfl, path ▸ List.mem_append_right _ List.mem_cons_self⟩)
    | kept walk left classification taken settled =>
      have idle := (active_memoize walk classification left).trans taken.active_eq_none
      rw [followedEdge_idle idle, List.append_nil]
      intro edge member
      -- A settled walk memoises its whole path, which only cuts ways off.
      have recedes : Recedes left store (memoize walk classification left) store :=
        recedes_memoize classification (fun _ _ live => live) rfl
      refine (climbs.settled unshared taken settled recedes member).imp_right fun unreached => ?_
      exact .inr ⟨unreached, by rw [idle]; exact nofun⟩
    | removed walk left taken settled live =>
      have idle := (active_memoize walk .conflict left).trans taken.active_eq_none
      rw [followedEdge_idle idle, List.append_nil]
      intro edge member
      have recedes : Recedes left store (memoize walk .conflict left)
          (store.removeOne walk.root true).2 :=
        recedes_memoize .conflict (kept_removeOne walk.root) (canonicalHash_removeOne walk.root)
      refine (climbs.settled unshared taken settled recedes member).imp_right fun unreached => ?_
      exact .inr ⟨unreached, by rw [idle]; exact nofun⟩

end

section

variable {sweep : FinalitySweep} {store : Store}

theorem sweepLoop_eq (budget work : Nat) (retired : List B256) (sweep : FinalitySweep)
    (store : Store) :
    (sweepLoop budget work retired sweep store).1.1 = work + sweepWork budget sweep store ∧
      (sweepLoop budget work retired sweep store).1.2.2 = (afterUnits budget sweep store).1 ∧
      (sweepLoop budget work retired sweep store).2 = (afterUnits budget sweep store).2 := by
  induction budget generalizing work retired sweep store with
  | zero => exact ⟨rfl, rfl, rfl⟩
  | succ budget ih =>
    unfold sweepLoop sweepWork afterUnits
    cases sweepStep sweep store with
    | finished => exact ⟨rfl, rfl, rfl⟩
    | progressed after conflicting later =>
      obtain ⟨done, swept, left⟩ := ih (work + 1) (retired ++ conflicting) after later
      exact ⟨by dsimp only; omega, swept, left⟩

theorem units_of_finished (finished : sweepStep sweep store = .finished) (budget : Nat) :
    afterUnits budget sweep store = (sweep, store) ∧ sweepEdges budget sweep store = [] ∧
      sweepWork budget sweep store = 0 := by
  cases budget with
  | zero => exact ⟨rfl, rfl, rfl⟩
  | succ budget =>
    unfold afterUnits sweepEdges sweepWork
    rw [finished]
    exact ⟨rfl, rfl, rfl⟩

theorem units_succ {after : FinalitySweep} {conflicting : List B256} {later : Store}
    (step : sweepStep sweep store = .progressed after conflicting later) (budget : Nat) :
    afterUnits (budget + 1) sweep store = afterUnits budget after later ∧
      sweepEdges (budget + 1) sweep store = followedEdge (.progressed after conflicting later) ++
        sweepEdges budget after later ∧
      sweepWork (budget + 1) sweep store = sweepWork budget after later + 1 := by
  rw [afterUnits, sweepEdges, sweepWork, step]
  exact ⟨rfl, rfl, rfl⟩

theorem units_add (first second : Nat) (sweep : FinalitySweep) (store : Store) :
    afterUnits (first + second) sweep store =
        afterUnits second (afterUnits first sweep store).1 (afterUnits first sweep store).2 ∧
      sweepEdges (first + second) sweep store = sweepEdges first sweep store ++
        sweepEdges second (afterUnits first sweep store).1 (afterUnits first sweep store).2 ∧
      sweepWork (first + second) sweep store = sweepWork first sweep store +
        sweepWork second (afterUnits first sweep store).1 (afterUnits first sweep store).2 := by
  induction first generalizing sweep store with
  | zero => simp [afterUnits, sweepEdges, sweepWork]
  | succ first ih =>
    rw [Nat.add_right_comm]
    cases step : sweepStep sweep store with
    | finished =>
      have same (budget : Nat) := units_of_finished step budget
      simp [(same _).1, (same _).2.1, (same _).2.2]
    | progressed after conflicting later =>
      obtain ⟨same, edges, work⟩ := ih after later
      have later (budget : Nat) := units_succ step budget
      rw [(later _).1, (later _).1, (later _).2.1, (later _).2.1, (later _).2.2, (later _).2.2]
      refine ⟨same, ?_, ?_⟩
      · rw [edges, List.append_assoc]
      · omega

theorem finished_of_sweepWork {budget : Nat} (left : sweepWork budget sweep store < budget) :
    sweepStep (afterUnits budget sweep store).1 (afterUnits budget sweep store).2 = .finished := by
  induction budget generalizing sweep store with
  | zero => exact absurd left (Nat.not_lt_zero _)
  | succ budget ih =>
    cases step : sweepStep sweep store with
    | finished =>
      rw [(units_of_finished step _).1]
      exact step
    | progressed after conflicting later =>
      obtain ⟨same, _, work⟩ := units_succ step budget
      rw [work] at left
      rw [same]
      exact ih (Nat.lt_of_succ_lt_succ left)

theorem afterUnits_rule
    {motive : List (B256 × B256) → Nat → FinalitySweep → Store → Prop}
    (step : ∀ edges work sweep store sweep' conflicting store',
      sweepStep sweep store = .progressed sweep' conflicting store' →
      motive edges work sweep store →
      motive (edges ++ followedEdge (.progressed sweep' conflicting store')) (work + 1) sweep' store')
    (budget : Nat) {edges : List (B256 × B256)} {work : Nat} (start : motive edges work sweep store) :
    motive (edges ++ sweepEdges budget sweep store) (work + sweepWork budget sweep store)
      (afterUnits budget sweep store).1 (afterUnits budget sweep store).2 := by
  induction budget generalizing edges work sweep store with
  | zero =>
    unfold sweepEdges
    rw [List.append_nil]
    exact start
  | succ budget ih =>
    cases unit : sweepStep sweep store with
    | finished =>
      obtain ⟨after, edges, work⟩ := units_of_finished unit (budget + 1)
      rw [after, edges, work, List.append_nil]
      exact start
    | progressed after conflicting later =>
      have onwards := ih (step _ _ _ _ _ _ _ unit start)
      obtain ⟨after, edges, work⟩ := units_succ unit budget
      rw [after, edges, work, ← List.append_assoc, Nat.add_comm (sweepWork _ _ _), ← Nat.add_assoc]
      exact onwards

theorem setSweep_none (idle : store.finalitySweep = none) : store.setSweep none = store := by
  cases store
  cases idle
  rfl

theorem processBudgets_none (idle : store.finalitySweep = none) (budgets : List Nat) :
    (store.processBudgets budgets).edges = [] ∧ (store.processBudgets budgets).work = 0 := by
  induction budgets with
  | nil => exact ⟨rfl, rfl⟩
  | cons budget rest ih =>
    unfold processBudgets processFinalityBudget budgetEdges
    rw [idle]
    exact ⟨ih.1, by simpa using ih.2⟩

theorem processBudgets_units (budgets : List Nat) (swept : store.finalitySweep = some sweep) :
    ∃ budget, (store.processBudgets budgets).edges = sweepEdges budget sweep (store.setSweep none) ∧
      (store.processBudgets budgets).work = sweepWork budget sweep (store.setSweep none) := by
  induction budgets generalizing sweep store with
  | nil => exact ⟨0, rfl, rfl⟩
  | cons budget rest ih =>
    obtain ⟨work, suspended, left⟩ := sweepLoop_eq budget 0 [] sweep (store.setSweep none)
    have idle : (afterUnits budget sweep (store.setSweep none)).2.finalitySweep = none := by
      rw [← left, finalitySweep_sweepLoop]
      rfl
    unfold processBudgets processFinalityBudget budgetEdges
    rw [swept]
    dsimp only
    rw [work, suspended, left, Nat.zero_add]
    split
    · obtain ⟨edges, rest⟩ := processBudgets_none idle rest
      exact ⟨budget, by rw [edges, List.append_nil], by rw [rest, Nat.add_zero]⟩
    · have resumed : ((afterUnits budget sweep (store.setSweep none)).2.setSweep
          (some (afterUnits budget sweep (store.setSweep none)).1)).finalitySweep = _ := rfl
      obtain ⟨more, edges, rest⟩ := ih resumed
      have base : ((afterUnits budget sweep (store.setSweep none)).2.setSweep
          (some (afterUnits budget sweep (store.setSweep none)).1)).setSweep none =
          (afterUnits budget sweep (store.setSweep none)).2 := setSweep_none idle
      rw [base] at edges rest
      obtain ⟨_, edges_add, work_add⟩ := units_add budget more sweep (store.setSweep none)
      exact ⟨budget + more, by rw [edges, edges_add], by rw [rest, work_add]⟩

end

structure Dangles (sweep : FinalitySweep) (store : Store) (base : B256) : Prop where
  unjudged : sweep.classifications.get base = none
  missing : ∃ block, store.blockMeta base = some block ∧ sweep.checkpoint.number < block.number ∧
    store.record block.parentHash = none ∧ block.parentHash ∉ store.tombstones

structure Undisturbed (sweep : FinalitySweep) (store : Store) (base : B256)
    (sweep' : FinalitySweep) (store' : Store) : Prop extends Recedes sweep store sweep' store' where
  same : ∀ hash, LeadsTo sweep store hash base →
    sweep'.classifications.get hash = sweep.classifications.get hash ∧
      store'.record hash = store.record hash
  buried : ∀ hash ∈ store'.tombstones, hash ∈ store.tombstones ∨ (store.record hash).isSome

section

variable {sweep sweep' left : FinalitySweep} {store store' : Store} {walk onward : FinalityWalk}
  {base hash root child parent : B256} {edges : List (B256 × B256)}
  {classification : FinalityClassification}

theorem blockMeta_eq_none (missing : store.record hash = none) : store.blockMeta hash = none := by
  rw [blockMeta_eq, missing]
  rfl

theorem Dangles.not_leads (dangles : Dangles sweep store base) : ¬ Leads sweep store base parent := by
  intro leads
  obtain ⟨block, stored, _, missing, _⟩ := dangles.missing
  obtain ⟨_, again, found, same, _, retained, _⟩ := leads_iff.mp leads
  cases stored.symm.trans same
  cases (blockMeta_eq_none missing).symm.trans retained

theorem Dangles.unknown (dangles : Dangles sweep store base) (standing : walk.current = base)
    (settled : classifyStep sweep walk store = .inl classification) : classification = .unknown := by
  obtain ⟨block, stored, higher, missing, unburied⟩ := dangles.missing
  unfold classifyStep at settled
  rw [standing, dangles.unjudged] at settled
  unfold advanceFinalityWalk at settled
  rw [standing, stored] at settled
  dsimp only at settled
  rw [if_neg (by omega), if_neg (by omega), blockMeta_eq_none missing] at settled
  dsimp only at settled
  rw [if_neg unburied] at settled
  exact (Sum.inl.inj settled).symm

theorem Dangles.settled (dangles : Dangles left store base) (leads : LeadsTo left store hash base)
    (onWay : LeadsTo left store hash walk.current)
    (settled : classifyStep left walk store = .inl classification) : classification = .unknown := by
  have standing : LeadsTo left store walk.current base := by
    rcases Relation.ReflTransGen.total_of_right_unique leads_unique leads onWay with beyond | before
    · rcases Relation.ReflTransGen.cases_head beyond with same | ⟨next, first, _⟩
      · rw [same]
        exact .refl
      · exact absurd first dangles.not_leads
    · exact before
  rcases Relation.ReflTransGen.cases_head standing with same | ⟨next, first, _⟩
  · exact dangles.unknown same settled
  · cases first.moves.symm.trans settled

theorem OnWay.leadsTo (onWay : OnWay edges sweep store walk)
    (member : hash = walk.root ∨ hash ∈ walk.current :: walk.path) :
    LeadsTo sweep store hash walk.current := by
  rcases member with rfl | member
  · exact onWay.root
  · rcases List.mem_cons.mp member with rfl | path
    · exact .refl
    · exact (onWay.path hash path).to_reflTransGen

theorem Undisturbed.refl (base : B256) (checkpoint : sweep'.checkpoint = sweep.checkpoint)
    (classifications : sweep'.classifications = sweep.classifications) :
    Undisturbed sweep store base sweep' store :=
  ⟨⟨checkpoint, fun _ => by rw [classifications]; exact id, fun _ _ => id, rfl⟩,
    fun _ _ => ⟨by rw [classifications], rfl⟩, fun _ => .inl⟩

theorem Dangles.undisturbed (dangles : Dangles left store base) (onWay : OnWay edges left store walk)
    (settled : classifyStep left walk store = .inl classification)
    (recedes : Recedes left store (memoize walk classification left) store')
    (others : ∀ hash, classification ≠ .unknown → hash ≠ walk.root →
      store'.record hash = store.record hash)
    (unchanged : classification = .unknown → store' = store)
    (buried : ∀ hash ∈ store'.tombstones, hash ∈ store.tombstones ∨ (store.record hash).isSome) :
    Undisturbed left store base (memoize walk classification left) store' := by
  refine ⟨recedes, fun hash leads => ?_, buried⟩
  by_cases unknown : classification = .unknown
  · rw [unchanged unknown, memoize, if_pos unknown]
    exact ⟨rfl, rfl⟩
  · have elsewhere (member : hash = walk.root ∨ hash ∈ walk.current :: walk.path) : False :=
      unknown (dangles.settled leads (onWay.leadsTo member) settled)
    rw [get_memoize walk unknown, if_neg fun member => elsewhere (.inr member)]
    exact ⟨rfl, others hash unknown fun same => elsewhere (.inl same)⟩

theorem Undisturbed.leads (undisturbed : Undisturbed sweep store base sweep' store')
    (keyed : store.HashKeyed) (leads : Leads sweep store child parent)
    (onwards : LeadsTo sweep store parent base) : Leads sweep' store' child parent := by
  obtain ⟨first, below⟩ := undisturbed.same child (.head leads onwards)
  obtain ⟨_, above⟩ := undisturbed.same parent onwards
  obtain ⟨unjudged, block, found, stored, higher, retained, consecutive, rfl⟩ := leads_iff.mp leads
  have named := keyed _ _ retained
  rw [named] at above
  refine leads_iff.mpr ⟨first.trans unjudged, block, found, ?_, ?_, ?_, consecutive, rfl⟩
  · rw [blockMeta_eq, below, ← blockMeta_eq]
    exact stored
  · rw [undisturbed.checkpoint]
    exact higher
  · rw [blockMeta_eq, above, ← blockMeta_eq]
    exact retained

theorem Undisturbed.leadsTo (undisturbed : Undisturbed sweep store base sweep' store')
    (keyed : store.HashKeyed) (leads : LeadsTo sweep store child parent)
    (onwards : LeadsTo sweep store parent base) : LeadsTo sweep' store' child parent := by
  induction leads using Relation.ReflTransGen.head_induction_on with
  | refl => exact .refl
  | head first rest ih => exact .head (undisturbed.leads keyed first (rest.trans onwards)) ih

theorem Undisturbed.dangles (undisturbed : Undisturbed sweep store base sweep' store')
    (dangles : Dangles sweep store base) : Dangles sweep' store' base := by
  obtain ⟨verdict, record⟩ := undisturbed.same base .refl
  obtain ⟨block, stored, higher, missing, unburied⟩ := dangles.missing
  refine ⟨verdict.trans dangles.unjudged, block, ?_, ?_, ?_, ?_⟩
  · rw [blockMeta_eq, record, ← blockMeta_eq]
    exact stored
  · rw [undisturbed.checkpoint]
    exact higher
  · cases found : store'.record block.parentHash with
    | none => rfl
    | some record => cases missing.symm.trans (undisturbed.kept _ _ found)
  · intro member
    rcases undisturbed.buried _ member with old | held
    · exact unburied old
    · rw [missing] at held
      cases held

structure Awaits (hash base : B256) (sweep : FinalitySweep) (store : Store) : Prop where
  dangles : Dangles sweep store base
  edge : ∃ next, Leads sweep store hash next ∧ LeadsTo sweep store next base
  coming : (∃ incarnation root, (incarnation, root) ∈ sweep.pending ∧
      store.currentIncarnation root = some incarnation ∧ root ≠ store.canonicalHash ∧
      LeadsTo sweep store root hash) ∨
    ∃ walk ∈ sweep.active, LeadsTo sweep store walk.current hash

theorem Awaits.leadsTo (awaits : Awaits hash base sweep store) : LeadsTo sweep store hash base := by
  obtain ⟨next, first, rest⟩ := awaits.edge
  exact .head first rest

theorem Awaits.taken (awaits : Awaits hash base sweep store) (taken : Taken sweep store walk left) :
    (∃ incarnation root, (incarnation, root) ∈ left.pending ∧
      store.currentIncarnation root = some incarnation ∧ root ≠ store.canonicalHash ∧
      LeadsTo left store root hash) ∨ LeadsTo left store walk.current hash := by
  rcases awaits.coming with ⟨incarnation, root, pending, live, foreign, leads⟩ | ⟨other, active, leads⟩
  · cases taken with
    | resumed => exact .inl ⟨incarnation, root, pending, live, foreign, leads⟩
    | popped fresh queued =>
      rw [queued] at pending
      rcases List.mem_cons.mp pending with first | later
      · cases first
        exact .inr leads
      · exact .inl ⟨incarnation, root, later, live, foreign, leads⟩
  · cases taken with
    | resumed same =>
      rw [same] at active
      cases active
      exact .inr leads
    | popped fresh =>
      rw [fresh] at active
      cases active

theorem Awaits.undisturbed (awaits : Awaits hash base sweep store) (keyed : store.HashKeyed)
    (undisturbed : Undisturbed sweep store base sweep' store')
    (coming : ∃ incarnation root, (incarnation, root) ∈ sweep'.pending ∧
      store.currentIncarnation root = some incarnation ∧ root ≠ store.canonicalHash ∧
      LeadsTo sweep store root hash) : Awaits hash base sweep' store' := by
  obtain ⟨next, first, rest⟩ := awaits.edge
  obtain ⟨incarnation, root, pending, live, foreign, leads⟩ := coming
  refine ⟨undisturbed.dangles awaits.dangles, ⟨next, undisturbed.leads keyed first rest,
    undisturbed.leadsTo keyed rest .refl⟩, .inl ⟨incarnation, root, pending, ?_, ?_,
    undisturbed.leadsTo keyed leads awaits.leadsTo⟩⟩
  · rw [currentIncarnation_eq, (undisturbed.same root (leads.trans awaits.leadsTo)).2,
      ← currentIncarnation_eq]
    exact live
  · rw [undisturbed.canonical]
    exact foreign

theorem Taken.undisturbed (taken : Taken sweep store walk left) (base : B256) :
    Undisturbed sweep store base left store := by
  cases taken with
  | resumed => exact .refl base rfl rfl
  | popped => exact .refl base rfl rfl

theorem Leads.standing {next : B256} (edge : Leads left store hash next)
    (standing : LeadsTo left store walk.current hash) :
    ∃ onwards, Leads left store walk.current onwards ∧
      (walk.current = hash ∨ LeadsTo left store onwards hash) := by
  rcases Relation.ReflTransGen.cases_head standing with same | ⟨onwards, first, rest⟩
  · rw [← same] at edge
    exact ⟨next, edge, .inl same⟩
  · exact ⟨onwards, first, .inr rest⟩

variable {origin : Store} {queued work : Nat} {conflicting : List B256}

theorem Awaits.settled (awaits : Awaits hash base sweep store) (keyed : store.HashKeyed)
    (taken : Taken sweep store walk left)
    (settled : classifyStep left walk store = .inl classification)
    (undisturbed : Undisturbed left store base (memoize walk classification left) store') :
    Awaits hash base (memoize walk classification left) store' := by
  have same := taken.undisturbed base
  obtain ⟨next, first, rest⟩ := awaits.edge
  have edge := same.leads keyed first rest
  rcases awaits.taken taken with coming | standing
  · have waits : Awaits hash base left store :=
      ⟨same.dangles awaits.dangles, ⟨next, edge, same.leadsTo keyed rest .refl⟩, .inl coming⟩
    refine waits.undisturbed keyed undisturbed ?_
    rw [(memoize_fields _ _ _).2]
    exact coming
  · obtain ⟨onwards, leads, _⟩ := edge.standing standing
    cases leads.moves.symm.trans settled

theorem Awaits.step (awaits : Awaits hash base sweep store)
    (treads : Treads origin queued edges work sweep store) (keyed : store.HashKeyed)
    (step : sweepStep sweep store = .progressed sweep' conflicting store') :
    hash ∈ (followedEdge (.progressed sweep' conflicting store')).map Prod.fst ∨
      Awaits hash base sweep' store' := by
  cases sweepStep_cases step with
  | dropped incarnation root rest fresh first ignored =>
    right
    have same : Undisturbed sweep store base { sweep with pending := rest } store :=
      .refl base rfl rfl
    rcases awaits.coming with ⟨again, other, pending, live, foreign, leads⟩ | ⟨walk, active, _⟩
    · refine awaits.undisturbed keyed same ⟨again, other, ?_, live, foreign, leads⟩
      rw [first] at pending
      rcases List.mem_cons.mp pending with front | later
      · -- The dropped root was stale or canonical, and the awaited one is neither.
        cases front
        exact absurd ignored (not_or.mpr ⟨not_not.mpr live, foreign⟩)
      · exact later
    · rw [fresh] at active
      cases active
  | moved walk onward left taken moved =>
    have same := taken.undisturbed base
    obtain ⟨next, first, rest⟩ := awaits.edge
    have edge := same.leads keyed first rest
    have dangles := same.dangles awaits.dangles
    have moving : Dangles { left with active := some onward } store base :=
      ⟨dangles.unjudged, dangles.missing⟩
    rcases awaits.taken taken with coming | standing
    · exact .inr ⟨moving, ⟨next, edge, same.leadsTo keyed rest .refl⟩, .inl coming⟩
    · -- The walk stands on the awaited way: it either follows the edge now or comes closer.
      obtain ⟨onwards, leads, reached⟩ := edge.standing standing
      rcases reached with here | before
      · left
        rw [followedEdge_moved moved, ← here]
        exact List.mem_cons_self
      · right
        cases leads.moves.symm.trans moved
        exact ⟨moving, ⟨next, edge, same.leadsTo keyed rest .refl⟩, .inr ⟨_, rfl, before⟩⟩
  | kept walk left classification taken settled harmless =>
    right
    have dangles := (taken.undisturbed base).dangles awaits.dangles
    refine awaits.settled keyed taken settled (dangles.undisturbed (treads.taken taken) settled
      (recedes_memoize classification (fun _ _ live => live) rfl) (fun _ _ _ => rfl)
      (fun _ => rfl) fun _ => .inl)
  | removed walk left taken settled live =>
    right
    have dangles := (taken.undisturbed base).dangles awaits.dangles
    refine awaits.settled keyed taken settled (dangles.undisturbed (treads.taken taken) settled
      (recedes_memoize .conflict (kept_removeOne walk.root) (canonicalHash_removeOne walk.root))
      (fun other _ foreign => ?_) nofun fun other member => ?_)
    · rw [record_removeOne, without, if_neg foreign]
    · -- The one new tombstone is the root, which had a record until now.
      rcases mem_tombstones_removeOne member with rfl | old
      · rw [currentIncarnation_eq, Option.map_eq_some_iff] at live
        obtain ⟨record, held, _⟩ := live
        rw [held]
        exact .inr rfl
      · exact .inl old

theorem Awaits.unfinished (awaits : Awaits hash base sweep store) :
    sweepStep sweep store ≠ .finished := by
  intro finished
  unfold sweepStep at finished
  split at finished
  · unfold continueWalk settleWalk at finished
    split at finished
    · split at finished <;> cases finished
    · cases finished
  · next fresh =>
    split at finished
    · next empty =>
      rcases awaits.coming with ⟨_, _, pending, _⟩ | ⟨_, active, _⟩
      · rw [empty] at pending
        cases pending
      · rw [fresh] at active
        cases active
    · dsimp only at finished
      unfold continueWalk settleWalk at finished
      split at finished
      · cases finished
      · split at finished
        · split at finished <;> cases finished
        · cases finished

theorem Awaits.follows {budget : Nat} (awaits : Awaits hash base sweep store)
    (treads : Treads origin queued edges work sweep store) (keyed : origin.HashKeyed)
    (finished : sweepStep (afterUnits budget sweep store).1 (afterUnits budget sweep store).2 =
      .finished) : hash ∈ (sweepEdges budget sweep store).map Prod.fst := by
  induction budget generalizing sweep store edges work with
  | zero => exact absurd finished awaits.unfinished
  | succ budget ih =>
    have same : store.HashKeyed := fun hash block stored =>
      keyed hash block (blockMeta_of_kept treads.kept stored)
    cases step : sweepStep sweep store with
    | finished => exact absurd step awaits.unfinished
    | progressed after conflicting later =>
      obtain ⟨onwards, edges, _⟩ := units_succ step budget
      rw [onwards] at finished
      rw [edges, List.map_append, List.mem_append]
      exact (awaits.step treads same step).imp_right fun waits =>
        ih waits (treads.step keyed step) finished

end

/-- No edge is followed twice, however the work is cut into calls. -/
def SweepsLinearly (checkpoint : CheckpointMeta) (store : Store) : Prop :=
  ∀ budgets, let sweep := (store.beginFinalitySweep checkpoint).processBudgets budgets
    sweep.edges.Nodup ∧
      (∀ edge ∈ sweep.edges, ∃ child parent, store.blockMeta edge.1 = some child ∧
        child.parentHash = edge.2 ∧ store.blockMeta edge.2 = some parent) ∧
      sweep.work ≤ 2 * (store.metadataOrder.length + store.metadataLen)

section

variable {chain : B256 → BlockMeta} {loose : B256 → Prop} {store : Store}

theorem WellFormed.hashKeyed (formed : WellFormed chain loose store) : store.HashKeyed := by
  intro hash block stored
  rw [blockMeta_eq, Option.map_eq_some_iff] at stored
  obtain ⟨record, live, rfl⟩ := stored
  exact (formed.known hash record live).2

theorem climbs_fresh (checkpoint : CheckpointMeta) (store : Store) :
    Climbs store store.metadataOrder.length [] 0 (store.freshSweep checkpoint)
      (store.setSweep none) := by
  refine ⟨⟨fun _ _ live => live, fun _ => ?_, by simp, by simp [freshSweep], by simp [freshSweep]⟩,
    List.nodup_nil, by simp⟩
  simp [freshSweep]

theorem Treads.length_edges {origin : Store} {queued work : Nat} {edges : List (B256 × B256)}
    {sweep : FinalitySweep} (treads : Treads origin queued edges work sweep store)
    (once : (edges.map Prod.fst).Nodup) : edges.length ≤ origin.metadataLen := by
  have children : edges.map Prod.fst ⊆ origin.liveKeys := by
    intro hash member
    obtain ⟨edge, listed, rfl⟩ := List.mem_map.mp member
    obtain ⟨child, _, stored, _⟩ := treads.links edge listed
    exact mem_liveKeys_of_blockMeta stored
  rw [← length_liveKeys, ← List.length_map Prod.fst]
  exact (List.Nodup.subperm once children).length_le

theorem WellFormed.sweepsLinearly (formed : WellFormed chain loose store)
    {checkpoint : CheckpointMeta} (conclusive : store.Conclusive checkpoint) :
    store.SweepsLinearly checkpoint := by
  intro budgets
  obtain ⟨budget, edges, work⟩ := processBudgets_units budgets
    (rfl : (store.beginFinalitySweep checkpoint).finalitySweep = some (store.freshSweep checkpoint))
  have climbs := (afterUnits_rule (motive := fun edges work sweep after =>
      Climbs store store.metadataOrder.length edges work sweep after ∧
        ∀ budget, Unshared (afterUnits budget sweep after).1 (afterUnits budget sweep after).2)
    (fun _ _ _ _ _ _ _ step holds => ⟨holds.1.step formed.hashKeyed (holds.2 0) step, fun budget => by
      rw [← (units_succ step budget).1]
      exact holds.2 (budget + 1)⟩)
    budget ⟨climbs_fresh checkpoint store, conclusive⟩).1
  rw [List.nil_append, Nat.zero_add] at climbs
  have few := climbs.length_edges climbs.once
  have counted := climbs.counted
  dsimp only
  rw [edges, work]
  refine ⟨climbs.once.of_map, climbs.links, ?_⟩
  change sweepWork budget (store.freshSweep checkpoint) (store.setSweep none) ≤ _
  change (sweepEdges budget (store.freshSweep checkpoint) (store.setSweep none)).length ≤ _ at few
  omega

theorem processBudgets_single (checkpoint : CheckpointMeta) (budget : Nat) (store : Store) :
    ((store.beginFinalitySweep checkpoint).processBudgets [budget]).edges =
        sweepEdges budget (store.freshSweep checkpoint) (store.setSweep none) ∧
      ((store.beginFinalitySweep checkpoint).processBudgets [budget]).work =
        sweepWork budget (store.freshSweep checkpoint) (store.setSweep none) := by
  have work := (sweepLoop_eq budget 0 [] (store.freshSweep checkpoint) (store.setSweep none)).1
  rw [Nat.zero_add] at work
  exact ⟨List.append_nil _, work⟩

theorem Treads.dangles {sweep left : FinalitySweep} {origin : Store} {walk : FinalityWalk}
    {queued work : Nat} {edges : List (B256 × B256)} (formed : WellFormed chain loose origin)
    (consecutive : ∀ hash, 0 < (chain hash).number →
      (chain (chain hash).parentHash).number + 1 = (chain hash).number)
    (treads : Treads origin queued edges work sweep store) (taken : Taken sweep store walk left)
    (unknown : classifyStep left walk store = .inl .unknown) : Dangles left store walk.current := by
  have decided (hash : B256) : left.classifications.get hash ≠ some .unknown := by
    cases taken with
    | resumed | popped => exact treads.decided hash
  have known (hash : B256) (record : Record) (live : store.record hash = some record) :
      record.block = chain hash := (formed.known hash record (treads.kept hash record live)).1
  obtain ⟨block, standing⟩ := (treads.taken taken).standing
  obtain ⟨unjudged, higher, skipped, unburied⟩ := classifyStep_unknown unknown (decided _) standing
  have missing : store.record block.parentHash = none := by
    cases found : store.record block.parentHash with
    | none => rfl
    | some parent =>
      rw [blockMeta_eq, Option.map_eq_some_iff] at standing
      obtain ⟨record, live, rfl⟩ := standing
      rw [known _ _ live] at higher found skipped
      refine absurd ?_ (skipped parent.block (by rw [blockMeta_eq, found]; rfl))
      rw [known _ _ found]
      exact consecutive _ (by omega)
  exact ⟨unjudged, block, standing, higher, missing, unburied (blockMeta_eq_none missing)⟩

theorem WellFormed.conclusive (formed : WellFormed chain loose store)
    (consecutive : ∀ hash, 0 < (chain hash).number →
      (chain (chain hash).parentHash).number + 1 = (chain hash).number)
    {checkpoint : CheckpointMeta} (linear : store.SweepsLinearly checkpoint) :
    store.Conclusive checkpoint := by
  intro budget walk left taken unknown hash member incarnation root pending live foreign leads
  have treads := afterUnits_rule (motive := Treads store store.metadataOrder.length)
    (fun _ _ _ _ _ _ _ step holds => holds.step formed.hashKeyed step) budget
    (climbs_fresh checkpoint store).toTreads
  rw [List.nil_append, Nat.zero_add] at treads
  have onWay := treads.taken taken
  have dangles := treads.dangles formed consecutive taken unknown
  have edge := Relation.TransGen.head'_iff.mp (onWay.path hash member)
  -- The walk has been suspended, so the sweep differs from what is left only in it.
  have awaits : Awaits hash walk.current
      (afterUnits budget (store.freshSweep checkpoint) (store.setSweep none)).1
      (afterUnits budget (store.freshSweep checkpoint) (store.setSweep none)).2 := by
    cases taken with
    | resumed active =>
      exact ⟨⟨dangles.unjudged, dangles.missing⟩, edge,
        .inl ⟨incarnation, root, pending, live, foreign, leads⟩⟩
    | popped => cases member
  obtain ⟨once, links, bounded⟩ := linear
    [budget + (2 * (store.metadataOrder.length + store.metadataLen) + 1)]
  rw [(processBudgets_single checkpoint _ store).2] at bounded
  rw [(processBudgets_single checkpoint _ store).1] at once links
  have finished := finished_of_sweepWork (Nat.lt_of_le_of_lt bounded (by omega))
  obtain ⟨same, edges, _⟩ := units_add budget
    (2 * (store.metadataOrder.length + store.metadataLen) + 1) (store.freshSweep checkpoint)
    (store.setSweep none)
  rw [same] at finished
  rw [edges] at once links
  obtain ⟨first, earlier, isHash⟩ := List.mem_map.mp (onWay.followed hash member)
  obtain ⟨second, later, again⟩ := List.mem_map.mp (awaits.follows treads formed.hashKeyed finished)
  obtain ⟨child, _, stored, parent, _⟩ := links first (List.mem_append_left _ earlier)
  obtain ⟨other, _, held, sameParent, _⟩ := links second (List.mem_append_right _ later)
  rw [isHash] at stored
  rw [again, stored] at held
  cases held
  have repeated : first = second := Prod.ext (isHash.trans again.symm) (parent.symm.trans sameParent)
  exact (List.disjoint_of_nodup_append once) earlier (repeated ▸ later)

def settles (sweep : FinalitySweep) (store : Store) : Bool :=
  match sweep.active with
  | none => true
  | some walk =>
    match classifyStep { sweep with active := none } walk store with
    | .inl .unknown => walk.path.isEmpty || sweep.pending.isEmpty
    | _ => true

def settlesAll : Nat → FinalitySweep → Store → Bool
  | 0, _, _ => false
  | budget + 1, sweep, store =>
    settles sweep store &&
      match sweepStep sweep store with
      | .finished => true
      | .progressed after _ store => settlesAll budget after store

theorem unshared_of_settles {sweep : FinalitySweep} (settled : settles sweep store = true) :
    Unshared sweep store := by
  intro walk left taken unknown hash member incarnation root pending
  cases taken with
  | resumed active =>
    unfold settles at settled
    rw [active] at settled
    dsimp only at settled
    rw [unknown] at settled
    simp only [Bool.or_eq_true, List.isEmpty_iff] at settled
    rcases settled with path | empty
    · rw [path] at member
      cases member
    · change (incarnation, root) ∈ sweep.pending at pending
      rw [empty] at pending
      cases pending
  | popped => cases member

theorem conclusive_of_settlesAll {checkpoint : CheckpointMeta} (units : Nat)
    (settled : settlesAll units (store.freshSweep checkpoint) (store.setSweep none) = true) :
    store.Conclusive checkpoint := by
  unfold Conclusive
  generalize store.freshSweep checkpoint = sweep at settled ⊢
  generalize store.setSweep none = base at settled ⊢
  intro budget
  induction units generalizing budget sweep base with
  | zero => cases settled
  | succ units ih =>
    unfold settlesAll at settled
    obtain ⟨first, rest⟩ := Bool.and_eq_true_iff.mp settled
    cases budget with
    | zero => exact unshared_of_settles first
    | succ budget =>
      cases step : sweepStep sweep base with
      | finished =>
        rw [(units_of_finished step _).1]
        exact unshared_of_settles first
      | progressed after conflicting later =>
        rw [step] at rest
        rw [(units_succ step budget).1]
        exact ih after later rest budget

end

end Statefeed.Store
