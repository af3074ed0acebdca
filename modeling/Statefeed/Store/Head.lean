import Mathlib.Logic.Relation
import Statefeed.Store.Placement

set_option autoImplicit false

namespace Statefeed.Store

variable {store : Store} {base : Set B256} {retired : List B256}

/-- The record of `hash` is fit to be the canonical one. -/
def Seated (hash : B256) (store : Store) : Prop :=
  ∃ entry, store.candidates.get hash = some entry ∧ entry.projection.isSome = true ∧
    entry.stage = .validated ∧ entry.tracked = true

theorem Seated.of_get {before after : Store} {hash : B256} (seated : Seated hash before)
    (same : after.candidates.get hash = before.candidates.get hash) : Seated hash after := by
  obtain ⟨entry, stored, rest⟩ := seated
  exact ⟨entry, same.trans stored, rest⟩

theorem Seated.modify {hash other : B256} {update : CandidateEntry → CandidateEntry}
    {after : Store} (seated : Seated hash store)
    (modified : after.candidates = store.candidates.modify other update)
    (kept : ∀ entry, entry.stage = .validated → (update entry).projection = entry.projection ∧
      (update entry).stage = .validated ∧ (update entry).tracked = entry.tracked) :
    Seated hash after := by
  obtain ⟨entry, stored, projected, validated, tracked⟩ := seated
  by_cases same : hash = other
  · subst same
    obtain ⟨sameProjection, sameStage, sameTracked⟩ := kept entry validated
    refine ⟨update entry, ?_, ?_, sameStage, sameTracked.trans tracked⟩
    · rw [modified, Table.get_modify, if_pos rfl, stored]
      rfl
    · rw [sameProjection]
      exact projected
  · refine ⟨entry, ?_, projected, validated, tracked⟩
    rw [modified, Table.get_modify, if_neg same]
    exact stored

theorem seated_resetCandidates (now : Instant) (projection : Projection) (view : ForkchoiceMeta)
    (store : Store) :
    Seated projection.block.hash (store.resetCandidates now projection view) := by
  simp [Seated, resetCandidates]

theorem seated_newConfigured (now : Instant) (initial : Projection) (view : ForkchoiceMeta)
    (policy : CandidatePolicy) :
    Seated initial.block.hash (newConfigured now initial view policy) := by
  simp [Seated, newConfigured]

structure Spares (canonical : B256) (base : Set B256) (retired : List B256) (store : Store) :
    Prop where
  current : store.canonicalHash = canonical
  seated : Seated canonical store
  unnamed : canonical ∉ retired
  unburied : canonical ∈ store.tombstones → canonical ∈ base

theorem mem_trimTombstones {hash : B256} (fuel : Nat) (store : Store)
    (member : hash ∈ (trimTombstones fuel store).tombstones) : hash ∈ store.tombstones := by
  induction fuel generalizing store with
  | zero => exact member
  | succ fuel ih =>
    unfold trimTombstones at member
    split at member
    · split at member
      · exact Finset.mem_of_mem_erase (ih _ member)
      · exact member
    · exact member

theorem mem_tombstones_removeOne {hash other : B256} {terminal : Bool}
    (member : other ∈ (store.removeOne hash terminal).2.tombstones) :
    other = hash ∨ other ∈ store.tombstones := by
  have kept := (tombs_removeRecord hash store).1
  cases terminal with
  | false =>
    change other ∈ (store.removeRecord hash).tombstones at member
    rw [kept] at member
    exact .inr member
  | true =>
    change other ∈ ((store.removeRecord hash).insertTombstone hash).tombstones at member
    unfold insertTombstone at member
    have inserted := mem_trimTombstones _ _ member
    split at inserted
    · rw [kept] at inserted
      exact .inr inserted
    · rw [Finset.mem_insert, kept] at inserted
      exact inserted

theorem Spares.removeOne {canonical hash : B256} (spares : Spares canonical base retired store)
    (different : hash ≠ canonical) (terminal : Bool) :
    Spares canonical base (retired ++ if store.isTracked hash then [hash] else [])
      (store.removeOne hash terminal).2 := by
  constructor
  · exact (canonicalHash_of_settings (settings_removeOne hash terminal store)).trans spares.current
  · apply spares.seated.of_get
    rw [candidates_removeOne, Table.get_erase, if_neg different.symm]
  · rw [List.mem_append, not_or]
    refine ⟨spares.unnamed, ?_⟩
    split
    · rw [List.mem_singleton]
      exact different.symm
    · exact List.not_mem_nil
  · intro member
    rcases mem_tombstones_removeOne member with same | member
    · exact absurd same.symm different
    · exact spares.unburied member

theorem Spares.removeEach {canonical : B256} {hashes : List B256}
    (spares : Spares canonical base retired store) (foreign : canonical ∉ hashes) :
    Spares canonical base (store.removeEach hashes retired).1 (store.removeEach hashes retired).2 :=
  removeEach_rule (motive := fun expired s => Spares canonical base expired s)
    (fun _ member _ _ holds => holds.removeOne (fun same => foreign (same ▸ member)) false)
    retired store spares

theorem canonicalHash_not_mem_dueRecords (now : Instant) (rank : B256 → Nat) (budget : Nat)
    (store : Store) : store.canonicalHash ∉ store.dueRecords now rank budget := by
  unfold dueRecords
  dsimp only
  rw [List.mem_append, not_or]
  constructor
  · intro member
    have kept := List.mem_of_mem_take member
    simp at kept
  · intro member
    have kept := List.mem_of_mem_take member
    simp at kept

theorem Spares.rotateOrEvict {canonical hash : B256} {incarnation : Nat}
    (spares : Spares canonical base retired store) :
    Spares canonical base (retired ++ (store.rotateOrEvict incarnation hash).1)
      (store.rotateOrEvict incarnation hash).2 := by
  unfold Store.rotateOrEvict
  split
  · rw [List.append_nil]
    exact ⟨spares.current, spares.seated, spares.unnamed, spares.unburied⟩
  · next foreign =>
    rw [spares.current] at foreign
    refine ⟨spares.current, spares.seated.of_get ?_, ?_, spares.unburied⟩
    · change (store.candidates.modify hash _).get canonical = _
      rw [Table.get_modify, if_neg (Ne.symm foreign)]
    · rw [List.mem_append, not_or]
      refine ⟨spares.unnamed, ?_⟩
      split
      · rw [List.mem_singleton]
        exact Ne.symm foreign
      · exact List.not_mem_nil

theorem Spares.trimProjectionCache {canonical inserted : B256}
    (spares : Spares canonical base [] store) :
    (∀ evicted after, Store.trimProjectionCache inserted store = (.ok evicted, after) →
      Spares canonical base evicted after) ∧
      ∀ failure after, Store.trimProjectionCache inserted store = (.error failure, after) →
        Spares canonical base [] after := by
  have kept := trimProjectionLoop_rule
    (motive := fun retired s => Spares canonical base retired s) inserted
    (fun _ _ _ _ _ _ _ holds => ⟨holds.current, holds.seated, holds.unnamed, holds.unburied⟩)
    (fun _ s incarnation hash rest _ _ _ holds => ?_) (store.projectionOrder.length * 2 + 3) 0 []
    store spares
  · constructor
    · intro evicted after trimmed
      have returned := kept.of_ok (congrArg Prod.fst trimmed)
      rw [show (trimProjectionLoop inserted _ 0 [] store).2 = after from
        congrArg Prod.snd trimmed] at returned
      exact returned.1
    · intro failure after trimmed
      obtain ⟨retired, failed⟩ := kept.of_error (congrArg Prod.fst trimmed)
      rw [show (trimProjectionLoop inserted _ 0 [] store).2 = after from
        congrArg Prod.snd trimmed] at failed
      exact ⟨failed.current, failed.seated, List.not_mem_nil, failed.unburied⟩
  · have popped : Spares canonical base _ (s.setProjectionOrder rest) :=
      ⟨holds.current, holds.seated, holds.unnamed, holds.unburied⟩
    exact popped.rotateOrEvict

theorem Spares.rotateOrRemove {canonical hash : B256} {incarnation : Nat}
    (spares : Spares canonical base retired store) :
    Spares canonical base (retired ++ (store.rotateOrRemove incarnation hash).1)
      (store.rotateOrRemove incarnation hash).2 := by
  unfold Store.rotateOrRemove
  split
  · rw [List.append_nil]
    exact ⟨spares.current, spares.seated, spares.unnamed, spares.unburied⟩
  · next foreign =>
    rw [spares.current] at foreign
    exact spares.removeOne foreign false

theorem Spares.trimMetadata {canonical : B256} {removed : List B256} {after : Store}
    (spares : Spares canonical base [] store)
    (trimmed : Store.trimMetadata store = (.ok removed, after)) :
    Spares canonical base removed after := by
  have kept := trimMetadataLoop_rule (motive := fun retired s => Spares canonical base retired s)
    (fun _ _ _ _ _ _ _ holds => ⟨holds.current, holds.seated, holds.unnamed, holds.unburied⟩)
    (fun _ s incarnation hash rest _ _ _ holds => ?_) (store.metadataOrder.length * 2 + 2) []
    store spares
  · have returned := kept.of_ok (congrArg Prod.fst trimmed)
    rw [show (trimMetadataLoop _ [] store).2 = after from congrArg Prod.snd trimmed] at returned
    exact returned.1
  · have popped : Spares canonical base _ (s.setMetadataOrder rest) :=
      ⟨holds.current, holds.seated, holds.unnamed, holds.unburied⟩
    exact popped.rotateOrRemove

section

variable (finalized : CheckpointMeta) (known : Table B256 FinalityClassification)
  (blocks : B256 → Option BlockMeta) (tombstones : Finset B256)

inductive Condemned : B256 → Prop
  | remembered {hash : B256} (conflict : known.get hash = some .conflict) : Condemned hash
  | replaced {hash : B256} {block : BlockMeta} (unknown : known.get hash = none)
      (stored : blocks hash = some block) (level : block.number = finalized.number)
      (other : block.hash ≠ finalized.hash) : Condemned hash
  | buried {hash : B256} {block : BlockMeta} (unknown : known.get hash = none)
      (stored : blocks hash = some block) (above : finalized.number < block.number)
      (missing : blocks block.parentHash = none) (dead : block.parentHash ∈ tombstones) :
      Condemned hash
  | inherited {hash : B256} {block parent : BlockMeta} (unknown : known.get hash = none)
      (stored : blocks hash = some block) (above : finalized.number < block.number)
      (found : blocks block.parentHash = some parent)
      (adjacent : parent.number + 1 = block.number) (condemned : Condemned parent.hash) :
      Condemned hash

end

abbrev CondemnedBy (sweep : FinalitySweep) (store : Store) (hash : B256) : Prop :=
  Condemned sweep.checkpoint sweep.classifications store.blockMeta store.tombstones hash

theorem classifyStep_cases {sweep : FinalitySweep} {walk : FinalityWalk}
    {outcome : FinalityClassification ⊕ FinalityWalk}
    (classified : classifyStep sweep walk store = outcome) :
    (outcome = .inl .conflict → CondemnedBy sweep store walk.current) ∧
      ∀ onward, outcome = .inr onward → onward.root = walk.root ∧
        onward.incarnation = walk.incarnation ∧
        (CondemnedBy sweep store onward.current → CondemnedBy sweep store walk.current) := by
  unfold classifyStep advanceFinalityWalk at classified
  cases unknown : sweep.classifications.get walk.current with
  | some classification =>
    rw [unknown] at classified
    subst classified
    refine ⟨?_, nofun⟩
    rintro ⟨rfl⟩
    exact .remembered unknown
  | none =>
    rw [unknown] at classified
    dsimp only at classified
    cases stored : store.blockMeta walk.current with
    | none =>
      rw [stored] at classified
      subst classified
      exact ⟨nofun, nofun⟩
    | some block =>
      rw [stored] at classified
      dsimp only at classified
      by_cases level : block.number = sweep.checkpoint.number
      · rw [if_pos level] at classified
        by_cases same : block.hash = sweep.checkpoint.hash
        · rw [if_pos same] at classified
          subst classified
          exact ⟨nofun, nofun⟩
        · exact ⟨fun _ => .replaced unknown stored level same, by subst classified; nofun⟩
      rw [if_neg level] at classified
      by_cases below : block.number < sweep.checkpoint.number
      · rw [if_pos below] at classified
        subst classified
        exact ⟨nofun, nofun⟩
      rw [if_neg below] at classified
      have above : sweep.checkpoint.number < block.number := by omega
      cases found : store.blockMeta block.parentHash with
      | none =>
        rw [found] at classified
        subst classified
        refine ⟨fun conflict => ?_, nofun⟩
        by_cases dead : block.parentHash ∈ store.tombstones
        · exact .buried unknown stored above found dead
        · simp [dead] at conflict
      | some parent =>
        rw [found] at classified
        dsimp only at classified
        by_cases adjacent : parent.number + 1 = block.number
        · rw [if_neg (not_not.mpr adjacent)] at classified
          subst classified
          refine ⟨nofun, ?_⟩
          rintro onward ⟨rfl⟩
          exact ⟨rfl, rfl, .inherited unknown stored above found adjacent⟩
        · rw [if_pos adjacent] at classified
          subst classified
          exact ⟨nofun, nofun⟩

theorem classifyStep_moved {sweep : FinalitySweep} {walk onward : FinalityWalk}
    (moved : classifyStep sweep walk store = .inr onward) :
    sweep.classifications.get walk.current = none ∧ ∃ block parent,
      store.blockMeta walk.current = some block ∧ sweep.checkpoint.number < block.number ∧
      store.blockMeta block.parentHash = some parent ∧ parent.number + 1 = block.number ∧
      onward = { walk with path := walk.path ++ [walk.current], current := parent.hash } := by
  unfold classifyStep at moved
  split at moved
  · cases moved
  · next unknown =>
    refine ⟨unknown, ?_⟩
    unfold advanceFinalityWalk at moved
    split at moved
    · cases moved
    · next block stored =>
      split at moved
      · cases moved
      · next other =>
        split at moved
        · cases moved
        · next above =>
          split at moved
          · cases moved
          · next parent found =>
            split at moved
            · cases moved
            · next consecutive =>
              cases moved
              exact ⟨block, parent, stored, by omega, found, not_not.mp consecutive, rfl⟩

def Acquits (canonical : B256) (sweep : FinalitySweep) (store : Store) : Prop :=
  ∀ walk, sweep.active = some walk → walk.root = canonical →
    store.currentIncarnation canonical = some walk.incarnation →
    ¬ CondemnedBy sweep store walk.current

theorem Taken.active_eq_none {sweep left : FinalitySweep} {walk : FinalityWalk}
    (taken : Taken sweep store walk left) : left.active = none := by
  cases taken with
  | resumed => rfl
  | popped fresh => exact fresh

theorem Taken.condemned {sweep left : FinalitySweep} {walk : FinalityWalk} {hash : B256}
    (taken : Taken sweep store walk left) (condemned : CondemnedBy left store hash) :
    CondemnedBy sweep store hash := by
  cases taken with
  | resumed => exact condemned
  | popped => exact condemned

theorem active_memoize (walk : FinalityWalk) (classification : FinalityClassification)
    (sweep : FinalitySweep) : (memoize walk classification sweep).active = sweep.active := by
  unfold memoize
  split <;> rfl

theorem get_memoize (walk : FinalityWalk) {classification : FinalityClassification}
    (verdict : classification ≠ .unknown) (sweep : FinalitySweep) (hash : B256) :
    (memoize walk classification sweep).classifications.get hash =
      if hash ∈ walk.current :: walk.path then some classification
      else sweep.classifications.get hash := by
  have folded : ∀ (hashes : List B256) (table : Table B256 FinalityClassification),
      (hashes.foldl (fun table hash => table.insert hash classification) table).get hash =
        if hash ∈ hashes then some classification else table.get hash := by
    intro hashes
    induction hashes with
    | nil => simp
    | cons first rest ih =>
      intro table
      rw [List.foldl_cons, ih, Table.get_insert]
      by_cases same : hash = first
      · simp [same]
      · simp [same]
  unfold memoize
  rw [if_neg verdict]
  exact folded _ _

theorem memoize_fields (walk : FinalityWalk) (verdict : FinalityClassification)
    (sweep : FinalitySweep) :
    (memoize walk verdict sweep).checkpoint = sweep.checkpoint ∧
      (memoize walk verdict sweep).pending = sweep.pending := by
  unfold memoize
  split
  · exact ⟨rfl, rfl⟩
  · exact ⟨rfl, rfl⟩

theorem finalitySweep_sweepLoop (budget work : Nat) (retired : List B256) (sweep : FinalitySweep)
    (store : Store) :
    (sweepLoop budget work retired sweep store).2.finalitySweep = store.finalitySweep := by
  apply sweepLoop_rule (motive := fun _ _ after => after.finalitySweep = store.finalitySweep)
  · intro _ _ before _ _ _ step holds
    cases sweepStep_cases step with
    | removed => rw [finalitySweep_removeOne, holds]
    | _ => exact holds
  · rfl

theorem acquits_idle {canonical : B256} {sweep : FinalitySweep} (idle : sweep.active = none) :
    Acquits canonical sweep store := by
  intro walk active
  rw [idle] at active
  cases active

theorem Spares.sweepStep {canonical : B256} {sweep sweep' : FinalitySweep}
    {conflicting : List B256} {store' : Store} (spares : Spares canonical base retired store)
    (acquits : Acquits canonical sweep store)
    (step : Store.sweepStep sweep store = .progressed sweep' conflicting store') :
    Spares canonical base (retired ++ conflicting) store' ∧ Acquits canonical sweep' store' := by
  cases sweepStep_cases step with
  | dropped incarnation hash rest fresh =>
    rw [List.append_nil]
    exact ⟨spares, acquits_idle fresh⟩
  | moved walk onward taken origin edge =>
    rw [List.append_nil]
    refine ⟨spares, ?_⟩
    obtain ⟨sameRoot, sameIncarnation, onwards⟩ := (classifyStep_cases edge).2 onward rfl
    rintro moved ⟨rfl⟩ root live condemned
    have earlier := origin.condemned (onwards condemned)
    rw [sameRoot] at root
    cases origin with
    | resumed active => exact acquits walk active root (sameIncarnation ▸ live) earlier
    | popped _ _ _ foreign => exact foreign (root.trans spares.current.symm)
  | kept walk taken classification origin =>
    rw [List.append_nil]
    exact ⟨spares, acquits_idle ((active_memoize _ _ _).trans origin.active_eq_none)⟩
  | removed walk taken origin settled live =>
    have foreign : walk.root ≠ canonical := by
      intro root
      have condemned := origin.condemned ((classifyStep_cases settled).1 rfl)
      cases origin with
      | resumed active => exact acquits walk active root (root ▸ live) condemned
      | popped _ _ _ foreign => exact foreign (root.trans spares.current.symm)
    exact ⟨spares.removeOne foreign true,
      acquits_idle ((active_memoize _ _ _).trans origin.active_eq_none)⟩

theorem Spares.processFinalityBudget {canonical : B256} (spares : Spares canonical base [] store)
    (acquits : ∀ sweep, store.finalitySweep = some sweep → Acquits canonical sweep store)
    (budget : Nat) :
    Spares canonical base (store.processFinalityBudget budget).1.2
      (store.processFinalityBudget budget).2 := by
  unfold Store.processFinalityBudget
  cases pending : store.finalitySweep with
  | none => exact spares
  | some sweep =>
    have started : Spares canonical base [] (store.setSweep none) :=
      ⟨spares.current, spares.seated, spares.unnamed, spares.unburied⟩
    have swept := (sweepLoop_rule (motive := fun retired sweep s =>
      Spares canonical base retired s ∧ Acquits canonical sweep s)
      (fun _ _ _ _ _ _ step holds => holds.1.sweepStep holds.2 step) budget 0 [] sweep
      (store.setSweep none) ⟨started, acquits sweep pending⟩).1
    dsimp only
    split
    · exact swept
    · exact ⟨swept.current, swept.seated, swept.unnamed, swept.unburied⟩

def Descends (store : Store) (root hash : B256) : Prop :=
  Forest.Below treeChildren store root hash

theorem childrenByParent_removeNode (terminal : Bool) (hash : B256) (store : Store) :
    (store.removeNode terminal hash).childrenByParent =
      match store.removedParent hash with
      | some parent => (store.childrenByParent.erase hash).detach parent hash
      | none => store.childrenByParent.erase hash := by
  unfold removeNode
  rw [childrenByParent_removeOne, childrenByParent_removeRecord]
  change (match store.removedParent hash with | some _ => _ | none => _) = _
  cases store.removedParent hash with
  | none => rfl
  | some parent => exact childrenByParent_removeChild _ _ _

theorem mem_treeChildren_removeNode {terminal : Bool} {hash parent child : B256} :
    child ∈ (store.removeNode terminal hash).treeChildren parent ↔
      (child ∈ store.treeChildren parent ∧ parent ≠ hash) ∧
        ¬ (store.removedParent hash = some parent ∧ child = hash) := by
  change child ∈ (store.removeNode terminal hash).childrenByParent.listed parent ↔
    (child ∈ store.childrenByParent.listed parent ∧ _) ∧ _
  rw [childrenByParent_removeNode, ← Table.mem_listed_erase]
  cases store.removedParent hash with
  | none => simp
  | some above =>
    dsimp only
    rw [Table.mem_listed_detach, Option.some.injEq, eq_comm (a := above)]

theorem removes_removeNode (terminal : Bool) :
    Forest.Removes treeChildren (removeNode terminal) fun store hash => store.candidates.get hash where
  fewer _ _ _ _ member := (mem_treeChildren_removeNode.mp member).1.1
  kept _ _ _ _ member parent child :=
    mem_treeChildren_removeNode.mpr ⟨⟨member, parent⟩, fun removed => child removed.2⟩
  gone key store := by simp
  elsewhere key store other different := by simp [different]

theorem Spares.removeCandidateTree {canonical root : B256}
    (spares : Spares canonical base [] store) (apart : ¬ store.Descends root canonical)
    (terminal : Bool) :
    Spares canonical base [] (store.removeCandidateTree root terminal) := by
  by_cases guarded : root = store.canonicalHash
  · unfold Store.removeCandidateTree
    rw [if_pos guarded]
    exact spares
  · rw [removeCandidateTree_eq_prune terminal guarded]
    refine Forest.prune_invariant (motive := Spares canonical base [])
      (removes_removeNode terminal) (treeWeight_removeNode_le terminal) (Nat.add_comm _ _).le
      (fun hash after inside holds => ?_) spares
    have detached : Spares canonical base [] (after.setChildren (after.childrenByParent.erase hash)) :=
      ⟨holds.current, holds.seated, holds.unnamed, holds.unburied⟩
    have removed := detached.removeOne (fun same => apart (same ▸ inside)) terminal
    exact ⟨removed.current, removed.seated, List.not_mem_nil, removed.unburied⟩

def Ahead (current : Nat × B256 → Prop) (canonical hash : B256) (queue : Queue) : Prop :=
  ∃ front victim back, queue = front ++ victim :: back ∧ current victim ∧
    victim.2 ≠ canonical ∧ victim.2 ≠ hash ∧ ∀ entry ∈ front, current entry → entry.2 ≠ hash

section

variable {current : Nat × B256 → Prop} {canonical hash : B256} {entry : Nat × B256}
  {queue rest : Queue}

theorem Ahead.first (ahead : Ahead current canonical hash (entry :: rest)) (live : current entry) :
    entry.2 ≠ hash := by
  obtain ⟨front, victim, back, split, _, _, other, stale⟩ := ahead
  cases front with
  | nil =>
    cases split
    exact other
  | cons first front =>
    cases split
    exact stale entry List.mem_cons_self live

theorem Ahead.pop (ahead : Ahead current canonical hash (entry :: rest))
    (passed : ¬ current entry ∨ entry.2 = canonical) : Ahead current canonical hash rest := by
  obtain ⟨front, victim, back, split, live, foreign, other, stale⟩ := ahead
  cases front with
  | nil =>
    cases split
    rcases passed with dead | same
    · exact absurd live dead
    · exact absurd same foreign
  | cons first front =>
    cases split
    exact ⟨front, victim, back, rfl, live, foreign, other,
      fun listed member => stale listed (List.mem_cons_of_mem _ member)⟩

theorem Ahead.append (ahead : Ahead current canonical hash queue) (more : Queue) :
    Ahead current canonical hash (queue ++ more) := by
  obtain ⟨front, victim, back, rfl, facts⟩ := ahead
  exact ⟨front, victim, back ++ more, by simp, facts⟩

theorem ahead_of_last {incarnation : Nat} {victim : Nat × B256}
    (member : victim ∈ queue ++ [(incarnation, hash)]) (live : current victim)
    (foreign : victim.2 ≠ canonical) (other : victim.2 ≠ hash)
    (last : ∀ listed ∈ queue, current listed → listed.2 ≠ hash) :
    Ahead current canonical hash (queue ++ [(incarnation, hash)]) := by
  rcases List.mem_append.mp member with inside | here
  · obtain ⟨front, back, rfl⟩ := List.append_of_mem inside
    refine Ahead.append ⟨front, victim, back, rfl, live, foreign, other, ?_⟩ _
    intro listed early
    exact last listed (List.mem_append_left _ early)
  · rw [List.mem_singleton.mp here] at other
    exact absurd rfl other

end

structure Outlasts (hash : B256) (store : Store) : Prop where
  seated : Seated hash store
  few : store.projectionCount ≤ store.cacheLimit + 1
  ahead : store.cacheLimit < store.projectionCount →
    Ahead (fun entry => store.isCurrentProjection entry.1 entry.2 = true) store.canonicalHash hash
      store.projectionOrder

theorem Outlasts.rotateOrEvict {hash other : B256} {incarnation : Nat} {rest : Queue}
    (outlasts : Outlasts hash store) (exceeds : store.cacheLimit < store.projectionCount)
    (order : store.projectionOrder = (incarnation, other) :: rest)
    (live : store.isCurrentProjection incarnation other = true) :
    Outlasts hash ((store.setProjectionOrder rest).rotateOrEvict incarnation other).2 := by
  have ahead := outlasts.ahead exceeds
  have few := outlasts.few
  rw [order] at ahead
  unfold Store.rotateOrEvict
  split
  · next canonical =>
    refine ⟨outlasts.seated, few, fun _ => ?_⟩
    exact (ahead.pop (.inr canonical)).append [(incarnation, other)]
  · have different := ahead.first live
    refine ⟨outlasts.seated.of_get ?_, ?_, fun still => ?_⟩
    · change (store.candidates.modify other _).get hash = _
      rw [Table.get_modify, if_neg different.symm]
    · change store.projectionCount - 1 ≤ store.cacheLimit + 1
      omega
    · change store.cacheLimit < store.projectionCount - 1 at still
      omega

theorem Outlasts.trimProjectionCache {hash : B256} (outlasts : Outlasts hash store)
    (inserted : B256) : Seated hash (Store.trimProjectionCache inserted store).2 := by
  have kept : Outlasts hash (Store.trimProjectionCache inserted store).2 := by
    refine ((trimProjectionLoop_rule (motive := fun _ s => Outlasts hash s) inserted
      (fun _ s incarnation other rest order stale holds => ?_)
      (fun _ s incarnation other rest exceeds order live holds =>
        holds.rotateOrEvict exceeds order live) _ _ _ store outlasts).mono
      (fun _ _ holds => holds.1) (fun _ _ ⟨_, holds⟩ => holds)).elim
    refine ⟨holds.seated, holds.few, fun exceeds => ?_⟩
    have ahead := holds.ahead exceeds
    rw [order] at ahead
    exact ahead.pop (.inl (by simp [stale]))
  exact kept.seated

structure Lingers (hash : B256) (store : Store) : Prop where
  seated : Seated hash store
  few : store.metadataLen ≤ store.metadataLimit + 1
  ahead : store.metadataLimit < store.metadataLen →
    Ahead (fun entry => store.currentIncarnation entry.2 = some entry.1) store.canonicalHash hash
      store.metadataOrder

theorem metadataLen_removeOne_lt (store : Store) {hash : B256} {incarnation : Nat}
    (terminal : Bool) (live : store.currentIncarnation hash = some incarnation) :
    (store.removeOne hash terminal).2.metadataLen < store.metadataLen := by
  have candidates := Table.size_erase store.candidates hash
  have deferred := Table.size_erase store.deferredExecuted hash
  have present : (store.record hash).isSome = true := by
    rw [currentIncarnation_eq] at live
    rw [← Option.isSome_map, live]
    rfl
  rw [isSome_record] at present
  unfold metadataLen
  rw [candidates_removeOne, deferredExecuted_removeOne]
  rcases Bool.or_eq_true_iff.mp present with cached | held
  · rw [cached, Bool.toNat_true] at candidates
    omega
  · rw [held, Bool.toNat_true] at deferred
    omega

theorem Lingers.rotateOrRemove {hash other : B256} {incarnation : Nat} {rest : Queue}
    (lingers : Lingers hash store) (exceeds : store.metadataLimit < store.metadataLen)
    (order : store.metadataOrder = (incarnation, other) :: rest)
    (live : store.currentIncarnation other = some incarnation) :
    Lingers hash ((store.setMetadataOrder rest).rotateOrRemove incarnation other).2 := by
  have ahead := lingers.ahead exceeds
  have few := lingers.few
  rw [order] at ahead
  unfold Store.rotateOrRemove
  split
  · next canonical =>
    refine ⟨lingers.seated, few, fun _ => ?_⟩
    exact (ahead.pop (.inr canonical)).append [(incarnation, other)]
  · have different := ahead.first live
    have smaller := metadataLen_removeOne_lt (store.setMetadataOrder rest) false live
    have limit : ((store.setMetadataOrder rest).removeOne other false).2.metadataLimit =
        store.metadataLimit := congrArg Settings.metadataLimit (settings_removeOne _ _ _)
    change _ < store.metadataLen at smaller
    dsimp only
    refine ⟨lingers.seated.of_get ?_, by omega, fun still => by omega⟩
    rw [candidates_removeOne, Table.get_erase, if_neg different.symm]
    rfl

theorem Lingers.trimMetadata {hash : B256} (lingers : Lingers hash store) :
    Seated hash (Store.trimMetadata store).2 := by
  have kept : Lingers hash (Store.trimMetadata store).2 := by
    refine ((trimMetadataLoop_rule (motive := fun _ s => Lingers hash s)
      (fun _ s incarnation other rest order stale holds => ?_)
      (fun _ s incarnation other rest exceeds order live holds =>
        holds.rotateOrRemove exceeds order live) _ _ store lingers).mono
      (fun _ _ holds => holds.1) (fun _ _ ⟨_, holds⟩ => holds)).elim
    refine ⟨holds.seated, holds.few, fun exceeds => ?_⟩
    have ahead := holds.ahead exceeds
    rw [order] at ahead
    exact ahead.pop (.inl stale)
  exact kept.seated

theorem tombstones_removeOne (hash : B256) (store : Store) :
    (store.removeOne hash false).2.tombstones = store.tombstones :=
  (tombs_removeRecord hash store).1

theorem tombstones_trimProjectionCache (inserted : B256) (store : Store) :
    (Store.trimProjectionCache inserted store).2.tombstones = store.tombstones := by
  refine ((trimProjectionLoop_rule (motive := fun _ s => s.tombstones = store.tombstones) inserted
    (fun _ _ _ _ _ _ _ same => same) (fun _ s _ _ _ _ _ _ same => ?_) _ _ _ store rfl).mono
    (fun _ _ holds => holds.1) (fun _ _ ⟨_, holds⟩ => holds)).elim
  unfold rotateOrEvict
  split <;> exact same

theorem tombstones_trimMetadata (store : Store) :
    (Store.trimMetadata store).2.tombstones = store.tombstones := by
  refine ((trimMetadataLoop_rule (motive := fun _ s => s.tombstones = store.tombstones)
    (fun _ _ _ _ _ _ _ same => same) (fun _ s _ _ _ _ _ _ same => ?_) _ _ store rfl).mono
    (fun _ _ holds => holds.1) (fun _ _ ⟨_, holds⟩ => holds)).elim
  unfold rotateOrRemove
  split
  · exact same
  · exact (tombstones_removeOne _ _).trans same

theorem currentIncarnation_rotateOrEvict (incarnation : Nat) (hash other : B256) (store : Store) :
    (store.rotateOrEvict incarnation hash).2.currentIncarnation other =
      store.currentIncarnation other := by
  unfold rotateOrEvict
  split
  · rfl
  · unfold currentIncarnation evictProjection
    dsimp only
    rw [Table.get_modify]
    by_cases same : other = hash
    · rw [if_pos same, same]
      cases store.candidates.get hash <;> rfl
    · rw [if_neg same]

theorem Lingers.trimProjectionCache {hash : B256} (lingers : Lingers hash store)
    (outlasts : Outlasts hash store) (inserted : B256) :
    Lingers hash (Store.trimProjectionCache inserted store).2 := by
  have settings := settings_trimProjectionCache inserted store
  have limit : (Store.trimProjectionCache inserted store).2.metadataLimit = store.metadataLimit :=
    congrArg Settings.metadataLimit settings
  have kept : (Store.trimProjectionCache inserted store).2.metadataOrder = store.metadataOrder ∧
      (Store.trimProjectionCache inserted store).2.metadataLen = store.metadataLen ∧
      (Store.trimProjectionCache inserted store).2.currentIncarnation =
        store.currentIncarnation := by
    refine ((trimProjectionLoop_rule (motive := fun _ s => s.metadataOrder = store.metadataOrder ∧
      s.metadataLen = store.metadataLen ∧ s.currentIncarnation = store.currentIncarnation) inserted
      (fun _ _ _ _ _ _ _ holds => holds) (fun _ s incarnation other rest _ _ _ holds => ?_) _ _ _
      store ⟨rfl, rfl, rfl⟩).mono (fun _ _ holds => holds.1) (fun _ _ ⟨_, holds⟩ => holds)).elim
    refine ⟨?_, (metadataLen_rotateOrEvict _ _ _).trans holds.2.1, ?_⟩
    · unfold Store.rotateOrEvict
      split <;> exact holds.1
    · funext found
      rw [currentIncarnation_rotateOrEvict]
      exact congrFun holds.2.2 found
  refine ⟨outlasts.trimProjectionCache inserted, ?_, fun exceeds => ?_⟩
  · rw [kept.2.1, limit]
    exact lingers.few
  · rw [kept.1, kept.2.2, canonicalHash_of_settings settings]
    rw [kept.2.1, limit] at exceeds
    exact lingers.ahead exceeds

section

variable {chain : B256 → BlockMeta} {loose : B256 → Prop} (now : Instant)
  (projection : Projection)

theorem seated_placeCandidate (store : Store) :
    Seated projection.block.hash (store.placeCandidate now projection .validated true 0) := by
  refine ⟨store.placedEntry now projection .validated true 0, ?_, ?_, ?_, ?_⟩
  · rw [candidates_placeCandidate, Table.get_insert, if_pos rfl]
  · rw [placedEntry_projection]
    rfl
  · exact placedEntry_stage _ _ _ _ _ _
  · exact placedEntry_tracked _ _ _ _ _

theorem elsewhere_of_count_one {queue : Queue} {incarnation : Nat} {hash : B256}
    {listed : Nat × B256} (once : (queue ++ [(incarnation, hash)]).count (incarnation, hash) = 1)
    (member : listed ∈ queue) (current : listed.2 = hash → listed.1 = incarnation) :
    listed.2 ≠ hash := by
  intro same
  have positive : 0 < queue.count (incarnation, hash) := by
    rw [List.count_pos_iff, ← current same, ← same]
    exact member
  rw [List.count_append, List.count_singleton_self] at once
  omega

theorem outlasts_placeCandidate (room : 2 ≤ store.cacheLimit)
    (fits : store.projectionCount ≤ store.cacheLimit)
    (formed : WellFormed chain loose
      (store.placeCandidate now projection .validated true 0)) :
    Outlasts projection.block.hash (store.placeCandidate now projection .validated true 0) := by
  have count := projectionCount_placeCandidate now projection .validated 0 store
  have settings := settings_placeCandidate now projection .validated true 0 store
  have limit : (store.placeCandidate now projection .validated true 0).cacheLimit =
    store.cacheLimit := congrArg Settings.cacheLimit settings
  refine ⟨seated_placeCandidate now projection store, by omega, fun exceeds => ?_⟩
  have records := record_placeCandidate now projection .validated 0 store
  have here := (records projection.block.hash).trans (if_pos rfl)
  have once := formed.queues.projectionsOnce _ _ here
  rw [if_pos rfl] at once
  -- The cache is over its limit, so the projection was gained just now and is listed last.
  have last : (store.placeCandidate now projection .validated true 0).projectionOrder =
      store.projectionOrder ++
        [(store.placedIncarnation projection.block.hash, projection.block.hash)] := by
    cases stored : store.record projection.block.hash with
    | none =>
      rw [placedIncarnation_of_none stored]
      exact (placeCandidate_anew now projection .validated 0 stored).2.1
    | some old =>
      have placed := placeCandidate_over now projection .validated 0 stored
      rw [placedIncarnation_of_some stored, placed.projections, if_neg]
      intro projected
      have same := placed.count
      rw [if_pos projected] at same
      omega
  rw [last] at once ⊢
  obtain ⟨victim, entry, outside, cached, projected⟩ := Table.exists_of_count_gt
    (store.placeCandidate now projection .validated true 0).candidates
    [(store.placeCandidate now projection .validated true 0).canonicalHash, projection.block.hash]
    (by rw [← formed.counted]; simp only [List.length_cons, List.length_nil]; omega)
  simp only [List.mem_cons, List.not_mem_nil, or_false, not_or] at outside
  have live := record_of_candidate cached
  have current : (store.placeCandidate now projection .validated true 0).isCurrentProjection
      entry.incarnation victim = true :=
    (isCurrentProjection_iff _ _ _).mpr ⟨_, live, rfl, projected⟩
  have listed : (entry.incarnation, victim) ∈ store.projectionOrder ++
      [(store.placedIncarnation projection.block.hash, projection.block.hash)] := by
    rw [← last, ← List.count_pos_iff]
    have found := formed.queues.projectionsOnce _ _ live
    rw [if_pos (by exact projected)] at found
    exact found ▸ Nat.one_pos
  refine ahead_of_last listed current outside.1 outside.2 fun other member alive => ?_
  refine elsewhere_of_count_one once member fun same => ?_
  obtain ⟨found, stored, incarnation, _⟩ := (isCurrentProjection_iff _ _ _).mp alive
  rw [same, here] at stored
  cases stored
  exact incarnation.symm

theorem lingers_placeCandidate (room : 2 ≤ store.metadataLimit)
    (fits : store.metadataLen ≤ store.metadataLimit)
    (formed : WellFormed chain loose
      (store.placeCandidate now projection .validated true 0)) :
    Lingers projection.block.hash (store.placeCandidate now projection .validated true 0) := by
  have settings := settings_placeCandidate now projection .validated true 0 store
  have limit : (store.placeCandidate now projection .validated true 0).metadataLimit =
    store.metadataLimit := congrArg Settings.metadataLimit settings
  have inserted := Table.size_insert store.candidates projection.block.hash
    (store.placedEntry now projection .validated true 0)
  have erased := Table.size_erase store.deferredExecuted projection.block.hash
  have size : (store.placeCandidate now projection .validated true 0).metadataLen =
      (store.candidates.insert projection.block.hash
        (store.placedEntry now projection .validated true 0)).size +
      (store.deferredExecuted.erase projection.block.hash).size := by
    unfold metadataLen
    rw [candidates_placeCandidate, deferredExecuted_placeCandidate]
  have before : store.metadataLen = store.candidates.size + store.deferredExecuted.size := rfl
  refine ⟨seated_placeCandidate now projection store, by omega, fun exceeds => ?_⟩
  have records := record_placeCandidate now projection .validated 0 store
  have here := (records projection.block.hash).trans (if_pos rfl)
  have once := formed.queues.metadataOnce _ _ here
  -- There are too many records, so this one is new and is listed last.
  have unknown : store.record projection.block.hash = none := by
    rw [← Option.not_isSome_iff_eq_none, isSome_record, Bool.or_eq_true]
    rintro (cached | held)
    · rw [cached, Bool.toNat_true] at inserted
      omega
    · rw [held, Bool.toNat_true] at erased
      omega
  have last := (placeCandidate_anew now projection .validated 0 unknown).1.metadata
  rw [placedIncarnation_of_none unknown] at here once
  rw [last] at once ⊢
  obtain ⟨victim, live, outside, stored⟩ := formed.exists_live
    [(store.placeCandidate now projection .validated true 0).canonicalHash, projection.block.hash]
    (by simp only [List.length_cons, List.length_nil]; omega)
  simp only [List.mem_cons, List.not_mem_nil, or_false, not_or] at outside
  have listed := formed.queues.mem_metadata stored
  rw [last] at listed
  refine ahead_of_last listed ?_ outside.1 outside.2 fun other member alive => ?_
  · rw [currentIncarnation_eq, stored]
    rfl
  · refine elsewhere_of_count_one once member fun same => ?_
    rw [currentIncarnation_eq, same, here] at alive
    exact (Option.some.inj alive).symm

end

end Statefeed.Store
