import Statefeed.Store.Index
import Statefeed.Store.Settings

set_option autoImplicit false

namespace Statefeed.Store

open Effect Effect.Op

structure Entombed (tombstones : Finset B256) (order : List B256) (limit : Nat) : Prop where
  nodup : order.Nodup
  same : tombstones = order.toFinset
  bounded : tombstones.card ≤ limit

structure WellFormed (chain : B256 → BlockMeta) (loose : B256 → Prop) (store : Store) : Prop where
  disjoint : ∀ hash entry, store.candidates.get hash = some entry →
    store.deferredExecuted.get hash = none
  counted : store.projectionCount = store.candidates.count (·.projection.isSome)
  tracked : ∀ hash entry, store.candidates.get hash = some entry →
    entry.tracked = entry.projection.isSome
  known : ∀ hash live, store.record hash = some live →
    live.block = chain hash ∧ live.block.hash = hash
  queues : Queues store.record store.metadataOrder store.projectionOrder store.nextIncarnation
  tree : Tree store.record store.childrenByParent store.anchorIncarnation loose
  anchor : store.anchorIncarnation < store.nextIncarnation
  entombed : Entombed store.tombstones store.tombstoneOrder store.metadataLimit

variable {chain : B256 → BlockMeta} {loose : B256 → Prop} {store : Store}

theorem entombed_trim (fuel : Nat) (store : Store) (enough : store.tombstoneOrder.length ≤ fuel)
    (nodup : store.tombstoneOrder.Nodup)
    (same : store.tombstones = store.tombstoneOrder.toFinset) :
    Entombed (trimTombstones fuel store).tombstones (trimTombstones fuel store).tombstoneOrder
      store.metadataLimit := by
  induction fuel generalizing store with
  | zero =>
    have empty := List.eq_nil_of_length_eq_zero (Nat.le_zero.mp enough)
    refine ⟨nodup, same, ?_⟩
    simp [trimTombstones, same, empty]
  | succ fuel ih =>
    unfold trimTombstones
    by_cases exceeds : store.tombstones.card > store.metadataLimit
    · rw [if_pos exceeds]
      cases order : store.tombstoneOrder with
      | nil =>
        rw [same, order] at exceeds
        simp at exceeds
      | cons oldest rest =>
        rw [order] at nodup same enough
        have left := List.nodup_cons.mp nodup
        refine ih { store with
            tombstones := store.tombstones.erase oldest, tombstoneOrder := rest }
          (Nat.le_of_succ_le_succ enough) left.2 ?_
        simp [same, left.1]
    · rw [if_neg exceeds]
      exact ⟨nodup, same, Nat.le_of_not_lt exceeds⟩

theorem entombed_insertTombstone (hash : B256)
    (entombed : Entombed store.tombstones store.tombstoneOrder store.metadataLimit) :
    Entombed (store.insertTombstone hash).tombstones (store.insertTombstone hash).tombstoneOrder
      store.metadataLimit := by
  unfold insertTombstone
  by_cases present : hash ∈ store.tombstones
  · simp only [if_pos present]
    exact entombed_trim _ store (Nat.le_refl _) entombed.nodup entombed.same
  · simp only [if_neg present]
    have absent : hash ∉ store.tombstoneOrder := by
      rwa [entombed.same, List.mem_toFinset] at present
    refine entombed_trim _ { store with
      tombstones := insert hash store.tombstones
      tombstoneOrder := store.tombstoneOrder ++ [hash] } (Nat.le_refl _) ?_ ?_
    · simpa [List.nodup_append, entombed.nodup] using
        fun other member (same : other = hash) => absent (same ▸ member)
    · ext other
      simp [entombed.same]

theorem removedParent_eq (disjoint : ∀ hash entry, store.candidates.get hash = some entry →
      store.deferredExecuted.get hash = none) (hash : B256) :
    store.removedParent hash = (store.record hash).map (·.block.parentHash) := by
  unfold removedParent record
  cases stored : store.candidates.get hash with
  | some entry =>
    rw [disjoint hash entry stored]
    rfl
  | none => cases store.deferredExecuted.get hash <;> rfl

theorem childrenByParent_removeRecord (hash : B256) (store : Store) :
    (store.removeRecord hash).childrenByParent =
      match store.removedParent hash with
      | some parent => (store.removeChild parent hash).childrenByParent
      | none => store.childrenByParent := by
  unfold removeRecord
  cases store.removedParent hash with
  | none => rfl
  | some parent =>
    dsimp only
    rw [childrenByParent_removeChild, childrenByParent_removeChild]
    rfl

theorem tombs_removeRecord (hash : B256) (store : Store) :
    (store.removeRecord hash).tombstones = store.tombstones ∧
      (store.removeRecord hash).tombstoneOrder = store.tombstoneOrder := by
  unfold removeRecord removeChild
  split
  · split <;> exact ⟨rfl, rfl⟩
  · exact ⟨rfl, rfl⟩

theorem entombed_removeOne (hash : B256) (terminal : Bool)
    (entombed : Entombed store.tombstones store.tombstoneOrder store.metadataLimit) :
    Entombed (store.removeOne hash terminal).2.tombstones
      (store.removeOne hash terminal).2.tombstoneOrder store.metadataLimit := by
  have limit : (store.removeRecord hash).metadataLimit = store.metadataLimit :=
    congrArg Settings.metadataLimit (settings_removeRecord hash store)
  have kept := tombs_removeRecord hash store
  rw [← kept.1, ← kept.2, ← limit] at entombed
  rw [← limit]
  cases terminal with
  | false => exact entombed
  | true => exact entombed_insertTombstone hash entombed

theorem queues_removeOne (hash : B256) (terminal : Bool)
    (queues : Queues (without hash store.record) store.metadataOrder store.projectionOrder
      store.nextIncarnation) :
    Queues (store.removeOne hash terminal).2.record (store.removeOne hash terminal).2.metadataOrder
      (store.removeOne hash terminal).2.projectionOrder store.nextIncarnation := by
  have core := core_marked hash terminal store
  have metadata : (store.marked hash terminal).metadataOrder = store.metadataOrder :=
    congrArg Core.metadataOrder core
  have projections : (store.marked hash terminal).projectionOrder = store.projectionOrder :=
    congrArg Core.projectionOrder core
  rw [← record_removeOne hash terminal, ← metadata, ← projections] at queues
  exact queues_compact (store.marked hash terminal) queues

theorem tree_removeOne {anchor : Nat} (hash : B256) (terminal : Bool)
    (disjoint : ∀ hash entry, store.candidates.get hash = some entry →
      store.deferredExecuted.get hash = none)
    (tree : Tree store.record store.childrenByParent anchor loose) :
    Tree (store.removeOne hash terminal).2.record
      (store.removeOne hash terminal).2.childrenByParent anchor loose := by
  rw [childrenByParent_removeOne, childrenByParent_removeRecord, removedParent_eq disjoint]
  rw [record_removeOne]
  cases stored : store.record hash with
  | some gone => exact tree_removeChild tree stored
  | none =>
    have same : without hash store.record = store.record := by
      funext other
      unfold without
      split
      · next here => rw [here, stored]
      · rfl
    rw [same]
    exact tree

theorem projectionCount_removeOne (hash : B256) (terminal : Bool) (store : Store) :
    (store.removeOne hash terminal).2.projectionCount =
      if (store.candidates.get hash).any (·.projection.isSome) then store.projectionCount - 1
      else store.projectionCount :=
  congrArg Core.projectionCount (core_marked hash terminal store)

theorem WellFormed.removeUnlisted {order : Queue} {hash : B256}
    (formed : WellFormed chain loose store) (terminal : Bool)
    (queues : Queues (without hash store.record) order store.projectionOrder
      store.nextIncarnation) :
    WellFormed chain loose ((store.setMetadataOrder order).removeOne hash terminal).2 := by
  have settings := settings_removeOne hash terminal (store.setMetadataOrder order)
  have anchor : ((store.setMetadataOrder order).removeOne hash terminal).2.anchorIncarnation =
    store.anchorIncarnation := congrArg Settings.anchorIncarnation settings
  have limit : ((store.setMetadataOrder order).removeOne hash terminal).2.metadataLimit =
    store.metadataLimit := congrArg Settings.metadataLimit settings
  constructor
  · intro other entry stored
    rw [candidates_removeOne, Table.get_erase] at stored
    rw [deferredExecuted_removeOne, Table.get_erase]
    split at stored
    · cases stored
    · next different =>
      rw [if_neg different]
      exact formed.disjoint other entry stored
  · have erased := Table.count_erase store.candidates hash (·.projection.isSome)
    rw [projectionCount_removeOne, candidates_removeOne]
    change (if (store.candidates.get hash).any _ then store.projectionCount - 1
      else store.projectionCount) = (store.candidates.erase hash).count _
    rw [formed.counted]
    split
    · next projected => rw [projected] at erased; simp at erased; omega
    · next bare => simpa [bare] using erased.symm
  · intro other entry stored
    rw [candidates_removeOne, Table.get_erase] at stored
    split at stored
    · cases stored
    · exact formed.tracked other entry stored
  · intro other live stored
    rw [record_removeOne] at stored
    exact formed.known other live (without_eq_some stored)
  · rw [nextIncarnation_removeOne]
    exact queues_removeOne hash terminal queues
  · rw [anchor]
    exact tree_removeOne hash terminal formed.disjoint formed.tree
  · rw [anchor, nextIncarnation_removeOne]
    exact formed.anchor
  · rw [limit]
    exact entombed_removeOne hash terminal formed.entombed

theorem WellFormed.removeOne (formed : WellFormed chain loose store) (hash : B256)
    (terminal : Bool) : WellFormed chain loose (store.removeOne hash terminal).2 :=
  formed.removeUnlisted terminal (formed.queues.forget fun _ _ => without_eq_some)

theorem WellFormed.loosen {loose' : B256 → Prop} (formed : WellFormed chain loose store)
    (gone : ∀ hash, loose hash → ¬ loose' hash → store.record hash = none) :
    WellFormed chain loose' store :=
  { formed with tree := formed.tree.forgetLoose gone }

theorem WellFormed.removeNode {pending : List B256} {hash : B256} (terminal : Bool)
    (formed : WellFormed chain (· ∈ hash :: pending) store) :
    WellFormed chain (· ∈ (store.treeChildren hash).reverse ++ pending)
      (store.removeNode terminal hash) := by
  have detached : WellFormed chain
      (fun other => other ∈ store.treeChildren hash ∨ other ∈ hash :: pending)
      (store.setChildren (store.childrenByParent.erase hash)) :=
    { disjoint := formed.disjoint
      counted := formed.counted
      tracked := formed.tracked
      known := formed.known
      queues := formed.queues
      tree := formed.tree.detach hash
      anchor := formed.anchor
      entombed := formed.entombed }
  refine (detached.removeOne hash terminal).loosen fun other wasLoose bound => ?_
  rw [record_removeOne, without]
  -- The only record that is no longer loose is the one just removed.
  split
  · rfl
  · next different =>
    simp only [List.mem_append, List.mem_reverse, not_or] at bound
    rcases wasLoose with child | member
    · exact absurd child bound.1
    · rcases List.mem_cons.mp member with same | member
      · exact absurd same different
      · exact absurd member bound.2

theorem WellFormed.removeCandidateTree (formed : WellFormed chain (fun _ => False) store)
    (root : B256) (terminal : Bool) :
    WellFormed chain (fun _ => False) (store.removeCandidateTree root terminal) := by
  by_cases canonical : root = store.canonicalHash
  · unfold Store.removeCandidateTree
    rw [if_pos canonical]
    exact formed
  · have removed := removeCandidateTree_rule
      (motive := fun pending s => WellFormed chain (· ∈ pending) s) terminal
      (fun hash pending s holds => holds.removeNode terminal) root store canonical
      (formed.loosen fun _ impossible => impossible.elim)
    exact removed.loosen fun hash member => absurd member List.not_mem_nil

theorem WellFormed.removeEach (formed : WellFormed chain loose store)
    (hashes expired : List B256) :
    WellFormed chain loose (store.removeEach hashes expired).2 :=
  removeEach_rule (motive := fun _ s => WellFormed chain loose s)
    (fun hash _ _ _ holds => holds.removeOne hash false) expired store formed

theorem WellFormed.setProjectionOrder {order : Queue} (formed : WellFormed chain loose store)
    (queues : Queues store.record store.metadataOrder order store.nextIncarnation) :
    WellFormed chain loose (store.setProjectionOrder order) :=
  ⟨formed.disjoint, formed.counted, formed.tracked, formed.known, queues, formed.tree,
    formed.anchor, formed.entombed⟩

theorem WellFormed.setMetadataOrder {order : Queue} (formed : WellFormed chain loose store)
    (queues : Queues store.record order store.projectionOrder store.nextIncarnation) :
    WellFormed chain loose (store.setMetadataOrder order) :=
  ⟨formed.disjoint, formed.counted, formed.tracked, formed.known, queues, formed.tree,
    formed.anchor, formed.entombed⟩

theorem WellFormed.setSweep (formed : WellFormed chain loose store)
    (sweep : Option FinalitySweep) : WellFormed chain loose (store.setSweep sweep) :=
  ⟨formed.disjoint, formed.counted, formed.tracked, formed.known, formed.queues, formed.tree,
    formed.anchor, formed.entombed⟩

theorem record_evictProjection {hash : B256} {entry : CandidateEntry}
    (stored : store.candidates.get hash = some entry) (other : B256) :
    (store.evictProjection hash).record other =
      if other = hash then some ⟨entry.incarnation, entry.block, false⟩
      else store.record other := by
  unfold record evictProjection
  dsimp only
  rw [Table.get_modify, stored]
  by_cases same : other = hash
  · rw [if_pos same, if_pos same]
    rfl
  · rw [if_neg same, if_neg same]

theorem WellFormed.evictProjection {incarnation : Nat} {hash : B256} {rest : Queue}
    (formed : WellFormed chain loose store)
    (order : store.projectionOrder = (incarnation, hash) :: rest)
    (current : store.isCurrentProjection incarnation hash = true) :
    WellFormed chain loose ((store.setProjectionOrder rest).evictProjection hash) := by
  unfold isCurrentProjection at current
  cases stored : store.candidates.get hash with
  | none => simp [stored] at current
  | some entry =>
    simp only [stored, decide_eq_true_eq] at current
    obtain ⟨rfl, projected⟩ := current
    have live := record_of_candidate stored
    have queues := formed.queues
    rw [order] at queues
    have records := record_evictProjection
      (show (store.setProjectionOrder rest).candidates.get hash = some entry from stored)
    constructor
    · intro other found known
      change (store.candidates.modify hash _).get other = some found at known
      rw [Table.get_modify] at known
      split at known
      · next same => rw [same]; exact formed.disjoint hash entry stored
      · exact formed.disjoint other found known
    · have counted := Table.count_modify store.candidates hash (·.projection.isSome) fun entry =>
        { entry with projection := none, tracked := false }
      simp only [stored, Option.any_some, projected, Option.isSome_none, Bool.toNat_true,
        Bool.toNat_false, ← formed.counted] at counted
      change store.projectionCount - 1 = (store.candidates.modify hash _).count _
      omega
    · intro other found known
      change (store.candidates.modify hash _).get other = some found at known
      rw [Table.get_modify] at known
      split at known
      · rw [stored] at known
        cases known
        rfl
      · exact formed.tracked other found known
    · intro other found known
      rw [records] at known
      split at known
      · next same =>
        cases known
        exact formed.known other (CandidateEntry.record entry) (same ▸ live)
      · exact formed.known other found known
    · exact queues.evict live records
    · exact formed.tree.refresh live records rfl rfl
    · exact formed.anchor
    · exact formed.entombed

theorem WellFormed.rotateOrEvict {incarnation : Nat} {hash : B256} {rest : Queue}
    (formed : WellFormed chain loose store)
    (order : store.projectionOrder = (incarnation, hash) :: rest)
    (current : store.isCurrentProjection incarnation hash = true) :
    WellFormed chain loose ((store.setProjectionOrder rest).rotateOrEvict incarnation hash).2 := by
  unfold Store.rotateOrEvict
  split
  · have queues := formed.queues
    rw [order] at queues
    exact formed.setProjectionOrder queues.rotateProjection
  · exact formed.evictProjection order current

theorem length_rotateOrEvict (incarnation : Nat) (hash : B256) (store : Store) :
    (store.rotateOrEvict incarnation hash).2.projectionOrder.length ≤
      store.projectionOrder.length + 1 := by
  unfold rotateOrEvict
  split
  · exact (List.length_append).le
  · exact Nat.le_succ _

theorem metadataLen_rotateOrEvict (incarnation : Nat) (hash : B256) (store : Store) :
    (store.rotateOrEvict incarnation hash).2.metadataLen = store.metadataLen := by
  unfold rotateOrEvict
  split
  · rfl
  · change (store.candidates.modify hash _).size + _ = _
    rw [Table.size_modify]
    rfl

theorem WellFormed.trimProjectionCache (formed : WellFormed chain loose store)
    (inserted : B256) :
    WellFormed chain loose (Store.trimProjectionCache inserted store).2 ∧
      (Store.trimProjectionCache inserted store).2.metadataLen = store.metadataLen := by
  refine ((trimProjectionLoop_rule
    (motive := fun _ s => WellFormed chain loose s ∧ s.metadataLen = store.metadataLen) inserted
    ?_ ?_ _ _ _ store ⟨formed, rfl⟩).mono
    (fun _ _ holds => holds.1) (fun _ _ ⟨_, holds⟩ => holds)).elim
  · rintro _ s incarnation hash rest order stale ⟨holds, size⟩
    refine ⟨holds.setProjectionOrder ?_, size⟩
    have queues := holds.queues
    rw [order] at queues
    apply queues.popStaleProjection
    rw [← isCurrentProjection_iff, stale]
    exact Bool.false_ne_true
  · rintro _ s incarnation hash rest _ order current ⟨holds, size⟩
    exact ⟨holds.rotateOrEvict order current, (metadataLen_rotateOrEvict _ _ _).trans size⟩

theorem WellFormed.projectionCount_of_empty (formed : WellFormed chain loose store)
    (empty : store.projectionOrder = []) : store.projectionCount = 0 := by
  rw [formed.counted]
  by_contra positive
  obtain ⟨hash, entry, stored, projected⟩ :=
    Table.exists_of_count_pos store.candidates (Nat.pos_of_ne_zero positive)
  have once := formed.queues.projectionsOnce hash _ (record_of_candidate stored)
  have listed : (CandidateEntry.record entry).projected = true := projected
  rw [empty, if_pos listed] at once
  simp at once

theorem WellFormed.projectionCount_trimProjectionCache {inserted : B256} {retired : List B256}
    {after : Store} (formed : WellFormed chain loose store)
    (trimmed : Store.trimProjectionCache inserted store = (.ok retired, after)) :
    after.projectionCount ≤ after.cacheLimit := by
  have whole := (formed.trimProjectionCache inserted).1
  have stopped := trimProjectionLoop_rule (motive := fun _ _ => True) inserted
    (fun _ _ _ _ _ _ _ _ => trivial) (fun _ _ _ _ _ _ _ _ _ => trivial)
    (store.projectionOrder.length * 2 + 3) 0 [] store trivial
  have ended := stopped.of_ok (congrArg Prod.fst trimmed)
  have left : (trimProjectionLoop inserted (store.projectionOrder.length * 2 + 3) 0 [] store).2 =
    after := congrArg Prod.snd trimmed
  rw [left] at ended
  rw [trimmed] at whole
  rcases ended.2 with fits | empty
  · exact fits
  · rw [whole.projectionCount_of_empty empty]
    exact Nat.zero_le _

theorem WellFormed.rotateOrRemove {incarnation : Nat} {hash : B256} {rest : Queue}
    (formed : WellFormed chain loose store)
    (order : store.metadataOrder = (incarnation, hash) :: rest) :
    WellFormed chain loose ((store.setMetadataOrder rest).rotateOrRemove incarnation hash).2 := by
  have queues := formed.queues
  rw [order] at queues
  unfold Store.rotateOrRemove
  split
  · exact formed.setMetadataOrder queues.rotate
  · apply formed.removeUnlisted
    apply (queues.forget fun _ _ => without_eq_some).popStale
    simp [without]

theorem WellFormed.trimMetadata (formed : WellFormed chain loose store) :
    WellFormed chain loose (Store.trimMetadata store).2 := by
  refine ((trimMetadataLoop_rule (motive := fun _ s => WellFormed chain loose s)
    (fun _ s incarnation hash rest order stale holds => ?_)
    (fun _ s incarnation hash rest _ order current holds => holds.rotateOrRemove order)
    _ _ store formed).mono (fun _ _ holds => holds.1) (fun _ _ ⟨_, holds⟩ => holds)).elim
  have queues := holds.queues
  rw [order] at queues
  apply holds.setMetadataOrder
  apply queues.popStale
  rwa [← currentIncarnation_eq]

theorem metadataLen_trimMetadata {retired : List B256} {after : Store}
    (trimmed : Store.trimMetadata store = (.ok retired, after)) :
    after.metadataLen ≤ after.metadataLimit := by
  have stopped := trimMetadataLoop_rule (motive := fun _ _ => True)
    (fun _ _ _ _ _ _ _ _ => trivial) (fun _ _ _ _ _ _ _ _ _ => trivial)
    (store.metadataOrder.length * 2 + 2) [] store trivial
  have ended := stopped.of_ok (congrArg Prod.fst trimmed)
  have left : (trimMetadataLoop (store.metadataOrder.length * 2 + 2) [] store).2 = after :=
    congrArg Prod.snd trimmed
  rw [left] at ended
  exact ended.2

theorem trimProjectionLoop_stops (inserted : B256) (fuel examined : Nat) (retired : List B256)
    (store : Store)
    (enough : store.projectionOrder.length + (store.projectionOrder.length + 1 - examined) < fuel) :
    (trimProjectionLoop inserted fuel examined retired store).1 ≠ .error .diverged := by
  induction fuel generalizing examined retired store with
  | zero => exact absurd enough (Nat.not_lt_zero _)
  | succ fuel ih =>
    unfold trimProjectionLoop
    split
    · cases order : store.projectionOrder with
      | nil => simp
      | cons entry rest =>
        obtain ⟨incarnation, hash⟩ := entry
        rw [order, List.length_cons] at enough
        dsimp only
        split
        · split
          · simp
          · next fair =>
            apply ih
            have length := length_rotateOrEvict incarnation hash (store.setProjectionOrder rest)
            change _ ≤ rest.length + 1 at length
            omega
        · apply ih
          change rest.length + (rest.length + 1 - (examined + 1)) < fuel
          omega
    · simp

theorem trimProjectionCache_stops (inserted : B256) (store : Store) :
    (trimProjectionCache inserted store).1 ≠ .error .diverged := by
  apply trimProjectionLoop_stops
  omega

theorem metadataOrder_removeOne (hash : B256) (terminal : Bool) (store : Store) :
    ∃ keep : Nat × B256 → Bool,
      (store.removeOne hash terminal).2.metadataOrder = store.metadataOrder.filter keep := by
  have same : (store.marked hash terminal).metadataOrder = store.metadataOrder :=
    congrArg Core.metadataOrder (core_marked hash terminal store)
  rw [removeOne_eq, ← same]
  unfold compactOrderQueuesIfNeeded
  dsimp only
  split
  · exact ⟨_, rfl⟩
  · exact ⟨fun _ => true, by simp⟩

theorem metadataOrder_rotateOrRemove {front back : Queue} (incarnation : Nat) (hash : B256)
    (store : Store) (order : store.metadataOrder = front ++ back)
    (rotated : ∀ entry ∈ back, entry.2 = store.canonicalHash) :
    ∃ front' back', (store.rotateOrRemove incarnation hash).2.metadataOrder = front' ++ back' ∧
      (∀ entry ∈ back', entry.2 = store.canonicalHash) ∧ front'.length ≤ front.length := by
  unfold rotateOrRemove
  split
  · next canonical =>
    refine ⟨front, back ++ [(incarnation, hash)], ?_, ?_, Nat.le_refl _⟩
    · dsimp only [setMetadataOrder]
      rw [order, List.append_assoc]
    · intro entry member
      rcases List.mem_append.mp member with old | here
      · exact rotated entry old
      · rw [List.mem_singleton.mp here]
        exact canonical
  · obtain ⟨keep, filtered⟩ := metadataOrder_removeOne hash false store
    refine ⟨front.filter keep, back.filter keep, ?_, ?_, List.length_filter_le _ _⟩
    · rw [filtered, order, List.filter_append]
    · intro entry member
      exact rotated entry (List.mem_of_mem_filter member)

def liveKeys (store : Store) : List B256 := store.candidates.keys ++ store.deferredExecuted.keys

theorem length_liveKeys (store : Store) : store.liveKeys.length = store.metadataLen := by
  unfold liveKeys metadataLen
  rw [List.length_append, ← Table.size_eq_keys_length, ← Table.size_eq_keys_length]

theorem mem_liveKeys {hash : B256} :
    hash ∈ store.liveKeys ↔ ∃ live, store.record hash = some live := by
  unfold liveKeys
  rw [List.mem_append, Table.mem_keys, Table.mem_keys, ← Option.isSome_iff_exists, isSome_record,
    Bool.or_eq_true]

theorem WellFormed.nodup_liveKeys (formed : WellFormed chain loose store) :
    store.liveKeys.Nodup := by
  unfold liveKeys
  rw [List.nodup_append]
  refine ⟨store.candidates.keys_nodup, store.deferredExecuted.keys_nodup, ?_⟩
  rintro hash cached other deferred rfl
  rw [Table.mem_keys] at cached deferred
  obtain ⟨entry, stored⟩ := Option.isSome_iff_exists.mp cached
  simp [formed.disjoint hash entry stored] at deferred

theorem WellFormed.exists_live (formed : WellFormed chain loose store) (excluded : List B256)
    (more : excluded.length < store.metadataLen) :
    ∃ hash live, hash ∉ excluded ∧ store.record hash = some live := by
  by_contra none
  have inside : store.liveKeys ⊆ excluded := by
    intro hash member
    by_contra outside
    obtain ⟨live, stored⟩ := mem_liveKeys.mp member
    exact none ⟨hash, live, outside, stored⟩
  have few := (List.subperm_of_subset formed.nodup_liveKeys inside).length_le
  rw [length_liveKeys] at few
  omega

theorem Queues.mem_metadata {record : B256 → Option Record} {metadata projections : Queue}
    {next : Nat} {hash : B256} {live : Record} (queues : Queues record metadata projections next)
    (stored : record hash = some live) : (live.incarnation, hash) ∈ metadata := by
  rw [← List.count_pos_iff, queues.metadataOnce hash live stored]
  exact Nat.one_pos

theorem WellFormed.metadataLen_le_one (formed : WellFormed chain loose store)
    (only : ∀ entry ∈ store.metadataOrder, entry.2 = store.canonicalHash) :
    store.metadataLen ≤ 1 := by
  by_contra more
  obtain ⟨hash, live, foreign, stored⟩ :=
    formed.exists_live [store.canonicalHash] (Nat.lt_of_not_le more)
  exact foreign (List.mem_singleton.mpr (only _ (formed.queues.mem_metadata stored)))

theorem trimMetadataLoop_returns (fuel : Nat) (retired : List B256) (store : Store)
    (front back : Queue) (formed : WellFormed chain loose store) (room : 1 ≤ store.metadataLimit)
    (order : store.metadataOrder = front ++ back)
    (rotated : ∀ entry ∈ back, entry.2 = store.canonicalHash) (enough : front.length < fuel) :
    ∃ removed after, trimMetadataLoop fuel retired store = (.ok removed, after) := by
  induction fuel generalizing retired store front back with
  | zero => exact absurd enough (Nat.not_lt_zero _)
  | succ fuel ih =>
    unfold trimMetadataLoop
    by_cases exceeds : store.metadataLen > store.metadataLimit
    · rw [if_pos exceeds]
      cases front with
      | nil =>
        rw [List.nil_append] at order
        rw [← order] at rotated
        have few := formed.metadataLen_le_one rotated
        omega
      | cons entry front =>
        obtain ⟨incarnation, hash⟩ := entry
        rw [List.cons_append] at order
        have queues := formed.queues
        rw [order] at queues ⊢
        dsimp only
        rw [List.length_cons] at enough
        by_cases current : store.currentIncarnation hash = some incarnation
        · rw [if_pos (by exact current)]
          obtain ⟨front', back', order', rotated', shorter⟩ := metadataOrder_rotateOrRemove
            incarnation hash (store.setMetadataOrder (front ++ back)) rfl rotated
          have settings := settings_rotateOrRemove incarnation hash
            (store.setMetadataOrder (front ++ back))
          refine ih _ _ front' back' (formed.rotateOrRemove order) ?_ order' ?_ (by omega)
          · exact room.trans_eq (congrArg Settings.metadataLimit settings).symm
          · rw [canonicalHash_of_settings settings]
            exact rotated'
        · rw [if_neg (by exact current)]
          have popped := formed.setMetadataOrder (queues.popStale (by
            rwa [← currentIncarnation_eq]))
          exact ih _ _ front back popped room rfl rotated (by omega)
    · rw [if_neg exceeds]
      exact ⟨_, _, rfl⟩

theorem WellFormed.trimMetadata_returns (formed : WellFormed chain loose store)
    (room : 1 ≤ store.metadataLimit) :
    ∃ removed after, Store.trimMetadata store = (.ok removed, after) := by
  apply trimMetadataLoop_returns _ _ store store.metadataOrder [] formed room
  · exact (List.append_nil _).symm
  · exact fun _ member => absurd member List.not_mem_nil
  · omega

theorem WellFormed.processFinalityBudget (formed : WellFormed chain loose store) (budget : Nat) :
    WellFormed chain loose (store.processFinalityBudget budget).2 := by
  unfold Store.processFinalityBudget
  cases store.finalitySweep with
  | none => exact formed
  | some sweep =>
    have swept := sweepLoop_rule (motive := fun _ _ s => WellFormed chain loose s)
      (fun _ _ s _ _ s' step holds => by
        cases sweepStep_cases step with
        | removed walk => exact holds.removeOne walk.root true
        | _ => exact holds) budget 0 [] sweep (store.setSweep none) (formed.setSweep none)
    dsimp only
    split
    · exact swept
    · exact swept.setSweep _

theorem WellFormed.modifyCandidate (formed : WellFormed chain loose store) (hash : B256)
    (update : CandidateEntry → CandidateEntry)
    (same : ∀ entry, CandidateEntry.record (update entry) = CandidateEntry.record entry)
    (sameTracked : ∀ entry, (update entry).tracked = entry.tracked) :
    WellFormed chain loose { store with candidates := store.candidates.modify hash update } := by
  have projected (entry : CandidateEntry) :
      (update entry).projection.isSome = entry.projection.isSome :=
    congrArg Record.projected (same entry)
  have found (other : B256) (entry : CandidateEntry)
      (stored : (store.candidates.modify hash update).get other = some entry) :
      ∃ old, store.candidates.get other = some old ∧ entry.tracked = old.tracked ∧
        entry.projection.isSome = old.projection.isSome := by
    rw [Table.get_modify] at stored
    split at stored
    · next here =>
      obtain ⟨old, known, rfl⟩ := Option.map_eq_some_iff.mp stored
      exact ⟨old, here ▸ known, sameTracked old, projected old⟩
    · exact ⟨entry, stored, rfl, rfl⟩
  have records : ({ store with candidates := store.candidates.modify hash update } : Store).record =
      store.record := by
    funext other
    unfold record
    dsimp only
    rw [Table.get_modify]
    by_cases here : other = hash
    · rw [if_pos here, here]
      cases store.candidates.get hash with
      | none => rfl
      | some entry => exact congrArg some (same entry)
    · rw [if_neg here]
  constructor
  · intro other entry stored
    obtain ⟨old, known, _⟩ := found other entry stored
    exact formed.disjoint other old known
  · have counted := Table.count_modify store.candidates hash (·.projection.isSome) update
    simp only [projected] at counted
    exact formed.counted.trans (Nat.add_right_cancel counted).symm
  · intro other entry stored
    obtain ⟨old, known, tracked, kept⟩ := found other entry stored
    rw [tracked, kept]
    exact formed.tracked other old known
  · rw [records]
    exact formed.known
  · rw [records]
    exact formed.queues
  · rw [records]
    exact formed.tree
  · exact formed.anchor
  · exact formed.entombed

theorem WellFormed.modifyDeferred (formed : WellFormed chain loose store) (hash : B256)
    (update : DeferredExecuted → DeferredExecuted)
    (same : ∀ deferred, DeferredExecuted.record (update deferred) =
      DeferredExecuted.record deferred) :
    WellFormed chain loose
      { store with deferredExecuted := store.deferredExecuted.modify hash update } := by
  have records : ({ store with
      deferredExecuted := store.deferredExecuted.modify hash update } : Store).record =
      store.record := by
    funext other
    unfold record
    dsimp only
    rw [Table.get_modify]
    by_cases here : other = hash
    · rw [if_pos here, here]
      cases store.deferredExecuted.get hash with
      | none => rfl
      | some deferred => simp [same]
    · rw [if_neg here]
  constructor
  · intro other entry stored
    have absent := formed.disjoint other entry stored
    change (store.deferredExecuted.modify hash update).get other = none
    rw [Table.get_modify]
    split
    · next here => rw [← here, absent]; rfl
    · exact absent
  · exact formed.counted
  · exact formed.tracked
  · rw [records]
    exact formed.known
  · rw [records]
    exact formed.queues
  · rw [records]
    exact formed.tree
  · exact formed.anchor
  · exact formed.entombed

theorem WellFormed.setCanonical (formed : WellFormed chain loose store) (hash : B256) :
    WellFormed chain loose { store with canonicalHash := hash } :=
  ⟨formed.disjoint, formed.counted, formed.tracked, formed.known, formed.queues, formed.tree,
    formed.anchor, formed.entombed⟩

theorem WellFormed.setFinality (formed : WellFormed chain loose store)
    (finalized : Option CheckpointMeta) (sweep : Option FinalitySweep) :
    WellFormed chain loose
      { store with lastFinalized := finalized, finalitySweep := sweep } :=
  ⟨formed.disjoint, formed.counted, formed.tracked, formed.known, formed.queues, formed.tree,
    formed.anchor, formed.entombed⟩

theorem WellFormed.scheduleExpiry (formed : WellFormed chain loose store) (now : Instant)
    (hash : B256) : WellFormed chain loose (store.scheduleExpiry now hash) := by
  unfold Store.scheduleExpiry
  split
  · exact formed
  · split
    · exact formed.modifyCandidate hash _ (fun _ => rfl) fun _ => rfl
    · exact formed.modifyDeferred hash _ fun _ => rfl

end Statefeed.Store
