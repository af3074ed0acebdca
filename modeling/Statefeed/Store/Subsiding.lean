import Statefeed.Store.Head

set_option autoImplicit false

namespace Statefeed.Store

open Effect Effect.Op

structure Subsides (buried : B256 → Prop) (before after : Store) : Prop where
  settings : after.settings = before.settings
  sweep : after.finalitySweep = before.finalitySweep
  records : ∀ hash live, after.record hash = some live → ∃ old, before.record hash = some old ∧
    live.block = old.block ∧ live.incarnation = old.incarnation
  order : ∀ hash live, after.record hash = some live →
    (live.incarnation, hash) ∈ before.metadataOrder → (live.incarnation, hash) ∈ after.metadataOrder
  children : ∀ parent, after.treeChildren parent ⊆ before.treeChildren parent
  tombstones : ∀ hash ∈ after.tombstones, hash ∈ before.tombstones ∨ buried hash

section

variable {buried : B256 → Prop} {store : Store}

theorem Subsides.trans {first second third : Store} (left : Subsides buried first second)
    (right : Subsides buried second third) : Subsides buried first third where
  settings := right.settings.trans left.settings
  sweep := right.sweep.trans left.sweep
  records hash live found := by
    obtain ⟨middle, between, block, incarnation⟩ := right.records hash live found
    obtain ⟨old, stored, block', incarnation'⟩ := left.records hash middle between
    exact ⟨old, stored, block.trans block', incarnation.trans incarnation'⟩
  order hash live found listed := by
    obtain ⟨middle, between, _, incarnation⟩ := right.records hash live found
    apply right.order hash live found
    rw [incarnation] at listed ⊢
    exact left.order hash middle between listed
  children parent := List.Subset.trans (right.children parent) (left.children parent)
  tombstones hash member := by
    rcases right.tombstones hash member with earlier | fresh
    · exact left.tombstones hash earlier
    · exact .inr fresh

theorem Subsides.mono {buried' : B256 → Prop} {before after : Store}
    (subsides : Subsides buried before after) (weaker : ∀ hash, buried hash → buried' hash) :
    Subsides buried' before after where
  settings := subsides.settings
  sweep := subsides.sweep
  records := subsides.records
  order := subsides.order
  children := subsides.children
  tombstones hash member := (subsides.tombstones hash member).imp_right (weaker hash)

theorem subsides_of_same {before after : Store} (settings : after.settings = before.settings)
    (sweep : after.finalitySweep = before.finalitySweep)
    (records : ∀ hash live, after.record hash = some live → ∃ old, before.record hash = some old ∧
      live.block = old.block ∧ live.incarnation = old.incarnation)
    (order : after.metadataOrder = before.metadataOrder)
    (children : after.childrenByParent = before.childrenByParent)
    (tombstones : after.tombstones = before.tombstones) : Subsides buried before after where
  settings := settings
  sweep := sweep
  records := records
  order hash live _ listed := by rw [order]; exact listed
  children parent := by
    unfold treeChildren
    rw [children]
    exact List.Subset.refl _
  tombstones hash member := .inl (by rw [← tombstones]; exact member)

theorem Subsides.refl (store : Store) : Subsides buried store store :=
  subsides_of_same rfl rfl (fun _ live found => ⟨live, found, rfl, rfl⟩) rfl rfl rfl

theorem record_modify {hash : B256} {update : CandidateEntry → CandidateEntry}
    (kept : ∀ entry, (update entry).block = entry.block ∧
      (update entry).incarnation = entry.incarnation) (other : B256) {live : Record}
    (found : ({ store with candidates := store.candidates.modify hash update }).record other =
      some live) :
    ∃ old, store.record other = some old ∧ live.block = old.block ∧
      live.incarnation = old.incarnation := by
  unfold record at found ⊢
  dsimp only at found
  rw [Table.get_modify] at found
  by_cases same : other = hash
  · rw [if_pos same] at found
    rw [same] at found ⊢
    cases stored : store.candidates.get hash with
    | some entry =>
      rw [stored] at found
      cases found
      exact ⟨_, rfl, (kept entry).1, (kept entry).2⟩
    | none =>
      rw [stored] at found
      exact ⟨live, found, rfl, rfl⟩
  · rw [if_neg same] at found
    exact ⟨live, found, rfl, rfl⟩

theorem subsides_modify (store : Store) (hash : B256) (update : CandidateEntry → CandidateEntry)
    (kept : ∀ entry, (update entry).block = entry.block ∧
      (update entry).incarnation = entry.incarnation) :
    Subsides buried store { store with candidates := store.candidates.modify hash update } :=
  subsides_of_same rfl rfl (fun other _ found => record_modify kept other found) rfl rfl rfl

theorem subsides_scheduleExpiry (now : Instant) (hash : B256) (store : Store) :
    Subsides buried store (store.scheduleExpiry now hash) := by
  unfold scheduleExpiry
  split
  · exact .refl store
  · split
    · exact subsides_modify store hash _ fun _ => ⟨rfl, rfl⟩
    · refine subsides_of_same rfl rfl (fun other live found => ?_) rfl rfl rfl
      unfold record at found ⊢
      dsimp only at found
      cases cached : store.candidates.get other with
      | some entry =>
        rw [cached] at found
        exact ⟨live, found, rfl, rfl⟩
      | none =>
        rw [cached] at found
        dsimp only at found ⊢
        rw [Table.get_modify] at found
        by_cases same : other = hash
        · rw [if_pos same, ← same] at found
          cases stored : store.deferredExecuted.get other with
          | none => rw [stored] at found; cases found
          | some entry =>
            rw [stored] at found
            cases found
            exact ⟨_, rfl, rfl, rfl⟩
        · rw [if_neg same] at found
          exact ⟨live, found, rfl, rfl⟩

theorem subsides_rotateOrEvict (incarnation : Nat) (hash : B256) (store : Store) :
    Subsides buried store (store.rotateOrEvict incarnation hash).2 := by
  unfold rotateOrEvict
  split
  · exact subsides_of_same rfl rfl (fun _ live found => ⟨live, found, rfl, rfl⟩) rfl rfl rfl
  · have evicted : Subsides buried store _ := subsides_modify store hash
      (fun entry => { entry with projection := none, tracked := false }) fun _ => ⟨rfl, rfl⟩
    exact evicted.trans
      (subsides_of_same rfl rfl (fun _ live found => ⟨live, found, rfl, rfl⟩) rfl rfl rfl)

theorem subsides_trimProjectionCache (inserted : B256) (store : Store) :
    Subsides buried store (trimProjectionCache inserted store).2 := by
  have popped (s : Store) (rest : List (Nat × B256)) : Subsides buried s (s.setProjectionOrder rest) :=
    subsides_of_same rfl rfl (fun _ live found => ⟨live, found, rfl, rfl⟩) rfl rfl rfl
  exact ((trimProjectionLoop_rule (motive := fun _ s => Subsides buried store s) inserted
    (fun _ s _ _ rest _ _ kept => kept.trans (popped s rest))
    (fun _ s _ _ rest _ _ _ kept =>
      (kept.trans (popped s rest)).trans (subsides_rotateOrEvict _ _ _)) _ _ _ store (.refl store)).mono
    (fun _ _ holds => holds.1) (fun _ _ ⟨_, holds⟩ => holds)).elim

theorem subsides_of_projections {inserted : B256} {store after : Store}
    {result : Except Error (List B256)} (trimmed : trimProjectionCache inserted store = (result, after)) :
    Subsides buried store after := by
  have subsides : Subsides buried store (trimProjectionCache inserted store).2 :=
    subsides_trimProjectionCache inserted store
  rwa [trimmed] at subsides

theorem treeChildren_removeOne (hash parent : B256) (terminal : Bool) (store : Store) :
    (store.removeOne hash terminal).2.treeChildren parent ⊆ store.treeChildren parent := by
  unfold treeChildren
  rw [childrenByParent_removeOne]
  unfold removeRecord
  split
  · rw [childrenByParent_removeChild]
    intro child member
    exact (Table.mem_listed_detach.mp member).1
  · exact List.Subset.refl _

theorem mem_metadataOrder_removeOne {hash other : B256} {terminal : Bool} {live : Record}
    (found : (store.removeOne hash terminal).2.record other = some live)
    (listed : (live.incarnation, other) ∈ store.metadataOrder) :
    (live.incarnation, other) ∈ (store.removeOne hash terminal).2.metadataOrder := by
  have order : (store.marked hash terminal).metadataOrder = store.metadataOrder :=
    congrArg Core.metadataOrder (core_marked hash terminal store)
  have current : (store.marked hash terminal).currentIncarnation other = some live.incarnation := by
    have same : (store.removeOne hash terminal).2.currentIncarnation other =
        (store.marked hash terminal).currentIncarnation other := rfl
    rw [← same, currentIncarnation_eq, found]
    rfl
  rw [removeOne_eq]
  unfold compactOrderQueuesIfNeeded
  dsimp only
  rw [← order] at listed
  split
  · exact List.mem_filter.mpr ⟨listed, decide_eq_true current⟩
  · exact listed

theorem subsides_removeOne (hash : B256) (terminal : Bool) (store : Store)
    (doomed : terminal = true → buried hash) :
    Subsides buried store (store.removeOne hash terminal).2 where
  settings := settings_removeOne hash terminal store
  sweep := finalitySweep_removeOne hash terminal store
  records other live found := by
    rw [record_removeOne] at found
    exact ⟨live, without_eq_some found, rfl, rfl⟩
  order other live found := mem_metadataOrder_removeOne found
  children parent := treeChildren_removeOne hash parent terminal store
  tombstones other member := by
    cases terminal with
    | false =>
      change other ∈ (store.removeRecord hash).tombstones at member
      rw [(tombs_removeRecord hash store).1] at member
      exact .inl member
    | true =>
      rcases mem_tombstones_removeOne member with same | earlier
      · exact .inr (same ▸ doomed rfl)
      · exact .inl earlier

theorem subsides_removeEach (hashes expired : List B256) (store : Store) :
    Subsides buried store (removeEach hashes expired store).2 :=
  removeEach_rule (motive := fun _ s => Subsides buried store s)
    (fun hash _ _ s kept => kept.trans (subsides_removeOne hash false s nofun)) expired store
    (.refl store)

theorem subsides_trimMetadata (store : Store) :
    Subsides buried store (trimMetadata store).2 := by
  refine ((trimMetadataLoop_rule (motive := fun _ s => Subsides buried store s) ?_ ?_ _ _ store
    (.refl store)).mono (fun _ _ holds => holds.1) (fun _ _ ⟨_, holds⟩ => holds)).elim
  · intro _ s incarnation hash rest order stale kept
    refine kept.trans ⟨rfl, rfl, fun _ live found => ⟨live, found, rfl, rfl⟩, ?_,
      fun _ => List.Subset.refl _, fun _ => .inl⟩
    intro other live found listed
    rw [order] at listed
    rcases List.mem_cons.mp listed with same | later
    · cases same
      rw [currentIncarnation_eq, show s.record hash = some live from found] at stale
      exact absurd rfl stale
    · exact later
  · intro _ s incarnation hash rest _ order _ kept
    refine kept.trans ?_
    unfold rotateOrRemove
    split
    · refine ⟨rfl, rfl, fun _ live found => ⟨live, found, rfl, rfl⟩, ?_,
        fun _ => List.Subset.refl _, fun _ => .inl⟩
      intro other live _ listed
      rw [order] at listed
      change _ ∈ rest ++ [(incarnation, hash)]
      rcases List.mem_cons.mp listed with same | later
      · exact List.mem_append_right _ (List.mem_singleton.mpr same)
      · exact List.mem_append_left _ later
    · have removed : Subsides buried (s.setMetadataOrder rest) _ :=
        subsides_removeOne hash false (s.setMetadataOrder rest) nofun
      refine ⟨removed.settings, removed.sweep, removed.records, ?_, removed.children,
        removed.tombstones⟩
      intro other live found listed
      rw [order] at listed
      apply removed.order other live found
      rcases List.mem_cons.mp listed with same | later
      · cases same
        dsimp only at found
        rw [record_removeOne, without, if_pos rfl] at found
        cases found
      · exact later

theorem subsides_of_metadata {store after : Store} {result : Except Error (List B256)}
    (trimmed : trimMetadata store = (result, after)) : Subsides buried store after := by
  have subsides : Subsides buried store (trimMetadata store).2 := subsides_trimMetadata store
  rwa [trimmed] at subsides

theorem subsides_removeCandidateTree (root : B256) (store : Store)
    (doomed : buried root)
    (inherited : ∀ parent child, child ∈ store.treeChildren parent → buried parent → buried child) :
    Subsides buried store (store.removeCandidateTree root true) := by
  by_cases canonical : root = store.canonicalHash
  · unfold removeCandidateTree
    rw [if_pos canonical]
    exact .refl store
  · refine (removeCandidateTree_rule (motive := fun pending s => Subsides buried store s ∧
      ∀ hash ∈ pending, buried hash) true ?_ root store canonical
      ⟨.refl store, by simpa using doomed⟩).1
    rintro hash pending s ⟨kept, all⟩
    have here := all hash List.mem_cons_self
    refine ⟨kept.trans ?_, ?_⟩
    · have detached : Subsides buried s (s.setChildren (s.childrenByParent.erase hash)) := by
        refine ⟨rfl, rfl, fun _ live found => ⟨live, found, rfl, rfl⟩, fun _ _ _ => id, ?_,
          fun _ => .inl⟩
        intro parent child member
        exact (Table.mem_listed_erase.mp member).1
      exact detached.trans (subsides_removeOne hash true _ fun _ => here)
    · intro other member
      rcases List.mem_append.mp member with child | waiting
      · exact inherited hash other (kept.children hash (List.mem_reverse.mp child)) here
      · exact all other (List.mem_cons_of_mem _ waiting)

end

end Statefeed.Store
