import Statefeed.Store.Records

set_option autoImplicit false

namespace Statefeed.Store

structure Record where
  incarnation : Nat
  block : BlockMeta
  projected : Bool

def CandidateEntry.record (entry : CandidateEntry) : Record where
  incarnation := entry.incarnation
  block := entry.block
  projected := entry.projection.isSome

def DeferredExecuted.record (deferred : DeferredExecuted) : Record where
  incarnation := deferred.incarnation
  block := deferred.block
  projected := false

def record (store : Store) (hash : B256) : Option Record :=
  match store.candidates.get hash with
  | some entry => some (CandidateEntry.record entry)
  | none => (store.deferredExecuted.get hash).map DeferredExecuted.record

theorem record_of_candidate {store : Store} {hash : B256} {entry : CandidateEntry}
    (stored : store.candidates.get hash = some entry) :
    store.record hash = some (CandidateEntry.record entry) := by
  unfold record
  rw [stored]

theorem any_projected (store : Store) (hash : B256) :
    (store.candidates.get hash).any (·.projection.isSome) =
      (store.record hash).any Record.projected := by
  unfold record
  cases store.candidates.get hash with
  | some => rfl
  | none => cases store.deferredExecuted.get hash <;> rfl

theorem isSome_record (store : Store) (hash : B256) :
    (store.record hash).isSome =
      ((store.candidates.get hash).isSome || (store.deferredExecuted.get hash).isSome) := by
  unfold record
  cases store.candidates.get hash with
  | some => rfl
  | none => cases store.deferredExecuted.get hash <;> rfl

theorem currentIncarnation_eq (store : Store) (hash : B256) :
    store.currentIncarnation hash = (store.record hash).map Record.incarnation := by
  unfold currentIncarnation record
  cases store.candidates.get hash with
  | some => rfl
  | none => cases store.deferredExecuted.get hash <;> rfl

theorem blockMeta_eq (store : Store) (hash : B256) :
    store.blockMeta hash = (store.record hash).map Record.block := by
  unfold blockMeta record
  cases store.candidates.get hash with
  | some => rfl
  | none => cases store.deferredExecuted.get hash <;> rfl

theorem isCurrentProjection_iff (store : Store) (incarnation : Nat) (hash : B256) :
    store.isCurrentProjection incarnation hash = true ↔
      ∃ record, store.record hash = some record ∧ record.incarnation = incarnation ∧
        record.projected = true := by
  unfold isCurrentProjection record
  cases store.candidates.get hash with
  | some entry => simp [CandidateEntry.record]
  | none => cases store.deferredExecuted.get hash <;> simp [DeferredExecuted.record]

def without (hash : B256) (record : B256 → Option Record) (other : B256) : Option Record :=
  if other = hash then none else record other

theorem without_eq_some {record : B256 → Option Record} {hash other : B256} {live : Record}
    (found : without hash record other = some live) : record other = some live := by
  unfold without at found
  split at found
  · cases found
  · exact found

theorem record_removeOne (hash : B256) (terminal : Bool) (store : Store) :
    (store.removeOne hash terminal).2.record = without hash store.record := by
  funext other
  unfold record without
  rw [candidates_removeOne, deferredExecuted_removeOne]
  by_cases same : other = hash <;> simp [same]

abbrev Queue := List (Nat × B256)

structure Queues (record : B256 → Option Record) (metadata projections : Queue) (next : Nat) :
    Prop where
  fresh : ∀ hash live, record hash = some live → live.incarnation < next
  metadataFresh : ∀ entry ∈ metadata, entry.1 < next
  projectionsFresh : ∀ entry ∈ projections, entry.1 < next
  metadataOnce : ∀ hash live, record hash = some live →
    metadata.count (live.incarnation, hash) = 1
  projectionsOnce : ∀ hash live, record hash = some live →
    projections.count (live.incarnation, hash) = if live.projected then 1 else 0

section

variable {record after : B256 → Option Record} {metadata projections : Queue} {next : Nat}

theorem Queues.forget (queues : Queues record metadata projections next)
    (kept : ∀ hash live, after hash = some live → record hash = some live) :
    Queues after metadata projections next where
  fresh hash live stored := queues.fresh hash live (kept hash live stored)
  metadataFresh := queues.metadataFresh
  projectionsFresh := queues.projectionsFresh
  metadataOnce hash live stored := queues.metadataOnce hash live (kept hash live stored)
  projectionsOnce hash live stored := queues.projectionsOnce hash live (kept hash live stored)

theorem Queues.update (queues : Queues record metadata projections next)
    (kept : ∀ hash live, after hash = some live → ∃ old, record hash = some old ∧
      old.incarnation = live.incarnation ∧ old.projected = live.projected) :
    Queues after metadata projections next := by
  constructor
  · intro hash live stored
    obtain ⟨old, known, incarnation, _⟩ := kept hash live stored
    exact incarnation ▸ queues.fresh hash old known
  · exact queues.metadataFresh
  · exact queues.projectionsFresh
  · intro hash live stored
    obtain ⟨old, known, incarnation, _⟩ := kept hash live stored
    exact incarnation ▸ queues.metadataOnce hash old known
  · intro hash live stored
    obtain ⟨old, known, incarnation, projected⟩ := kept hash live stored
    rw [← incarnation, ← projected]
    exact queues.projectionsOnce hash old known

theorem Queues.thin (queues : Queues record metadata projections next)
    {thinned thinnedProjections : Queue}
    (fewer : ∀ entry ∈ thinned, entry ∈ metadata)
    (fewerProjections : ∀ entry ∈ thinnedProjections, entry ∈ projections)
    (same : ∀ hash live, record hash = some live →
      thinned.count (live.incarnation, hash) = metadata.count (live.incarnation, hash))
    (sameProjections : ∀ hash live, record hash = some live →
      thinnedProjections.count (live.incarnation, hash) =
        projections.count (live.incarnation, hash)) :
    Queues record thinned thinnedProjections next where
  fresh := queues.fresh
  metadataFresh entry member := queues.metadataFresh entry (fewer entry member)
  projectionsFresh entry member := queues.projectionsFresh entry (fewerProjections entry member)
  metadataOnce hash live stored := (same hash live stored).trans
    (queues.metadataOnce hash live stored)
  projectionsOnce hash live stored := (sameProjections hash live stored).trans
    (queues.projectionsOnce hash live stored)

theorem Queues.popStale {incarnation : Nat} {hash : B256} {rest : Queue}
    (queues : Queues record ((incarnation, hash) :: rest) projections next)
    (stale : (record hash).map Record.incarnation ≠ some incarnation) :
    Queues record rest projections next := by
  refine queues.thin (fun _ => List.mem_cons_of_mem _) (fun _ => id) ?_ (fun _ _ _ => rfl)
  intro other live stored
  refine (List.count_cons_of_ne ?_).symm
  rintro ⟨⟩
  simp [stored] at stale

theorem Queues.popStaleProjection {incarnation : Nat} {hash : B256} {rest : Queue}
    (queues : Queues record metadata ((incarnation, hash) :: rest) next)
    (stale : ¬ ∃ live, record hash = some live ∧ live.incarnation = incarnation ∧
      live.projected = true) :
    Queues record metadata rest next := by
  refine queues.thin (fun _ => id) (fun _ => List.mem_cons_of_mem _) (fun _ _ _ => rfl) ?_
  intro other live stored
  have once := queues.projectionsOnce other live stored
  by_cases here : (incarnation, hash) = (live.incarnation, other)
  · -- The entry belongs to a live record, so the record has a projection.
    cases here
    have projected : live.projected = true := by
      by_contra unprojected
      rw [if_neg unprojected, List.count_cons_self] at once
      omega
    exact absurd ⟨live, stored, rfl, projected⟩ stale
  · exact (List.count_cons_of_ne here).symm

theorem Queues.rotate {entry : Nat × B256} {rest : Queue}
    (queues : Queues record (entry :: rest) projections next) :
    Queues record (rest ++ [entry]) projections next := by
  refine queues.thin ?_ (fun _ => id) ?_ (fun _ _ _ => rfl)
  · intro other member
    simpa [or_comm] using member
  · intro hash live _
    exact (List.perm_append_singleton entry rest).count_eq _

theorem Queues.rotateProjection {entry : Nat × B256} {rest : Queue}
    (queues : Queues record metadata (entry :: rest) next) :
    Queues record metadata (rest ++ [entry]) next := by
  refine queues.thin (fun _ => id) ?_ (fun _ _ _ => rfl) ?_
  · intro other member
    simpa [or_comm] using member
  · intro hash live _
    exact (List.perm_append_singleton entry rest).count_eq _

theorem Queues.replace {hash : B256} {live : Record} {metadata' projections' : Queue} {next' : Nat}
    (queues : Queues record metadata projections next)
    (replaced : ∀ other, after other = if other = hash then some live else record other)
    (later : next ≤ next') (fresh : live.incarnation < next')
    (metadataFrom : ∀ entry ∈ metadata', entry ∈ metadata ∨ entry = (live.incarnation, hash))
    (projectionsFrom : ∀ entry ∈ projections',
      entry ∈ projections ∨ entry = (live.incarnation, hash))
    (metadataElsewhere : ∀ other incarnation, other ≠ hash →
      metadata'.count (incarnation, other) = metadata.count (incarnation, other))
    (projectionsElsewhere : ∀ other incarnation, other ≠ hash →
      projections'.count (incarnation, other) = projections.count (incarnation, other))
    (metadataHere : metadata'.count (live.incarnation, hash) = 1)
    (projectionsHere : projections'.count (live.incarnation, hash) =
      if live.projected then 1 else 0) :
    Queues after metadata' projections' next' := by
  have known : ∀ other found, after other = some found →
      other = hash ∧ found = live ∨ other ≠ hash ∧ record other = some found := by
    intro other found stored
    rw [replaced] at stored
    by_cases same : other = hash
    · rw [if_pos same] at stored
      exact .inl ⟨same, (Option.some.inj stored).symm⟩
    · rw [if_neg same] at stored
      exact .inr ⟨same, stored⟩
  constructor
  · intro other found stored
    rcases known other found stored with ⟨rfl, rfl⟩ | ⟨_, stored⟩
    · exact fresh
    · exact (queues.fresh other found stored).trans_le later
  · intro entry member
    rcases metadataFrom entry member with old | rfl
    · exact (queues.metadataFresh entry old).trans_le later
    · exact fresh
  · intro entry member
    rcases projectionsFrom entry member with old | rfl
    · exact (queues.projectionsFresh entry old).trans_le later
    · exact fresh
  · intro other found stored
    rcases known other found stored with ⟨rfl, rfl⟩ | ⟨different, stored⟩
    · exact metadataHere
    · rw [metadataElsewhere other _ different]
      exact queues.metadataOnce other found stored
  · intro other found stored
    rcases known other found stored with ⟨rfl, rfl⟩ | ⟨different, stored⟩
    · exact projectionsHere
    · rw [projectionsElsewhere other _ different]
      exact queues.projectionsOnce other found stored

theorem count_append_elsewhere (queue : Queue) {incarnation other : Nat} {hash elsewhere : B256}
    (different : elsewhere ≠ hash) :
    (queue ++ [(incarnation, hash)]).count (other, elsewhere) = queue.count (other, elsewhere) := by
  rw [List.count_append, Nat.add_eq_left, List.count_eq_zero]
  simp [different]

theorem Queues.evict {hash : B256} {live : Record} {rest : Queue}
    (queues : Queues record metadata ((live.incarnation, hash) :: rest) next)
    (stored : record hash = some live)
    (evicted : ∀ other, after other =
      if other = hash then some { live with projected := false } else record other) :
    Queues after metadata rest next := by
  refine queues.replace evicted (Nat.le_refl _) (queues.fresh hash live stored)
    (fun _ => .inl) (fun _ member => .inl (List.mem_cons_of_mem _ member)) (fun _ _ _ => rfl) ?_
    (queues.metadataOnce hash live stored) ?_
  · intro other incarnation different
    refine (List.count_cons_of_ne fun equal => different ?_).symm
    exact (congrArg Prod.snd equal).symm
  · have once := queues.projectionsOnce hash live stored
    rw [List.count_cons_self] at once
    have atMost : (if live.projected = true then 1 else 0) ≤ 1 := by split <;> omega
    simp only [Bool.false_eq_true, if_false]
    omega

theorem Queues.gain {hash : B256} {live : Record} {block : BlockMeta}
    (queues : Queues record metadata projections next) (stored : record hash = some live)
    (unprojected : live.projected = false)
    (gained : ∀ other, after other =
      if other = hash then some { live with block := block, projected := true }
      else record other) :
    Queues after metadata (projections ++ [(live.incarnation, hash)]) next := by
  refine queues.replace gained (Nat.le_refl _) (queues.fresh hash live stored)
    (fun _ => .inl) ?_ (fun _ _ _ => rfl) (fun _ _ => count_append_elsewhere projections)
    (queues.metadataOnce hash live stored) ?_
  · intro entry member
    simpa using member
  · have none := queues.projectionsOnce hash live stored
    simp only [unprojected, Bool.false_eq_true, if_false] at none
    simp [none]

theorem Queues.enlist {hash : B256} {block : BlockMeta}
    (queues : Queues record metadata projections next)
    (enlisted : ∀ other, after other =
      if other = hash then some ⟨next, block, false⟩ else record other) :
    Queues after (metadata ++ [(next, hash)]) projections (next + 1) := by
  -- No entry can carry an incarnation that was not handed out yet.
  have unused : ∀ queue : Queue, (∀ entry ∈ queue, entry.1 < next) →
      queue.count (next, hash) = 0 := by
    intro queue older
    rw [List.count_eq_zero]
    intro member
    exact (older _ member).false
  refine queues.replace enlisted (Nat.le_succ _) (Nat.lt_succ_self _) ?_ (fun _ => .inl)
    (fun _ _ => count_append_elsewhere metadata) (fun _ _ _ => rfl) ?_ ?_
  · intro entry member
    simpa using member
  · simp [unused metadata queues.metadataFresh]
  · simp [unused projections queues.projectionsFresh]

end

theorem queues_compact (store : Store) {next : Nat}
    (queues : Queues store.record store.metadataOrder store.projectionOrder next) :
    Queues store.record store.compactOrderQueuesIfNeeded.metadataOrder
      store.compactOrderQueuesIfNeeded.projectionOrder next := by
  unfold compactOrderQueuesIfNeeded
  refine queues.thin ?_ ?_ ?_ ?_
  · intro entry member
    dsimp only at member
    split at member
    · exact List.mem_of_mem_filter member
    · exact member
  · intro entry member
    dsimp only at member
    split at member
    · exact List.mem_of_mem_filter member
    · exact member
  · intro hash live stored
    dsimp only
    split
    · apply List.count_filter
      simp [currentIncarnation_eq, stored]
    · rfl
  · intro hash live stored
    dsimp only
    split
    · by_cases projected : live.projected = true
      · apply List.count_filter
        rw [isCurrentProjection_iff]
        exact ⟨live, stored, rfl, projected⟩
      · have none := queues.projectionsOnce hash live stored
        rw [if_neg projected] at none
        rw [none, List.count_eq_zero]
        intro member
        exact List.count_eq_zero.mp none (List.mem_of_mem_filter member)
    · rfl

structure Tree (record : B256 → Option Record) (children : Table B256 (List B256)) (anchor : Nat)
    (loose : B256 → Prop) : Prop where
  proper : ∀ parent listed, children.get parent = some listed → listed ≠ [] ∧ listed.Nodup
  live : ∀ parent listed child, children.get parent = some listed → child ∈ listed →
    ∃ live, record child = some live ∧ live.block.parentHash = parent
  listed : ∀ hash live, record hash = some live → live.incarnation ≠ anchor → ¬ loose hash →
    ∃ listed, children.get live.block.parentHash = some listed ∧ hash ∈ listed

section

variable {record after : B256 → Option Record} {children : Table B256 (List B256)} {anchor : Nat}
  {loose : B256 → Prop}

theorem Tree.refresh {hash : B256} {old new : Record} (tree : Tree record children anchor loose)
    (stored : record hash = some old)
    (refreshed : ∀ other, after other = if other = hash then some new else record other)
    (sameBlock : new.block = old.block) (sameIncarnation : new.incarnation = old.incarnation) :
    Tree after children anchor loose := by
  constructor
  · exact tree.proper
  · intro parent listed child present member
    obtain ⟨live, known, parented⟩ := tree.live parent listed child present member
    by_cases same : child = hash
    · subst same
      rw [stored] at known
      cases known
      exact ⟨new, by rw [refreshed, if_pos rfl], by rw [sameBlock]; exact parented⟩
    · exact ⟨live, by rw [refreshed, if_neg same]; exact known, parented⟩
  · intro other live known foreign bound
    rw [refreshed] at known
    by_cases same : other = hash
    · subst same
      rw [if_pos rfl] at known
      cases known
      rw [sameBlock]
      exact tree.listed other old stored (sameIncarnation ▸ foreign) bound
    · rw [if_neg same] at known
      exact tree.listed other live known foreign bound

theorem Tree.live_of_mem (tree : Tree record children anchor loose) {parent child : B256}
    (member : child ∈ children.listed parent) :
    ∃ live, record child = some live ∧ live.block.parentHash = parent := by
  obtain ⟨listed, present, inside⟩ := Table.mem_listed.mp member
  exact tree.live parent listed child present inside

theorem tree_of_listed (tidy : children.Tidy)
    (live : ∀ parent child, child ∈ children.listed parent →
      ∃ live, record child = some live ∧ live.block.parentHash = parent)
    (listed : ∀ hash live, record hash = some live → live.incarnation ≠ anchor → ¬ loose hash →
      hash ∈ children.listed live.block.parentHash) : Tree record children anchor loose where
  proper := tidy
  live parent _ child present member :=
    live parent child (Table.mem_listed.mpr ⟨_, present, member⟩)
  listed hash found known foreign bound :=
    Table.mem_listed.mp (listed hash found known foreign bound)

theorem Tree.mem_listed (tree : Tree record children anchor loose) {hash : B256} {live : Record}
    (known : record hash = some live) (foreign : live.incarnation ≠ anchor) (bound : ¬ loose hash) :
    hash ∈ children.listed live.block.parentHash :=
  Table.mem_listed.mpr (tree.listed hash live known foreign bound)

theorem Tree.detach (tree : Tree record children anchor loose) (hash : B256) :
    Tree record (children.erase hash) anchor
      (fun other => other ∈ (children.get hash).getD [] ∨ loose other) := by
  refine tree_of_listed (Table.Tidy.erase tree.proper hash) ?_ ?_
  · intro parent child member
    exact tree.live_of_mem (Table.mem_listed_erase.mp member).1
  · intro other live known foreign bound
    rw [not_or] at bound
    have member := tree.mem_listed known foreign bound.2
    refine Table.mem_listed_erase.mpr ⟨member, fun same => bound.1 ?_⟩
    rw [same] at member
    exact member

theorem Tree.forgetLoose {loose' : B256 → Prop} (tree : Tree record children anchor loose)
    (gone : ∀ hash, loose hash → ¬ loose' hash → record hash = none) :
    Tree record children anchor loose' where
  proper := tree.proper
  live := tree.live
  listed hash live known foreign bound := by
    refine tree.listed hash live known foreign fun wasLoose => ?_
    rw [gone hash wasLoose bound] at known
    cases known

end

theorem childrenByParent_addChild {store : Store} {parent child : B256}
    (fresh : child ∉ store.childrenByParent.listed parent) :
    (store.addChild parent child).childrenByParent =
      store.childrenByParent.insert parent (store.childrenByParent.listed parent ++ [child]) :=
  congrArg (store.childrenByParent.insert parent) (if_neg fresh)

theorem tree_removeChild {store : Store} {anchor : Nat} {loose : B256 → Prop} {hash : B256}
    {gone : Record} (tree : Tree store.record store.childrenByParent anchor loose)
    (stored : store.record hash = some gone) :
    Tree (without hash store.record)
      (store.removeChild gone.block.parentHash hash).childrenByParent anchor loose := by
  rw [childrenByParent_removeChild]
  refine tree_of_listed (Table.Tidy.detach tree.proper _ _) ?_ ?_
  · intro parent child member
    obtain ⟨member, kept⟩ := Table.mem_listed_detach.mp member
    obtain ⟨live, found, parented⟩ := tree.live_of_mem member
    refine ⟨live, ?_, parented⟩
    rw [without, if_neg]
    · exact found
    · rintro rfl
      rw [stored] at found
      cases found
      exact kept ⟨parented.symm, rfl⟩
  · intro other live known foreign bound
    rw [without] at known
    by_cases here : other = hash
    · rw [if_pos here] at known
      cases known
    · rw [if_neg here] at known
      exact Table.mem_listed_detach.mpr
        ⟨tree.mem_listed known foreign bound, fun same => here same.2⟩

theorem tree_addChild {store : Store} {after : B256 → Option Record} {anchor : Nat}
    {loose : B256 → Prop} {hash : B256} {new : Record}
    (tree : Tree store.record store.childrenByParent anchor loose)
    (unknown : store.record hash = none)
    (added : ∀ other, after other = if other = hash then some new else store.record other) :
    Tree after (store.addChild new.block.parentHash hash).childrenByParent anchor loose := by
  have unlisted (parent : B256) : hash ∉ store.childrenByParent.listed parent := by
    intro member
    obtain ⟨live, found, _⟩ := tree.live_of_mem member
    rw [unknown] at found
    cases found
  rw [childrenByParent_addChild (unlisted _)]
  refine tree_of_listed (Table.Tidy.attach tree.proper (unlisted _)) ?_ ?_
  · intro parent child member
    rcases Table.mem_listed_attach.mp member with old | ⟨above, here⟩
    · obtain ⟨live, found, parented⟩ := tree.live_of_mem old
      refine ⟨live, ?_, parented⟩
      rw [added, if_neg]
      · exact found
      · rintro rfl
        exact unlisted parent old
    · exact ⟨new, by rw [added, if_pos here], above.symm⟩
  · intro other live known foreign bound
    rw [added] at known
    by_cases here : other = hash
    · rw [if_pos here] at known
      cases known
      exact Table.mem_listed_attach.mpr (.inr ⟨rfl, here⟩)
    · rw [if_neg here] at known
      exact Table.mem_listed_attach.mpr (.inl (tree.mem_listed known foreign bound))

end Statefeed.Store
