import Statefeed.Library.Children
import Statefeed.Library.Forest
import Statefeed.Model.Tracker

set_option autoImplicit false

namespace Statefeed.Dump.CandidateTracker

variable {tracker : CandidateTracker}

def childrenOf (tracker : CandidateTracker) (parent : Bytes) : List Bytes :=
  tracker.children.listed parent

theorem children_removeChild (parent child : Bytes) :
    (tracker.removeChild parent child).children = tracker.children.detach parent child := by
  unfold removeChild Table.detach
  cases tracker.children.get parent <;> rfl

theorem mem_childrenOf_removeChild {parent child above other : Bytes} :
    other ∈ (tracker.removeChild parent child).childrenOf above ↔
      other ∈ tracker.childrenOf above ∧ ¬ (above = parent ∧ other = child) := by
  unfold childrenOf
  rw [children_removeChild]
  exact Table.mem_listed_detach

theorem mem_childrenOf_pushChild {parent child above other : Bytes} :
    other ∈ (tracker.pushChild parent child).childrenOf above ↔
      other ∈ tracker.childrenOf above ∨ above = parent ∧ other = child := by
  unfold pushChild childrenOf Table.listed
  dsimp only [setChildren]
  rw [Table.get_insert]
  by_cases same : above = parent
  · subst same
    simp
  · simp [same]

@[simp] theorem parents_removeChild (parent child : Bytes) :
    (tracker.removeChild parent child).parents = tracker.parents := by
  unfold removeChild
  split <;> rfl

@[simp] theorem limit_removeChild (parent child : Bytes) :
    (tracker.removeChild parent child).limit = tracker.limit := by
  unfold removeChild
  split <;> rfl

def Linked (tracker : CandidateTracker) : Prop :=
  ∀ parent child, child ∈ tracker.childrenOf parent ↔ tracker.parents.get child = some parent

theorem get_removeExact (hash other : Bytes) :
    (tracker.removeExact hash).parents.get other =
      if other = hash then none else tracker.parents.get other := by
  unfold removeExact
  cases stored : tracker.parents.get hash with
  | some parent => simp
  | none =>
    by_cases same : other = hash
    · simp [same, stored]
    · simp [same]

@[simp] theorem limit_removeExact (hash : Bytes) :
    (tracker.removeExact hash).limit = tracker.limit := by
  unfold removeExact
  split <;> simp

theorem mem_childrenOf_removeExact {hash parent child : Bytes} :
    child ∈ (tracker.removeExact hash).childrenOf parent ↔
      child ∈ tracker.childrenOf parent ∧
        ¬ (tracker.parents.get hash = some parent ∧ child = hash) := by
  unfold removeExact
  cases stored : tracker.parents.get hash with
  | some above =>
    change child ∈ (removeChild above hash _).childrenOf parent ↔ _
    rw [mem_childrenOf_removeChild]
    change child ∈ tracker.childrenOf parent ∧ _ ↔ _
    rw [Option.some.injEq, eq_comm (a := above)]
  | none => simp [childrenOf]

theorem Linked.removeExact (linked : tracker.Linked) (hash : Bytes) :
    (tracker.removeExact hash).Linked := by
  intro parent child
  rw [mem_childrenOf_removeExact, get_removeExact, linked parent child]
  by_cases same : child = hash
  · subst same
    simp
  · simp [same]

theorem get_place (hash parent other : Bytes) :
    (tracker.place hash parent).parents.get other =
      if other = hash then some parent else tracker.parents.get other := by
  unfold place
  dsimp only
  split
  · split
    · change (removeChild _ hash _).parents.get other = _
      rw [parents_removeChild, Table.get_insert]
    · exact Table.get_insert _ _ _ _
  · exact Table.get_insert _ _ _ _

@[simp] theorem limit_place (hash parent : Bytes) :
    (tracker.place hash parent).limit = tracker.limit := by
  unfold place
  dsimp only
  split
  · split
    · exact limit_removeChild _ _
    · rfl
  · rfl

theorem mem_childrenOf_place (linked : tracker.Linked) {hash parent above child : Bytes} :
    child ∈ (tracker.place hash parent).childrenOf above ↔
      if child = hash then above = parent else child ∈ tracker.childrenOf above := by
  unfold place
  dsimp only
  cases stored : tracker.parents.get hash with
  | none =>
    change child ∈ (pushChild parent hash _).childrenOf above ↔ _
    rw [mem_childrenOf_pushChild]
    change child ∈ tracker.childrenOf above ∨ _ ↔ _
    by_cases same : child = hash
    · subst same
      simp [linked above child, stored]
    · simp [same]
  | some previous =>
    dsimp only
    by_cases moved : previous ≠ parent
    · rw [if_pos moved, mem_childrenOf_pushChild, mem_childrenOf_removeChild]
      change child ∈ tracker.childrenOf above ∧ _ ∨ _ ↔ _
      by_cases same : child = hash
      · subst same
        simp [linked above child, stored, eq_comm]
      · simp [same]
    · rw [if_neg moved]
      change child ∈ tracker.childrenOf above ↔ _
      by_cases same : child = hash
      · subst same
        rw [if_pos rfl, linked above child, stored, not_not.mp moved, Option.some.injEq, eq_comm]
      · rw [if_neg same]

theorem Linked.place (linked : tracker.Linked) (hash parent : Bytes) :
    (tracker.place hash parent).Linked := by
  intro above child
  rw [mem_childrenOf_place linked, get_place]
  by_cases same : child = hash
  · simp [same, eq_comm]
  · simp [same, linked above child]

theorem evictOldest_of_size_le (fuel : Nat) (fits : tracker.parents.size ≤ tracker.limit) :
    tracker.evictOldest fuel = tracker := by
  cases fuel with
  | zero => rfl
  | succ fuel =>
    unfold evictOldest
    exact if_neg (Nat.not_lt.mpr fits)

def removeNode (hash : Bytes) (tracker : CandidateTracker) : CandidateTracker :=
  (tracker.setChildren (tracker.children.erase hash)).removeExact hash

def treeWeight (tracker : CandidateTracker) : Nat := tracker.children.total List.length

theorem removeTreeLoop_eq_prune (fuel : Nat) (pending : List Bytes) (tracker : CandidateTracker) :
    removeTreeLoop fuel pending tracker = Forest.prune childrenOf removeNode fuel pending tracker := by
  induction fuel generalizing pending tracker with
  | zero => rfl
  | succ fuel ih =>
    cases pending with
    | nil => rfl
    | cons hash pending => exact ih _ _

theorem mem_childrenOf_removeNode {hash parent child : Bytes} :
    child ∈ (tracker.removeNode hash).childrenOf parent ↔
      (child ∈ tracker.childrenOf parent ∧ parent ≠ hash) ∧
        ¬ (tracker.parents.get hash = some parent ∧ child = hash) := by
  unfold removeNode
  rw [mem_childrenOf_removeExact]
  change child ∈ (tracker.children.erase hash).listed parent ∧ _ ↔ _
  rw [Table.mem_listed_erase]
  rfl

theorem get_removeNode (hash other : Bytes) :
    (tracker.removeNode hash).parents.get other =
      if other = hash then none else tracker.parents.get other :=
  get_removeExact hash other

theorem removes_removeNode :
    Forest.Removes childrenOf removeNode fun tracker hash => tracker.parents.get hash where
  fewer _ _ _ _ member := (mem_childrenOf_removeNode.mp member).1.1
  kept _ _ _ _ member parent child :=
    mem_childrenOf_removeNode.mpr ⟨⟨member, parent⟩, fun removed => child removed.2⟩
  gone key _ := (get_removeNode key key).trans (if_pos rfl)
  elsewhere key _ other different := (get_removeNode key other).trans (if_neg different)

theorem treeWeight_removeNode_le (hash : Bytes) (tracker : CandidateTracker) :
    (tracker.removeNode hash).treeWeight + (tracker.childrenOf hash).length ≤
      tracker.treeWeight := by
  have erased := Table.total_erase_listed tracker.children hash
  have detached : (tracker.removeNode hash).treeWeight ≤
      (tracker.children.erase hash).total List.length := by
    unfold removeNode removeExact treeWeight
    dsimp only [setChildren]
    split
    · rw [children_removeChild]
      exact Table.total_detach_le _ _ _
    · exact Nat.le_refl _
  unfold treeWeight childrenOf at *
  omega

def pruned (root : Bytes) (tracker : CandidateTracker) : CandidateTracker :=
  Forest.prune childrenOf removeNode (tracker.treeWeight + 1) [root] tracker

theorem removeTree_eq (root : Bytes) :
    tracker.removeTree root =
      { tracker.pruned root with
        insertionOrder :=
          (tracker.pruned root).insertionOrder.filter (tracker.pruned root).containsKey } := by
  unfold removeTree pruned
  rw [removeTreeLoop_eq_prune]
  rfl

theorem limit_pruned (root : Bytes) : (tracker.pruned root).limit = tracker.limit := by
  refine Forest.prune_invariant (motive := fun after => after.limit = tracker.limit)
    removes_removeNode treeWeight_removeNode_le (Nat.add_comm _ _).le (fun _ _ _ same => ?_) rfl
  exact (limit_removeExact _).trans same

open Classical in
theorem get_pruned (root other : Bytes) :
    (tracker.pruned root).parents.get other =
      if Forest.Below childrenOf tracker root other then none else tracker.parents.get other := by
  split
  · next below =>
    exact Forest.get_prune_of_below removes_removeNode treeWeight_removeNode_le
      (Nat.add_comm _ _).le below
  · next apart =>
    exact Forest.get_prune_of_not_below removes_removeNode treeWeight_removeNode_le
      (Nat.add_comm _ _).le apart

theorem Linked.pruned (linked : tracker.Linked) (root : Bytes) : (tracker.pruned root).Linked := by
  intro parent child
  constructor
  · -- A node leaves the list of its parent before it is removed.
    revert parent child
    refine Forest.prune_invariant (motive := fun after => ∀ parent child,
      child ∈ after.childrenOf parent → after.parents.get child = some parent)
      removes_removeNode treeWeight_removeNode_le (Nat.add_comm _ _).le
      (fun key after _ sound parent child member => ?_) fun parent child => (linked parent child).mp
    obtain ⟨⟨listed, _⟩, kept⟩ := mem_childrenOf_removeNode.mp member
    have stored := sound parent child listed
    rw [get_removeNode, if_neg, stored]
    intro same
    exact kept ⟨same ▸ stored, same⟩
  · intro stored
    rw [get_pruned] at stored
    split at stored
    · cases stored
    · next apart =>
      have edge := (linked parent child).mpr stored
      exact Forest.mem_children_prune removes_removeNode treeWeight_removeNode_le
        (Nat.add_comm _ _).le edge (fun below => apart (below.tail edge)) apart

structure Lists (chain : B256 → BlockMeta) (limit : Nat) (listed : Set B256)
    (tracker : CandidateTracker) : Prop where
  limit : tracker.limit = limit
  linked : tracker.Linked
  parents : ∀ bytes parent, tracker.parents.get bytes = some parent ↔
    ∃ hash ∈ listed, bytes = B256.toVec hash ∧ parent = B256.toVec (chain hash).parentHash

section

variable {chain : B256 → BlockMeta} {limit : Nat} {listed : Set B256} {hash root : B256}

theorem Lists.congr {other : Set B256} (lists : Lists chain limit listed tracker)
    (same : ∀ hash, hash ∈ listed ↔ hash ∈ other) : Lists chain limit other tracker := by
  rw [← Set.ext same]
  exact lists

theorem lists_clear (chain : B256 → BlockMeta) (tracker : CandidateTracker) :
    Lists chain tracker.limit ∅ tracker.clear where
  limit := rfl
  linked parent child := by simp [clear, childrenOf, Table.listed]
  parents bytes parent := by simp [clear]

theorem Lists.size_le (lists : Lists chain limit listed tracker) {cover : List B256}
    (covered : ∀ hash ∈ listed, hash ∈ cover) : tracker.parents.size ≤ cover.length := by
  rw [Table.size_eq_keys_length, ← List.length_map B256.toVec]
  apply List.Subperm.length_le
  apply List.subperm_of_subset tracker.parents.keys_nodup
  intro bytes member
  rw [Table.mem_keys, Option.isSome_iff_exists] at member
  obtain ⟨parent, stored⟩ := member
  obtain ⟨hash, inside, same, _⟩ := (lists.parents bytes parent).mp stored
  exact List.mem_map.mpr ⟨hash, covered hash inside, same.symm⟩

theorem Lists.place (lists : Lists chain limit listed tracker) (hash : B256) :
    Lists chain limit {other | other = hash ∨ other ∈ listed}
      (tracker.place (B256.toVec hash) (B256.toVec (chain hash).parentHash)) where
  limit := (limit_place _ _).trans lists.limit
  linked := lists.linked.place _ _
  parents bytes parent := by
    rw [get_place]
    by_cases same : bytes = B256.toVec hash
    · subst same
      rw [if_pos rfl, Option.some.injEq]
      constructor
      · intro above
        exact ⟨hash, .inl rfl, rfl, above.symm⟩
      · rintro ⟨other, _, same, above⟩
        rw [above, B256.toVec_injective same]
    · rw [if_neg same, lists.parents]
      constructor
      · rintro ⟨other, member, facts⟩
        exact ⟨other, .inr member, facts⟩
      · rintro ⟨other, member, here, above⟩
        rcases member with rfl | member
        · exact absurd here same
        · exact ⟨other, member, here, above⟩

theorem Lists.insert (lists : Lists chain limit listed tracker) (hash : B256) (cover : List B256)
    (covered : ∀ other ∈ listed, other ∈ cover) (inside : hash ∈ cover)
    (fits : cover.length ≤ limit) :
    Lists chain limit {other | other = hash ∨ other ∈ listed}
      (tracker.insert (B256.toVec hash) (B256.toVec (chain hash).parentHash)) := by
  have placed := lists.place hash
  have size : (tracker.place (B256.toVec hash) (B256.toVec (chain hash).parentHash)).parents.size ≤
      cover.length := by
    apply placed.size_le
    rintro other (rfl | member)
    · exact inside
    · exact covered other member
  unfold CandidateTracker.insert
  dsimp only
  rw [evictOldest_of_size_le]
  · exact placed
  · rw [placed.limit]
    omega

theorem Lists.removeExact (lists : Lists chain limit listed tracker) (hash : B256) :
    Lists chain limit {other | other ∈ listed ∧ other ≠ hash}
      (tracker.removeExact (B256.toVec hash)) where
  limit := (limit_removeExact _).trans lists.limit
  linked := lists.linked.removeExact _
  parents bytes parent := by
    rw [get_removeExact]
    by_cases same : bytes = B256.toVec hash
    · rw [if_pos same]
      constructor
      · intro none
        cases none
      · rintro ⟨other, ⟨_, different⟩, here, _⟩
        exact absurd (B256.toVec_injective (here.symm.trans same)) different
    · rw [if_neg same, lists.parents]
      constructor
      · rintro ⟨other, member, here, above⟩
        refine ⟨other, ⟨member, ?_⟩, here, above⟩
        rintro rfl
        exact same here
      · rintro ⟨other, member, facts⟩
        exact ⟨other, member.1, facts⟩

theorem limit_removeAll (hashes : List Bytes) (tracker : CandidateTracker) :
    (hashes.foldl (fun tracker hash => tracker.removeExact hash) tracker).limit = tracker.limit := by
  induction hashes generalizing tracker with
  | nil => rfl
  | cons hash rest ih => exact (ih _).trans (limit_removeExact hash)

theorem Lists.removeAll (lists : Lists chain limit listed tracker) (batch : List B256) :
    Lists chain limit {other | other ∈ listed ∧ other ∉ batch}
      ((batch.map B256.toVec).foldl (fun tracker hash => tracker.removeExact hash) tracker) := by
  induction batch generalizing listed tracker with
  | nil => exact lists.congr fun other => by simp
  | cons hash rest ih =>
    refine (ih (lists.removeExact hash)).congr fun other => ?_
    simp [and_assoc]

def Follows (chain : B256 → BlockMeta) (listed : Set B256) (root hash : B256) : Prop :=
  Relation.ReflTransGen (fun parent child => child ∈ listed ∧ (chain child).parentHash = parent)
    root hash

theorem Lists.mem_childrenOf (lists : Lists chain limit listed tracker) {parent : B256}
    {bytes : Bytes} :
    bytes ∈ tracker.childrenOf (B256.toVec parent) ↔
      ∃ child, bytes = B256.toVec child ∧ child ∈ listed ∧ (chain child).parentHash = parent := by
  rw [lists.linked, lists.parents]
  constructor
  · rintro ⟨child, member, same, above⟩
    exact ⟨child, same, member, (B256.toVec_injective above).symm⟩
  · rintro ⟨child, same, member, rfl⟩
    exact ⟨child, member, same, rfl⟩

theorem Lists.below_iff (lists : Lists chain limit listed tracker) :
    Forest.Below childrenOf tracker (B256.toVec root) (B256.toVec hash) ↔
      Follows chain listed root hash := by
  constructor
  · have reached (bytes : Bytes) (below : Forest.Below childrenOf tracker (B256.toVec root) bytes) :
        ∃ found, bytes = B256.toVec found ∧ Follows chain listed root found := by
      induction below with
      | refl => exact ⟨root, rfl, .refl⟩
      | tail _ edge ih =>
        obtain ⟨parent, rfl, follows⟩ := ih
        obtain ⟨child, same, link⟩ := lists.mem_childrenOf.mp edge
        exact ⟨child, same, follows.tail link⟩
    intro below
    obtain ⟨found, same, follows⟩ := reached _ below
    rwa [B256.toVec_injective same]
  · intro follows
    induction follows with
    | refl => exact .refl
    | tail _ link ih => exact ih.tail (lists.mem_childrenOf.mpr ⟨_, rfl, link⟩)

theorem Lists.removeTree (lists : Lists chain limit listed tracker) (root : B256) :
    Lists chain limit {hash | hash ∈ listed ∧ ¬ Follows chain listed root hash}
      (tracker.removeTree (B256.toVec root)) := by
  rw [removeTree_eq]
  refine ⟨(limit_pruned _).trans lists.limit, lists.linked.pruned _, fun bytes parent => ?_⟩
  change (tracker.pruned (B256.toVec root)).parents.get bytes = some parent ↔ _
  rw [get_pruned]
  split
  · next below =>
    constructor
    · intro none
      cases none
    · rintro ⟨hash, ⟨_, apart⟩, rfl, _⟩
      exact absurd (lists.below_iff.mp below) apart
  · next apart =>
    rw [lists.parents]
    constructor
    · rintro ⟨hash, member, rfl, above⟩
      exact ⟨hash, ⟨member, fun follows => apart (lists.below_iff.mpr follows)⟩, rfl, above⟩
    · rintro ⟨hash, member, facts⟩
      exact ⟨hash, member.1, facts⟩

end

end Statefeed.Dump.CandidateTracker
