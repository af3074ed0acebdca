import Statefeed.Stream.Tracker

set_option autoImplicit false

namespace Statefeed.Dump.CandidateTracker

variable {tracker : CandidateTracker} {hash parent root : Bytes}

structure WellFormed (tracker : CandidateTracker) : Prop where
  linked : tracker.Linked
  tidy : tracker.children.Tidy
  distinct : tracker.insertionOrder.Nodup
  ordered : ∀ hash, hash ∈ tracker.insertionOrder ↔ tracker.containsKey hash = true

structure Bounded (limit : Nat) (tracker : CandidateTracker) : Prop extends tracker.WellFormed where
  limit_eq : tracker.limit = limit
  fits : tracker.parents.size ≤ limit

theorem WellFormed.size_eq (formed : tracker.WellFormed) :
    tracker.parents.size = tracker.insertionOrder.length := by
  rw [Table.size_eq_keys_length]
  apply List.Perm.length_eq
  apply (List.perm_ext_iff_of_nodup tracker.parents.keys_nodup formed.distinct).mpr
  intro hash
  rw [Table.mem_keys, formed.ordered]
  rfl

theorem bounded_clear (tracker : CandidateTracker) : Bounded tracker.limit tracker.clear where
  linked parent child := by simp [clear, childrenOf, Table.listed]
  tidy parent children stored := by cases stored
  distinct := List.nodup_nil
  ordered hash := by simp [clear, containsKey]
  limit_eq := rfl
  fits := Nat.zero_le _

theorem Bounded.shrink {limit : Nat} {after : CandidateTracker} (bounded : Bounded limit tracker)
    (formed : after.WellFormed) (same : after.limit = tracker.limit)
    (shorter : after.insertionOrder.length ≤ tracker.insertionOrder.length) :
    Bounded limit after where
  toWellFormed := formed
  limit_eq := same.trans bounded.limit_eq
  fits := by
    have fits := bounded.fits
    rw [bounded.toWellFormed.size_eq] at fits
    rw [formed.size_eq]
    exact shorter.trans fits

theorem insertionOrder_removeChild (parent child : Bytes) :
    (tracker.removeChild parent child).insertionOrder = tracker.insertionOrder := by
  unfold removeChild
  split <;> rfl

theorem insertionOrder_removeExact (hash : Bytes) :
    (tracker.removeExact hash).insertionOrder = tracker.insertionOrder.filter (· ≠ hash) := by
  unfold removeExact
  dsimp only
  split
  · rw [insertionOrder_removeChild]
  · rfl

theorem containsKey_removeExact (hash other : Bytes) :
    (tracker.removeExact hash).containsKey other = true ↔
      tracker.containsKey other = true ∧ other ≠ hash := by
  unfold containsKey
  rw [get_removeExact]
  by_cases same : other = hash
  · simp [same]
  · simp [same]

theorem tidy_removeExact (tidy : tracker.children.Tidy) (hash : Bytes) :
    (tracker.removeExact hash).children.Tidy := by
  unfold removeExact
  dsimp only
  split
  · rw [children_removeChild]
    exact tidy.detach _ _
  · exact tidy

theorem WellFormed.removeExact (formed : tracker.WellFormed) (hash : Bytes) :
    (tracker.removeExact hash).WellFormed where
  linked := formed.linked.removeExact hash
  tidy := tidy_removeExact formed.tidy hash
  distinct := by
    rw [insertionOrder_removeExact]
    exact formed.distinct.filter _
  ordered other := by
    rw [insertionOrder_removeExact, List.mem_filter, containsKey_removeExact, formed.ordered]
    simp

theorem Bounded.removeExact {limit : Nat} (bounded : Bounded limit tracker) (hash : Bytes) :
    Bounded limit (tracker.removeExact hash) := by
  apply bounded.shrink (bounded.toWellFormed.removeExact hash) (limit_removeExact hash)
  rw [insertionOrder_removeExact]
  exact List.length_filter_le _ _

theorem insertionOrder_place (hash parent : Bytes) :
    (tracker.place hash parent).insertionOrder =
      if tracker.containsKey hash then tracker.insertionOrder
      else tracker.insertionOrder ++ [hash] := by
  unfold place containsKey
  dsimp only
  cases stored : tracker.parents.get hash with
  | none => rfl
  | some previous =>
    dsimp only
    split
    · exact insertionOrder_removeChild _ _
    · rfl

theorem containsKey_place (hash parent other : Bytes) :
    (tracker.place hash parent).containsKey other = true ↔
      other = hash ∨ tracker.containsKey other = true := by
  unfold containsKey
  rw [get_place]
  by_cases same : other = hash
  · simp [same]
  · simp [same]

theorem WellFormed.tidy_place (formed : tracker.WellFormed) (hash parent : Bytes) :
    (tracker.place hash parent).children.Tidy := by
  unfold place
  dsimp only
  cases stored : tracker.parents.get hash with
  | none =>
    apply formed.tidy.attach
    intro listed
    have known := (formed.linked parent hash).mp listed
    rw [stored] at known
    cases known
  | some previous =>
    dsimp only
    split
    · next moved =>
      -- The block leaves its former list before it joins the one of its new parent.
      unfold pushChild
      dsimp only [setChildren]
      apply Table.Tidy.attach
      · rw [children_removeChild]
        exact formed.tidy.detach _ _
      · rw [children_removeChild, Table.mem_listed_detach]
        rintro ⟨listed, _⟩
        have known := (formed.linked parent hash).mp listed
        rw [stored] at known
        exact moved (Option.some.inj known)
    · exact formed.tidy

theorem WellFormed.place (formed : tracker.WellFormed) (hash parent : Bytes) :
    (tracker.place hash parent).WellFormed where
  linked := formed.linked.place hash parent
  tidy := formed.tidy_place hash parent
  distinct := by
    rw [insertionOrder_place]
    split
    · exact formed.distinct
    · next fresh =>
      refine List.nodup_append.mpr ⟨formed.distinct, List.nodup_singleton hash, ?_⟩
      rintro other member last same rfl
      rw [List.mem_singleton.mp same] at member
      exact fresh ((formed.ordered hash).mp member)
  ordered other := by
    rw [insertionOrder_place, containsKey_place, ← formed.ordered other]
    split
    · next known =>
      constructor
      · exact .inr
      · rintro (rfl | member)
        · exact (formed.ordered other).mpr known
        · exact member
    · rw [List.mem_append, List.mem_singleton, or_comm]

def Halts {σ : Type} (body : σ → Option σ) (start final : σ) : Prop :=
  Relation.ReflTransGen (fun before after => body before = some after) start final ∧
    body final = none

theorem removeExact_oldest {oldest : Bytes} {rest : List Bytes}
    (order : tracker.insertionOrder = oldest :: rest) :
    { tracker with insertionOrder := rest }.removeExact oldest = tracker.removeExact oldest := by
  unfold removeExact removeChild
  dsimp only
  cases tracker.parents.get oldest with
  | none => simp [order]
  | some above => cases stored : tracker.children.get above <;> simp [order, setChildren, stored]

theorem WellFormed.insertionOrder_oldest (formed : tracker.WellFormed) {oldest : Bytes}
    {rest : List Bytes} (order : tracker.insertionOrder = oldest :: rest) :
    (tracker.removeExact oldest).insertionOrder = rest := by
  have distinct := formed.distinct
  rw [order, List.nodup_cons] at distinct
  rw [insertionOrder_removeExact, order, List.filter_cons_of_neg (by simp)]
  apply List.filter_eq_self.mpr
  intro other member
  apply decide_eq_true
  rintro rfl
  exact distinct.1 member

theorem WellFormed.evictRound_eq (formed : tracker.WellFormed) {oldest : Bytes} {rest : List Bytes}
    (order : tracker.insertionOrder = oldest :: rest) (exceeds : tracker.limit < rest.length + 1) :
    tracker.evictRound = some (tracker.removeExact oldest) := by
  have size := formed.size_eq
  rw [order, List.length_cons] at size
  unfold evictRound
  rw [if_pos (by omega), order]
  exact congrArg some (removeExact_oldest order)

theorem evictOldest_rule {motive : CandidateTracker → Prop}
    (step : ∀ before oldest rest, before.WellFormed → before.insertionOrder = oldest :: rest →
      before.limit < rest.length + 1 → motive before → motive (before.removeExact oldest))
    (fuel : Nat) (tracker : CandidateTracker) (formed : tracker.WellFormed)
    (enough : tracker.insertionOrder.length ≤ tracker.limit + fuel) (start : motive tracker) :
    Bounded tracker.limit (tracker.evictOldest fuel) ∧ motive (tracker.evictOldest fuel) := by
  induction fuel generalizing tracker with
  | zero => exact ⟨⟨formed, rfl, formed.size_eq.trans_le enough⟩, start⟩
  | succ fuel ih =>
    by_cases fits : tracker.parents.size ≤ tracker.limit
    · rw [evictOldest_of_size_le _ fits]
      exact ⟨⟨formed, rfl, fits⟩, start⟩
    · have size := formed.size_eq
      unfold evictOldest
      rw [if_pos (by omega)]
      cases order : tracker.insertionOrder with
      | nil =>
        rw [order, List.length_nil] at size
        omega
      | cons oldest rest =>
        rw [order, List.length_cons] at size enough
        have kept : (tracker.removeExact oldest).limit = tracker.limit := limit_removeExact oldest
        dsimp only
        rw [removeExact_oldest order, ← kept]
        apply ih _ (formed.removeExact oldest)
        · rw [formed.insertionOrder_oldest order, kept]
          omega
        · exact step tracker oldest rest formed order (by omega) start

theorem WellFormed.halts_evictOldest (formed : tracker.WellFormed) :
    Halts evictRound tracker (tracker.evictOldest tracker.insertionOrder.length) := by
  obtain ⟨bounded, rounds⟩ := evictOldest_rule
    (motive := Relation.ReflTransGen (fun before after => evictRound before = some after) tracker)
    (fun before oldest rest formed order exceeds reached =>
      reached.tail (formed.evictRound_eq order exceeds))
    tracker.insertionOrder.length tracker formed (Nat.le_add_left _ _) .refl
  refine ⟨rounds, if_neg ?_⟩
  have fits := bounded.fits
  rw [bounded.limit_eq]
  omega

theorem WellFormed.evictOldest_latest (formed : tracker.WellFormed) (positive : 1 ≤ tracker.limit)
    (filled : tracker.insertionOrder ≠ []) :
    let after := tracker.evictOldest tracker.insertionOrder.length
    after.insertionOrder ≠ [] ∧ after.insertionOrder <:+ tracker.insertionOrder ∧
      ∀ other ∈ after.insertionOrder, after.parents.get other = tracker.parents.get other := by
  refine (evictOldest_rule (motive := fun after => after.limit = tracker.limit ∧
    after.insertionOrder ≠ [] ∧ after.insertionOrder <:+ tracker.insertionOrder ∧
      ∀ other ∈ after.insertionOrder, after.parents.get other = tracker.parents.get other)
    (fun before oldest rest formed order exceeds kept => ?_) _ tracker formed (Nat.le_add_left _ _)
    ⟨rfl, filled, List.suffix_rfl, fun _ _ => rfl⟩).2.2
  obtain ⟨limit, _, latest, stored⟩ := kept
  have distinct := formed.distinct
  rw [order, List.nodup_cons] at distinct
  rw [order] at latest
  rw [formed.insertionOrder_oldest order]
  refine ⟨(limit_removeExact _).trans limit, ?_, (List.suffix_cons _ _).trans latest, ?_⟩
  · rintro rfl
    rw [limit, List.length_nil] at exceeds
    omega
  · intro other member
    have different : other ≠ oldest := by
      rintro rfl
      exact distinct.1 member
    rw [get_removeExact, if_neg different]
    apply stored
    rw [order]
    exact List.mem_cons_of_mem _ member

theorem Bounded.insert {limit : Nat} (bounded : Bounded limit tracker) (hash parent : Bytes) :
    Bounded limit (tracker.insert hash parent) := by
  have placed := bounded.toWellFormed.place hash parent
  have evicted := (evictOldest_rule (motive := fun _ => True) (fun _ _ _ _ _ _ _ => trivial)
    (tracker.place hash parent).insertionOrder.length _ placed (Nat.le_add_left _ _) trivial).1
  rwa [limit_place, bounded.limit_eq] at evicted

theorem Bounded.insert_known {limit : Nat} (bounded : Bounded limit tracker)
    (known : tracker.containsKey hash = true) :
    tracker.insert hash parent = tracker.place hash parent := by
  unfold CandidateTracker.insert
  apply evictOldest_of_size_le
  have placed := bounded.toWellFormed.place hash parent
  have fits := bounded.fits
  rw [bounded.toWellFormed.size_eq] at fits
  rw [placed.size_eq, insertionOrder_place, if_pos known, limit_place, bounded.limit_eq]
  exact fits

theorem Bounded.insert_latest {limit : Nat} (bounded : Bounded limit tracker) (positive : 1 ≤ limit)
    (hash parent : Bytes) :
    let after := tracker.insert hash parent
    after.parents.get hash = some parent ∧
      after.insertionOrder <:+ (tracker.place hash parent).insertionOrder ∧
      ∀ other ∈ after.insertionOrder, other ≠ hash →
        after.parents.get other = tracker.parents.get other := by
  have placed := bounded.toWellFormed.place hash parent
  by_cases known : tracker.containsKey hash = true
  · dsimp only
    rw [bounded.insert_known known]
    refine ⟨(get_place hash parent hash).trans (if_pos rfl), List.suffix_rfl, ?_⟩
    intro other _ different
    exact (get_place hash parent other).trans (if_neg different)
  · have order : (tracker.place hash parent).insertionOrder = tracker.insertionOrder ++ [hash] :=
      (insertionOrder_place hash parent).trans (if_neg known)
    obtain ⟨filled, latest, stored⟩ := placed.evictOldest_latest
      (by rwa [limit_place, bounded.limit_eq]) (by simp [order])
    refine ⟨?_, latest, ?_⟩
    · have last : hash ∈ (tracker.insert hash parent).insertionOrder := by
        obtain ⟨older, joined⟩ := latest
        have ends := congrArg List.getLast? (joined.trans order)
        rw [List.getLast?_append_of_ne_nil _ filled, List.getLast?_concat] at ends
        exact List.mem_of_getLast? ends
      exact (stored hash last).trans ((get_place hash parent hash).trans (if_pos rfl))
    · intro other member different
      exact (stored other member).trans ((get_place hash parent other).trans (if_neg different))

theorem halts_removeTreeLoop (root : Bytes) :
    Halts removeTreeRound ([root], tracker)
      ([], removeTreeLoop (tracker.children.total List.length + 1) [root] tracker) := by
  refine ⟨?_, rfl⟩
  rw [removeTreeLoop_eq_prune]
  exact Forest.prune_rule
    (motive := fun pending after => Relation.ReflTransGen
      (fun before next => removeTreeRound before = some next) ([root], tracker) (pending, after))
    treeWeight_removeNode_le (fun _ _ _ reached => reached.tail rfl) _ _ _ (Nat.add_comm _ _).le
    .refl

def Below (tracker : CandidateTracker) (root hash : Bytes) : Prop :=
  Forest.Below childrenOf tracker root hash

theorem tidy_pruned (tidy : tracker.children.Tidy) (root : Bytes) :
    (tracker.pruned root).children.Tidy :=
  Forest.prune_invariant (motive := fun after => after.children.Tidy) removes_removeNode
    treeWeight_removeNode_le (Nat.add_comm _ _).le
    (fun key _ _ tidy => tidy_removeExact (tidy.erase key) key) tidy

open Classical in
theorem filter_insertionOrder_pruned (root : Bytes) :
    (tracker.pruned root).insertionOrder.filter (fun hash => ¬ tracker.Below root hash) =
      tracker.insertionOrder.filter fun hash => ¬ tracker.Below root hash := by
  refine Forest.prune_invariant (motive := fun after =>
    after.insertionOrder.filter (fun hash => ¬ tracker.Below root hash) =
      tracker.insertionOrder.filter fun hash => ¬ tracker.Below root hash) removes_removeNode
    treeWeight_removeNode_le (Nat.add_comm _ _).le (fun key after below same => ?_) rfl
  rw [← same]
  change (removeExact key _).insertionOrder.filter _ = _
  rw [insertionOrder_removeExact, List.filter_filter]
  apply List.filter_congr
  intro other _
  by_cases apart : tracker.Below root other
  · simp [apart]
  · have different : other ≠ key := fun same => apart (same ▸ below)
    simp [different]

theorem mem_insertionOrder_pruned (root : Bytes) :
    (tracker.pruned root).insertionOrder ⊆ tracker.insertionOrder := by
  refine Forest.prune_invariant (motive := fun after =>
    after.insertionOrder ⊆ tracker.insertionOrder) removes_removeNode treeWeight_removeNode_le
    (Nat.add_comm _ _).le (fun key after _ inside => ?_) (List.Subset.refl _)
  intro other member
  change other ∈ (removeExact key _).insertionOrder at member
  rw [insertionOrder_removeExact] at member
  exact inside (List.mem_of_mem_filter member)

open Classical in
theorem get_removeTree (root other : Bytes) :
    (tracker.removeTree root).parents.get other =
      if tracker.Below root other then none else tracker.parents.get other := by
  rw [removeTree_eq]
  exact get_pruned root other

theorem containsKey_removeTree (root other : Bytes) :
    (tracker.removeTree root).containsKey other = true ↔
      tracker.containsKey other = true ∧ ¬ tracker.Below root other := by
  unfold containsKey
  rw [get_removeTree]
  split
  · next below => simp [below]
  · next apart => simp [apart]

open Classical in
theorem WellFormed.insertionOrder_removeTree (formed : tracker.WellFormed) (root : Bytes) :
    (tracker.removeTree root).insertionOrder =
      tracker.insertionOrder.filter fun hash => ¬ tracker.Below root hash := by
  have kept (other : Bytes) : (tracker.pruned root).containsKey other = true ↔
      tracker.containsKey other = true ∧ ¬ tracker.Below root other := by
    rw [← containsKey_removeTree, removeTree_eq]
    rfl
  rw [← filter_insertionOrder_pruned, removeTree_eq]
  apply List.filter_congr
  intro other member
  have tracked := (formed.ordered other).mp (mem_insertionOrder_pruned root member)
  by_cases apart : tracker.Below root other
  · simp [apart, kept, ← Bool.not_eq_true]
  · simp [apart, kept, tracked]

theorem WellFormed.removeTree (formed : tracker.WellFormed) (root : Bytes) :
    (tracker.removeTree root).WellFormed where
  linked := by
    rw [removeTree_eq]
    exact formed.linked.pruned root
  tidy := by
    rw [removeTree_eq]
    exact tidy_pruned formed.tidy root
  distinct := by
    rw [formed.insertionOrder_removeTree]
    exact formed.distinct.filter _
  ordered other := by
    rw [formed.insertionOrder_removeTree, List.mem_filter, containsKey_removeTree, formed.ordered]
    simp

theorem Bounded.removeTree {limit : Nat} (bounded : Bounded limit tracker) (root : Bytes) :
    Bounded limit (tracker.removeTree root) := by
  apply bounded.shrink (bounded.toWellFormed.removeTree root)
  · rw [removeTree_eq]
    exact limit_pruned root
  · rw [bounded.toWellFormed.insertionOrder_removeTree]
    exact List.length_filter_le _ _

def performAll (tracker : CandidateTracker) (calls : List Call) : CandidateTracker :=
  calls.foldl perform tracker

theorem Bounded.perform {limit : Nat} (bounded : Bounded limit tracker) (call : Call) :
    Bounded limit (tracker.perform call) := by
  cases call with
  | insert hash parentHash => exact bounded.insert hash parentHash
  | removeExact hash => exact bounded.removeExact hash
  | removeTree root => exact bounded.removeTree root
  | clear => exact bounded.limit_eq ▸ bounded_clear tracker

theorem Bounded.performAll {limit : Nat} (bounded : Bounded limit tracker) (calls : List Call) :
    Bounded limit (tracker.performAll calls) := by
  induction calls generalizing tracker with
  | nil => exact bounded
  | cons call rest ih => exact ih (bounded.perform call)

theorem performAll_concat (calls : List Call) (call : Call) :
    tracker.performAll (calls ++ [call]) = (tracker.performAll calls).perform call := by
  simp [performAll]

open Classical in
def Accomplishes (tracker : CandidateTracker) : Call → Prop
  | .insert hash parentHash =>
    let after := tracker.insert hash parentHash
    Halts evictRound (tracker.place hash parentHash) after ∧
      after.parents.get hash = some parentHash ∧
      after.insertionOrder <:+ (if tracker.containsKey hash then tracker.insertionOrder
        else tracker.insertionOrder ++ [hash]) ∧
      ∀ other ∈ after.insertionOrder, other ≠ hash →
        after.parents.get other = tracker.parents.get other
  | .removeExact hash =>
    let after := tracker.removeExact hash
    (∀ other, after.parents.get other = if other = hash then none else tracker.parents.get other) ∧
      after.insertionOrder = tracker.insertionOrder.filter (· ≠ hash)
  | .removeTree root =>
    let after := tracker.removeTree root
    Halts removeTreeRound ([root], tracker)
        ([], removeTreeLoop (tracker.children.total List.length + 1) [root] tracker) ∧
      (∀ other, after.parents.get other =
        if tracker.Below root other then none else tracker.parents.get other) ∧
      after.insertionOrder = tracker.insertionOrder.filter fun hash => ¬ tracker.Below root hash
  | .clear => ∀ hash, tracker.clear.containsKey hash = false

theorem Bounded.accomplishes {limit : Nat} (bounded : Bounded limit tracker) (positive : 1 ≤ limit)
    (call : Call) : tracker.Accomplishes call := by
  have formed := bounded.toWellFormed
  cases call with
  | insert hash parentHash =>
    obtain ⟨stored, latest, others⟩ := bounded.insert_latest positive hash parentHash
    rw [insertionOrder_place] at latest
    exact ⟨(formed.place hash parentHash).halts_evictOldest, stored, latest, others⟩
  | removeExact hash => exact ⟨get_removeExact hash, insertionOrder_removeExact hash⟩
  | removeTree root =>
    exact ⟨halts_removeTreeLoop root, get_removeTree root, formed.insertionOrder_removeTree root⟩
  | clear => exact fun _ => rfl

def Spares (hash : Bytes) (tracker : CandidateTracker) : Call → Prop
  | .insert other _ => tracker.containsKey other = true
  | .removeExact other => other ≠ hash
  | .removeTree root => ¬ tracker.Below root hash
  | .clear => False

inductive Newest (start : CandidateTracker) (hash : Bytes) : List Call → Prop
  | inserted {calls : List Call} (parentHash : Bytes)
      (fresh : (start.performAll calls).containsKey hash = false) :
      Newest start hash (calls ++ [.insert hash parentHash])
  | spared {calls : List Call} {call : Call} (newest : Newest start hash calls)
      (spares : (start.performAll calls).Spares hash call) : Newest start hash (calls ++ [call])

theorem Bounded.spared {limit : Nat} (bounded : Bounded limit tracker) {call : Call}
    (spares : Spares hash tracker call) (known : tracker.containsKey hash = true) :
    (tracker.perform call).containsKey hash = true := by
  cases call with
  | insert other parentHash =>
    change (tracker.insert other parentHash).containsKey hash = true
    rw [bounded.insert_known spares, containsKey_place]
    exact .inr known
  | removeExact other => exact (containsKey_removeExact other hash).mpr ⟨known, spares.symm⟩
  | removeTree root => exact (containsKey_removeTree root hash).mpr ⟨known, spares⟩
  | clear => cases spares

theorem Bounded.newest {limit : Nat} (bounded : Bounded limit tracker) (positive : 1 ≤ limit)
    {calls : List Call} (newest : Newest tracker hash calls) :
    (tracker.performAll calls).containsKey hash = true := by
  induction newest with
  | @inserted calls parentHash _ =>
    rw [performAll_concat]
    have stored := ((bounded.performAll calls).insert_latest positive hash parentHash).1
    exact Option.isSome_iff_exists.mpr ⟨parentHash, stored⟩
  | @spared calls call _ spares known =>
    rw [performAll_concat]
    exact (bounded.performAll calls).spared spares known

/-- Whatever is inserted and removed, the tracker is a bounded forest, its loops stop, each call
changes what it names, and the latest block stays. -/
theorem bounded_forest (limit : Nat) (positive : 1 ≤ limit) (calls : List Call) :
    let tracker := (new limit).performAll calls
    Bounded limit tracker ∧ (∀ call, tracker.Accomplishes call) ∧
      ∀ hash, Newest (new limit) hash calls → tracker.containsKey hash = true := by
  have start : Bounded limit (new limit) := bounded_clear (new limit)
  have bounded := start.performAll calls
  exact ⟨bounded, bounded.accomplishes positive, fun hash => start.newest positive⟩

theorem bounded_forest_sample :
    let calls := [Call.insert [1] [2], .insert [2] [1], .insert [3] [3]]
    1 ≤ 2 ∧ Newest (new 2) [3] calls ∧
      ((new 2).performAll calls).insertionOrder = [[2], [3]] ∧
      ((new 2).performAll calls).Accomplishes (.removeTree [3]) ∧
      ((new 2).performAll calls).containsKey [3] = true := by
  have fresh : ((new 2).performAll [.insert [1] [2], .insert [2] [1]]).containsKey [3] = false := by
    decide
  have newest : Newest (new 2) [3] [.insert [1] [2], .insert [2] [1], .insert [3] [3]] :=
    .inserted [3] fresh
  have forest := bounded_forest 2 (by decide) [.insert [1] [2], .insert [2] [1], .insert [3] [3]]
  exact ⟨by decide, newest, by decide, forest.2.1 _, forest.2.2 _ newest⟩

end Statefeed.Dump.CandidateTracker
