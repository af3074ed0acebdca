import Statefeed.Store.Placement

set_option autoImplicit false

namespace Statefeed.Store

def evictable (store : Store) (entry : Nat × B256) : Bool :=
  store.isCurrentProjection entry.1 entry.2 && entry.2 ≠ store.canonicalHash

def passedOver (store : Store) : List (Nat × B256) :=
  store.projectionOrder.takeWhile fun entry => !store.evictable entry

def oldestEvictable (store : Store) : Option B256 :=
  (store.projectionOrder.find? store.evictable).map Prod.snd

/-- A full cache finds its oldest projection before the loop gives up. The canonical projection,
if it is passed over, goes back to the queue. -/
def Scannable (store : Store) : Prop :=
  2 * store.passedOver.length ≤ store.projectionOrder.length +
    (store.passedOver.countP fun entry => store.isCurrentProjection entry.1 entry.2)

instance (store : Store) : Decidable store.Scannable := inferInstanceAs (Decidable (_ ≤ _))

section

variable {inserted hash : B256} {incarnation fuel examined : Nat} {retired : List B256}
  {rest : List (Nat × B256)} {store : Store}

theorem trimProjectionLoop_stale (exceeds : store.projectionCount > store.cacheLimit)
    (order : store.projectionOrder = (incarnation, hash) :: rest)
    (stale : ¬ store.isCurrentProjection incarnation hash = true) :
    trimProjectionLoop inserted (fuel + 1) examined retired store =
      trimProjectionLoop inserted fuel (examined + 1) retired (store.setProjectionOrder rest) := by
  rw [trimProjectionLoop, if_pos exceeds, order]
  dsimp only
  rw [if_neg (by exact stale)]

theorem trimProjectionLoop_rotates (exceeds : store.projectionCount > store.cacheLimit)
    (order : store.projectionOrder = (incarnation, hash) :: rest)
    (live : store.isCurrentProjection incarnation hash = true) (head : hash = store.canonicalHash)
    (patient : examined ≤ rest.length + 1) :
    trimProjectionLoop inserted (fuel + 1) examined retired store =
      trimProjectionLoop inserted fuel (examined + 1) retired
        (store.setProjectionOrder (rest ++ [(incarnation, hash)])) := by
  have rotated : (store.setProjectionOrder rest).rotateOrEvict incarnation hash =
      ([], store.setProjectionOrder (rest ++ [(incarnation, hash)])) := by
    unfold rotateOrEvict
    rw [if_pos (by exact head)]
    simp [setProjectionOrder]
  have room : ¬ examined + 1 >
      (store.setProjectionOrder (rest ++ [(incarnation, hash)])).projectionOrder.length + 1 := by
    simp only [setProjectionOrder, List.length_append, List.length_singleton]
    omega
  rw [trimProjectionLoop, if_pos exceeds, order]
  dsimp only
  rw [if_pos (by exact live), rotated]
  dsimp only
  rw [if_neg room, List.append_nil]

theorem trimProjectionLoop_ends (full : store.projectionCount = store.cacheLimit + 1)
    (order : store.projectionOrder = (incarnation, hash) :: rest)
    (live : store.isCurrentProjection incarnation hash = true) (foreign : hash ≠ store.canonicalHash)
    (patient : examined ≤ rest.length) :
    trimProjectionLoop inserted (fuel + 2) examined retired store =
      (.ok (retired ++ if store.isTracked hash then [hash] else []),
        (store.setProjectionOrder rest).evictProjection hash) := by
  have exceeds : store.projectionCount > store.cacheLimit := by omega
  have evicted : (store.setProjectionOrder rest).rotateOrEvict incarnation hash =
      (if store.isTracked hash then [hash] else [],
        (store.setProjectionOrder rest).evictProjection hash) := by
    unfold rotateOrEvict
    rw [if_neg (by exact foreign)]
    rfl
  have enough : ¬ ((store.setProjectionOrder rest).evictProjection hash).projectionCount >
      ((store.setProjectionOrder rest).evictProjection hash).cacheLimit := by
    change ¬ store.projectionCount - 1 > store.cacheLimit
    omega
  have room : ¬ examined + 1 > ((store.setProjectionOrder rest).evictProjection
      hash).projectionOrder.length + 1 := by
    change ¬ examined + 1 > rest.length + 1
    omega
  rw [trimProjectionLoop, if_pos exceeds, order]
  dsimp only
  rw [if_pos (by exact live), evicted]
  dsimp only
  rw [if_neg room, trimProjectionLoop, if_neg enough]

theorem trimProjectionLoop_refuses (exceeds : store.projectionCount > store.cacheLimit)
    (order : store.projectionOrder = (incarnation, hash) :: rest)
    (live : store.isCurrentProjection incarnation hash = true)
    (impatient : ((store.setProjectionOrder rest).rotateOrEvict incarnation
      hash).2.projectionOrder.length < examined) :
    (trimProjectionLoop inserted (fuel + 1) examined retired store).1 =
      .error (.cannotEvict inserted) := by
  rw [trimProjectionLoop, if_pos exceeds, order]
  dsimp only
  rw [if_pos (by exact live), if_pos (Nat.succ_lt_succ impatient)]

end

theorem trimProjectionLoop_evicts (inserted : B256) {victim : B256} {incarnation : Nat}
    (passed : List (Nat × B256)) :
    ∀ (fuel examined : Nat) (retired : List B256) (rest : List (Nat × B256)) (store : Store),
      store.projectionOrder = passed ++ (incarnation, victim) :: rest →
      (∀ entry ∈ passed, store.isCurrentProjection entry.1 entry.2 = true →
        entry.2 = store.canonicalHash) →
      store.isCurrentProjection incarnation victim = true → victim ≠ store.canonicalHash →
      store.projectionCount = store.cacheLimit + 1 → passed.length + 1 < fuel →
      examined + passed.length ≤ rest.length +
        (passed.countP fun entry => store.isCurrentProjection entry.1 entry.2) →
      ∃ order, trimProjectionLoop inserted fuel examined retired store =
        (.ok (retired ++ if store.isTracked victim then [victim] else []),
          (store.setProjectionOrder order).evictProjection victim) := by
  -- Over the entries before the victim: a live one is the head's and goes to the back of the
  -- queue, a stale one is dropped.
  induction passed with
  | nil =>
    intro fuel examined retired rest store order _ current foreign full enough fair
    obtain ⟨fuel, rfl⟩ : ∃ left, fuel = left + 2 := ⟨fuel - 2, by simp at enough; omega⟩
    rw [List.length_nil, List.countP_nil] at fair
    exact ⟨rest, trimProjectionLoop_ends full order current foreign (by omega)⟩
  | cons entry passed ih =>
    intro fuel examined retired rest store order canonical current foreign full enough fair
    obtain ⟨fuel, rfl⟩ : ∃ left, fuel = left + 1 := ⟨fuel - 1, by omega⟩
    obtain ⟨first, later⟩ := List.forall_mem_cons.mp canonical
    obtain ⟨popped, hash⟩ := entry
    rw [List.cons_append] at order
    rw [List.length_cons] at enough fair
    have exceeds : store.projectionCount > store.cacheLimit := by omega
    have few : passed.countP (fun entry => store.isCurrentProjection entry.1 entry.2) ≤
        passed.length := List.countP_le_length
    by_cases live : store.isCurrentProjection popped hash = true
    · rw [List.countP_cons_of_pos (by exact live)] at fair
      have patient : examined ≤ (passed ++ (incarnation, victim) :: rest).length + 1 := by
        simp only [List.length_append, List.length_cons]
        omega
      rw [trimProjectionLoop_rotates exceeds order live (first live) patient, List.append_assoc,
        List.cons_append]
      exact ih fuel (examined + 1) retired (rest ++ [(popped, hash)])
        (store.setProjectionOrder _) rfl later current foreign full (by omega)
        (by
          rw [List.length_append, List.length_singleton]
          change _ ≤ _ + passed.countP fun entry => store.isCurrentProjection entry.1 entry.2
          omega)
    · rw [List.countP_cons_of_neg (by exact live)] at fair
      rw [trimProjectionLoop_stale exceeds order live]
      exact ih fuel (examined + 1) retired rest
        (store.setProjectionOrder (passed ++ (incarnation, victim) :: rest)) rfl later current
        foreign full (by omega) (by
          change _ ≤ _ + passed.countP fun entry => store.isCurrentProjection entry.1 entry.2
          omega)

theorem trimProjectionLoop_fails (inserted : B256) {victim : B256} {incarnation : Nat}
    (passed : List (Nat × B256)) :
    ∀ (fuel examined : Nat) (retired : List B256) (rest : List (Nat × B256)) (store : Store),
      store.projectionOrder = passed ++ (incarnation, victim) :: rest →
      (∀ entry ∈ passed, store.isCurrentProjection entry.1 entry.2 = true →
        entry.2 = store.canonicalHash) →
      store.isCurrentProjection incarnation victim = true → victim ≠ store.canonicalHash →
      store.projectionCount > store.cacheLimit → passed.length < fuel →
      rest.length + (passed.countP fun entry => store.isCurrentProjection entry.1 entry.2) <
        examined + passed.length →
      (trimProjectionLoop inserted fuel examined retired store).1 =
        .error (.cannotEvict inserted) := by
  induction passed with
  | nil =>
    intro fuel examined retired rest store order _ current foreign exceeds enough unfair
    obtain ⟨fuel, rfl⟩ : ∃ left, fuel = left + 1 := ⟨fuel - 1, by simp at enough; omega⟩
    -- The scan has come to the victim, but has examined more entries than the queue holds.
    refine trimProjectionLoop_refuses exceeds order current ?_
    unfold rotateOrEvict
    rw [if_neg (by exact foreign)]
    exact unfair
  | cons entry passed ih =>
    intro fuel examined retired rest store order canonical current foreign exceeds enough unfair
    obtain ⟨fuel, rfl⟩ : ∃ left, fuel = left + 1 := ⟨fuel - 1, by omega⟩
    obtain ⟨first, later⟩ := List.forall_mem_cons.mp canonical
    obtain ⟨popped, hash⟩ := entry
    rw [List.cons_append] at order
    rw [List.length_cons] at enough unfair
    by_cases live : store.isCurrentProjection popped hash = true
    · rw [List.countP_cons_of_pos (by exact live)] at unfair
      -- The rotation of the canonical entry may itself use up the patience of the scan.
      by_cases patient : examined ≤ (passed ++ (incarnation, victim) :: rest).length + 1
      · rw [trimProjectionLoop_rotates exceeds order live (first live) patient, List.append_assoc,
          List.cons_append]
        exact ih fuel (examined + 1) retired (rest ++ [(popped, hash)])
          (store.setProjectionOrder _) rfl later current foreign exceeds (by omega)
          (by
            rw [List.length_append, List.length_singleton]
            change _ + (passed.countP fun entry => store.isCurrentProjection entry.1 entry.2) < _
            omega)
      · refine trimProjectionLoop_refuses exceeds order live ?_
        unfold rotateOrEvict
        rw [if_pos (by exact first live)]
        simp only [setProjectionOrder, List.length_append, List.length_cons, List.length_nil]
          at patient ⊢
        omega
    · rw [List.countP_cons_of_neg (by exact live)] at unfair
      rw [trimProjectionLoop_stale exceeds order live]
      exact ih fuel (examined + 1) retired rest
        (store.setProjectionOrder (passed ++ (incarnation, victim) :: rest)) rfl later current
        foreign exceeds (by omega) (by
          change _ + (passed.countP fun entry => store.isCurrentProjection entry.1 entry.2) < _
          omega)

variable {chain : B256 → BlockMeta} {loose : B256 → Prop} {store : Store}

section

variable (now : Instant) (projection : Projection) (stage : CandidateStage) (firstSequence : Nat)

theorem projectionAt_eq_none {hash : B256} : store.projectionAt hash = none ↔
    ∀ old, store.record hash = some old → old.projected = false := by
  unfold projectionAt record
  cases store.candidates.get hash with
  | some entry => simp [CandidateEntry.record]
  | none => cases store.deferredExecuted.get hash <;> simp [DeferredExecuted.record]

theorem placeCandidate_gains
    (bare : ∀ old, store.record projection.block.hash = some old → old.projected = false) :
    (store.placeCandidate now projection stage true firstSequence).projectionOrder =
        store.projectionOrder ++
          [(store.placedIncarnation projection.block.hash, projection.block.hash)] ∧
      (store.placeCandidate now projection stage true firstSequence).projectionCount =
        store.projectionCount + 1 := by
  cases stored : store.record projection.block.hash with
  | none =>
    obtain ⟨_, order, count⟩ := placeCandidate_anew now projection stage firstSequence stored
    rw [placedIncarnation_of_none stored]
    exact ⟨order, count⟩
  | some old =>
    have placed := placeCandidate_over now projection stage firstSequence stored
    have order := placed.projections
    have count := placed.count
    rw [bare old stored] at order count
    rw [placedIncarnation_of_some stored]
    exact ⟨order, count⟩

/-- The projection is not cached and a full cache has to make room for it. -/
def Overflows (store : Store) (hash : B256) : Prop :=
  store.projectionAt hash = none ∧ store.projectionCount = store.cacheLimit

theorem exceeds_iff_overflows (fits : store.projectionCount ≤ store.cacheLimit) :
    store.cacheLimit <
        (store.placeCandidate now projection stage true firstSequence).projectionCount ↔
      store.Overflows projection.block.hash := by
  constructor
  · intro exceeds
    have bare : store.projectionAt projection.block.hash = none := by
      rw [projectionAt_eq_none]
      intro old stored
      have count := (placeCandidate_over now projection stage firstSequence stored).count
      by_contra projected
      rw [if_pos (by simpa using projected)] at count
      omega
    have gained := (placeCandidate_gains now projection stage firstSequence
      (projectionAt_eq_none.mp bare)).2
    exact ⟨bare, by omega⟩
  · rintro ⟨missing, full⟩
    have gained := (placeCandidate_gains now projection stage firstSequence
      (projectionAt_eq_none.mp missing)).2
    omega

theorem isCurrentProjection_placeCandidate
    (queues : Queues store.record store.metadataOrder store.projectionOrder store.nextIncarnation)
    (bare : ∀ old, store.record projection.block.hash = some old → old.projected = false)
    {entry : Nat × B256} (member : entry ∈ store.projectionOrder) :
    (store.placeCandidate now projection stage true firstSequence).isCurrentProjection
        entry.1 entry.2 = store.isCurrentProjection entry.1 entry.2 := by
  rw [Bool.eq_iff_iff, isCurrentProjection_iff, isCurrentProjection_iff]
  rw [record_placeCandidate now projection stage firstSequence store]
  by_cases here : entry.2 = projection.block.hash
  · have stale : store.placedIncarnation projection.block.hash ≠ entry.1 := by
      intro same
      cases stored : store.record projection.block.hash with
      | none =>
        rw [placedIncarnation_of_none stored] at same
        have fresh := queues.projectionsFresh entry member
        omega
      | some old =>
        rw [placedIncarnation_of_some stored] at same
        have once := queues.projectionsOnce _ _ stored
        rw [bare old stored, same, ← here] at once
        exact absurd member (List.count_eq_zero.mp (by simpa using once))
    rw [if_pos here]
    constructor
    · rintro ⟨live, found, incarnation, _⟩
      cases found
      exact absurd incarnation stale
    · rintro ⟨live, found, _, projected⟩
      rw [here] at found
      rw [bare live found] at projected
      cases projected
  · rw [if_neg here]

theorem WellFormed.find_evictable (formed : WellFormed chain loose store)
    (more : 1 < store.projectionCount) :
    ∃ entry, store.projectionOrder.find? store.evictable = some entry := by
  obtain ⟨victim, entry, outside, cached, projected⟩ := Table.exists_of_count_gt store.candidates
    [store.canonicalHash] (by rw [← formed.counted]; exact more)
  have live := record_of_candidate cached
  have once := formed.queues.projectionsOnce _ _ live
  rw [if_pos (by exact projected)] at once
  have listed : (entry.incarnation, victim) ∈ store.projectionOrder := by
    rw [← List.count_pos_iff]
    exact once ▸ Nat.one_pos
  have current : store.isCurrentProjection entry.incarnation victim = true :=
    (isCurrentProjection_iff _ _ _).mpr ⟨_, live, rfl, projected⟩
  apply Option.isSome_iff_exists.mp
  rw [List.find?_isSome]
  refine ⟨_, listed, ?_⟩
  simp only [evictable, current, Bool.true_and, decide_eq_true_eq]
  exact fun same => outside (List.mem_singleton.mpr same)

theorem WellFormed.isTracked_of_current (formed : WellFormed chain loose store)
    {incarnation : Nat} {hash : B256} (current : store.isCurrentProjection incarnation hash = true) :
    store.isTracked hash = true := by
  unfold isCurrentProjection at current
  unfold isTracked
  cases cached : store.candidates.get hash with
  | none => simp [cached] at current
  | some entry =>
    have tracked := formed.tracked hash entry cached
    simp only [cached, decide_eq_true_eq] at current
    simp [tracked, current.2]

structure Evicts (store placed : Store) (inserted : B256) (evicted : List B256) (after : Store) :
    Prop where
  bounded : after.projectionCount ≤ after.cacheLimit
  oldest : evicted = if placed.projectionCount > placed.cacheLimit then
    store.oldestEvictable.toList else []
  needed : evicted.length = placed.projectionCount - placed.cacheLimit
  canonical : placed.canonicalHash ∉ evicted
  newest : inserted ∉ evicted
  lost : ∀ hash, after.projectionAt hash =
    if hash ∈ evicted then none else placed.projectionAt hash

theorem projectionAt_evictProjection (victim hash : B256) (store : Store) :
    (store.evictProjection victim).projectionAt hash =
      if hash ∈ [victim] then none else store.projectionAt hash := by
  unfold projectionAt evictProjection
  dsimp only
  rw [Table.get_modify]
  by_cases same : hash = victim
  · rw [if_pos same, if_pos (List.mem_singleton.mpr same)]
    cases store.candidates.get victim <;> rfl
  · rw [if_neg same, if_neg (fun member => same (List.mem_singleton.mp member))]

theorem passedOver_of_find {entry : Nat × B256}
    (found : store.projectionOrder.find? store.evictable = some entry) :
    ∃ rest, store.projectionOrder = store.passedOver ++ entry :: rest ∧
      ∀ passed ∈ store.passedOver, store.isCurrentProjection passed.1 passed.2 = true →
        passed.2 = store.canonicalHash := by
  obtain ⟨live, front, rest, order, skipped⟩ := List.find?_eq_some_iff_append.mp found
  have passed : store.passedOver = front := by
    unfold passedOver
    rw [order, List.takeWhile_append_of_pos (fun entry member => by simpa using skipped entry member),
      List.takeWhile_cons_of_neg (by simp [live]), List.append_nil]
  rw [passed]
  refine ⟨rest, order, fun entry member current => ?_⟩
  have kept := skipped entry member
  simpa [evictable, current] using kept

structure Overfull (store placed : Store) (inserted : B256) (incarnation : Nat) (victim : B256)
    (rest : List (Nat × B256)) : Prop where
  oldest : store.oldestEvictable = some victim
  order : placed.projectionOrder = store.passedOver ++ (incarnation, victim) :: rest
  passed : ∀ entry ∈ store.passedOver, placed.isCurrentProjection entry.1 entry.2 = true →
    entry.2 = placed.canonicalHash
  current : placed.isCurrentProjection incarnation victim = true
  foreign : victim ≠ placed.canonicalHash
  other : victim ≠ inserted
  tracked : placed.isTracked victim = true
  count : placed.projectionCount = placed.cacheLimit + 1
  scannable : store.Scannable ↔ store.passedOver.length ≤ rest.length +
    (store.passedOver.countP fun entry => placed.isCurrentProjection entry.1 entry.2)

theorem WellFormed.overfull (formed : WellFormed chain loose store)
    (room : 2 ≤ store.cacheLimit) (overflows : store.Overflows projection.block.hash) :
    ∃ incarnation victim rest,
      Overfull store (store.placeCandidate now projection stage true firstSequence)
        projection.block.hash incarnation victim rest := by
  obtain ⟨missing, full⟩ := overflows
  have bare := projectionAt_eq_none.mp missing
  obtain ⟨order, count⟩ := placeCandidate_gains now projection stage firstSequence bare
  obtain ⟨⟨incarnation, victim⟩, found⟩ := formed.find_evictable (by omega)
  have settings := settings_placeCandidate now projection stage true firstSequence store
  have limit : (store.placeCandidate now projection stage true firstSequence).cacheLimit =
    store.cacheLimit := congrArg Settings.cacheLimit settings
  have head := canonicalHash_of_settings settings
  have live := List.find?_some found
  simp only [evictable, Bool.and_eq_true, decide_eq_true_eq] at live
  obtain ⟨rest, listed, passed⟩ := passedOver_of_find found
  -- The insertion appends one entry and leaves the state of every older one.
  have stays {entry : Nat × B256} (member : entry ∈ store.projectionOrder) :=
    isCurrentProjection_placeCandidate now projection stage firstSequence formed.queues bare member
  have early {entry : Nat × B256} (member : entry ∈ store.passedOver) :
      entry ∈ store.projectionOrder := listed ▸ List.mem_append_left _ member
  obtain ⟨record, stored, _, projected⟩ := (isCurrentProjection_iff _ _ _).mp live.1
  have other : victim ≠ projection.block.hash := by
    rintro rfl
    rw [bare record stored] at projected
    cases projected
  -- The scan meets the same live entries before the victim as it would have before the insertion.
  have counted : (store.passedOver.countP fun entry =>
      (store.placeCandidate now projection stage true firstSequence).isCurrentProjection
        entry.1 entry.2) =
      store.passedOver.countP fun entry => store.isCurrentProjection entry.1 entry.2 :=
    List.countP_congr fun entry member => by rw [stays (early member)]
  refine ⟨incarnation, victim,
    rest ++ [(store.placedIncarnation projection.block.hash, projection.block.hash)], ?_⟩
  constructor
  · rw [oldestEvictable, found]
    rfl
  · rw [order, listed]
    simp
  · intro entry member alive
    exact (passed entry member ((stays (early member)).symm.trans alive)).trans head.symm
  · exact (stays (List.mem_of_find?_eq_some found)).trans live.1
  · rw [head]
    exact live.2
  · exact other
  · unfold isTracked
    rw [candidates_placeCandidate, Table.get_insert, if_neg other]
    exact formed.isTracked_of_current live.1
  · rw [count, limit, full]
  · unfold Scannable
    rw [congrArg List.length listed, counted]
    simp only [List.length_append, List.length_cons, List.length_nil]
    omega

section

variable {placed : Store} {inserted victim : B256} {incarnation : Nat} {rest : List (Nat × B256)}

theorem Overfull.evicts (overfull : Overfull store placed inserted incarnation victim rest)
    (scannable : store.Scannable) :
    ∃ order, Store.trimProjectionCache inserted placed =
      (.ok [victim], (placed.setProjectionOrder order).evictProjection victim) := by
  have fair := overfull.scannable.mp scannable
  obtain ⟨order, trimmed⟩ := trimProjectionLoop_evicts inserted store.passedOver
    (placed.projectionOrder.length * 2 + 3) 0 [] rest placed overfull.order overfull.passed
    overfull.current overfull.foreign overfull.count
    (by simp only [overfull.order, List.length_append]; omega) (by omega)
  rw [overfull.tracked] at trimmed
  exact ⟨order, trimmed⟩

theorem Overfull.fails (overfull : Overfull store placed inserted incarnation victim rest)
    (unscannable : ¬ store.Scannable) :
    (Store.trimProjectionCache inserted placed).1 = .error (.cannotEvict inserted) := by
  have unfair := mt overfull.scannable.mpr unscannable
  exact trimProjectionLoop_fails inserted store.passedOver
    (placed.projectionOrder.length * 2 + 3) 0 [] rest placed overfull.order overfull.passed
    overfull.current overfull.foreign (by rw [overfull.count]; exact Nat.lt_succ_self _)
    (by simp only [overfull.order, List.length_append]; omega) (by omega)

end

theorem WellFormed.trimProjectionCache_placed (formed : WellFormed chain loose store)
    (room : 2 ≤ store.cacheLimit) (fits : store.projectionCount ≤ store.cacheLimit)
    (scannable : store.Overflows projection.block.hash → store.Scannable) :
    ∃ evicted after, Store.trimProjectionCache projection.block.hash
        (store.placeCandidate now projection stage true firstSequence) = (.ok evicted, after) ∧
      Evicts store (store.placeCandidate now projection stage true firstSequence)
        projection.block.hash evicted after := by
  have settings := settings_placeCandidate now projection stage true firstSequence store
  have limit : (store.placeCandidate now projection stage true firstSequence).cacheLimit =
    store.cacheLimit := congrArg Settings.cacheLimit settings
  by_cases exceeds : store.cacheLimit <
      (store.placeCandidate now projection stage true firstSequence).projectionCount
  · have overflows := (exceeds_iff_overflows now projection stage firstSequence fits).mp exceeds
    obtain ⟨incarnation, victim, rest, overfull⟩ := formed.overfull now projection stage firstSequence
      room overflows
    have count := overfull.count
    obtain ⟨order, trimmed⟩ := overfull.evicts (scannable overflows)
    refine ⟨[victim], _, trimmed, ?_⟩
    constructor
    · change (store.placeCandidate now projection stage true firstSequence).projectionCount - 1 ≤
        (store.placeCandidate now projection stage true firstSequence).cacheLimit
      omega
    · rw [if_pos (by rw [limit]; exact exceeds), overfull.oldest]
      rfl
    · rw [List.length_singleton]
      omega
    · exact fun member => overfull.foreign (List.mem_singleton.mp member).symm
    · exact fun member => overfull.other (List.mem_singleton.mp member).symm
    · exact fun hash => projectionAt_evictProjection victim hash _
  · have stops : Store.trimProjectionCache projection.block.hash
        (store.placeCandidate now projection stage true firstSequence) =
        (.ok [], store.placeCandidate now projection stage true firstSequence) := by
      unfold Store.trimProjectionCache trimProjectionLoop
      rw [if_neg (by rw [limit]; exact exceeds)]
    refine ⟨[], _, stops, ?_⟩
    constructor
    · rw [limit]
      exact not_lt.mp exceeds
    · rw [if_neg (by rw [limit]; exact exceeds)]
    · rw [limit]
      exact (Nat.sub_eq_zero_of_le (not_lt.mp exceeds)).symm
    · exact List.not_mem_nil
    · exact List.not_mem_nil
    · intro hash
      rw [if_neg List.not_mem_nil]

end

end Statefeed.Store
