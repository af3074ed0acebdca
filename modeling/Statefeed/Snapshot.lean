import Statefeed.Content
import Statefeed.Library.Collect
import Statefeed.Model.Source
import Statefeed.Truth

set_option autoImplicit false

namespace Statefeed

open Effect Effect.Op Collect

namespace AppliedForkchoiceTracker

def Evolves (before after : AppliedForkchoiceTracker) : Prop :=
  ∃ views : List (Option AppliedForkchoiceMeta),
    after = views.foldl (fun tracker view => tracker.update view) before ∧
      before.nextRevision + views.length < 2 ^ 64

theorem foldl_update (views : List (Option AppliedForkchoiceMeta))
    (tracker : AppliedForkchoiceTracker)
    (unwrapped : tracker.nextRevision + views.length < 2 ^ 64)
    (stored : tracker.latest.revision = tracker.nextRevision) :
    (views.foldl (fun tracker view => tracker.update view) tracker).nextRevision =
        tracker.nextRevision + views.length ∧
      (views.foldl (fun tracker view => tracker.update view) tracker).latest.revision =
        tracker.nextRevision + views.length := by
  induction views generalizing tracker with
  | nil => exact ⟨rfl, stored⟩
  | cons view rest ih =>
    rw [List.length_cons] at unwrapped ⊢
    have counted : (tracker.update view).nextRevision = tracker.nextRevision + 1 :=
      Nat.mod_eq_of_lt (by omega)
    obtain ⟨next, latest⟩ := ih (tracker.update view) (by omega) rfl
    rw [List.foldl_cons, next, latest, counted]
    omega

theorem Evolves.advances {before after : AppliedForkchoiceTracker} (evolves : before.Evolves after)
    (stored : before.latest.revision = before.nextRevision) :
    after.latest.revision = after.nextRevision ∧
      before.latest.revision ≤ after.latest.revision ∧
      (before.latest.revision = after.latest.revision → before.latest = after.latest) := by
  obtain ⟨views, rfl, unwrapped⟩ := evolves
  obtain ⟨next, latest⟩ := foldl_update views before unwrapped stored
  refine ⟨latest.trans next.symm, by omega, fun same => ?_⟩
  cases views with
  | nil => rfl
  | cons view rest =>
    rw [List.length_cons] at latest
    omega

end AppliedForkchoiceTracker

namespace Moment

/-- The block that a snapshot taken at this moment shows. -/
def head (moment : Moment) : B256 :=
  match moment.tracker.latest.view with
  | some view => view.headHash
  | none => moment.provider.best.hash

def forkchoice (moment : Moment) (number : Nat) : ForkchoiceMeta :=
  match moment.tracker.latest.view with
  | some view => view.resolve number
  | none =>
    { head := moment.provider.best
      safe := moment.provider.safe
      finalized := moment.provider.finalized }

theorem head_of_applied {moment : Moment} {view : AppliedForkchoiceMeta}
    (tracked : moment.tracker.latest.view = some view) : moment.head = view.headHash := by
  unfold head
  rw [tracked]

theorem head_of_bare {moment : Moment} (bare : moment.tracker.latest.view = none) :
    moment.head = moment.provider.best.hash := by
  unfold head
  rw [bare]

/-- What the confirmation of an attempt compares. -/
def registers (moment : Moment) : Nat × B256 × Option CheckpointMeta × Option CheckpointMeta :=
  (moment.tracker.latest.revision, moment.provider.best.hash, moment.provider.safe,
    moment.provider.finalized)

/-- The snapshot is the node's view at this moment. -/
structure Shows (moment : Moment) (snapshot : CanonicalSnapshot) : Prop where
  clock : snapshot.anchoredAt = moment.clock
  head : snapshot.projection.block.hash = moment.head
  forkchoice : snapshot.forkchoice = moment.forkchoice snapshot.projection.block.number

end Moment

/-- The tracker is written by its updates alone, and the provider does not return to a head or a
checkpoint that it has left. -/
structure Progresses (history : Nat → Moment) : Prop where
  stored : (history 0).tracker.latest.revision = (history 0).tracker.nextRevision
  evolves : ∀ time, (history time).tracker.Evolves (history (time + 1)).tracker
  head : Forward fun time => (history time).provider.best.hash
  numbered : ∀ first last, (history first).provider.best.hash = (history last).provider.best.hash →
    (history first).provider.best = (history last).provider.best
  safe : Forward fun time => (history time).provider.safe
  finalized : Forward fun time => (history time).provider.finalized

namespace Progresses

variable {history : Nat → Moment} (progresses : Progresses history)

include progresses

theorem stored_at (time : Nat) :
    (history time).tracker.latest.revision = (history time).tracker.nextRevision := by
  induction time with
  | zero => exact progresses.stored
  | succ time ih => exact ((progresses.evolves time).advances ih).1

theorem revision {first last : Nat} (ordered : first ≤ last) :
    (history first).tracker.latest.revision ≤ (history last).tracker.latest.revision ∧
      ((history first).tracker.latest.revision = (history last).tracker.latest.revision →
        (history first).tracker.latest = (history last).tracker.latest) := by
  induction last, ordered using Nat.le_induction with
  | base => exact ⟨le_rfl, fun _ => rfl⟩
  | succ last _ ih =>
    obtain ⟨_, grows, named⟩ := (progresses.evolves last).advances (progresses.stored_at last)
    refine ⟨ih.1.trans grows, fun same => ?_⟩
    have between := le_antisymm ih.1 (grows.trans_eq same.symm)
    exact (ih.2 between).trans (named (between.symm.trans same))

theorem tracker {first between last : Nat} (lower : first ≤ between) (upper : between ≤ last)
    (same : (history last).tracker.latest.revision = (history first).tracker.latest.revision) :
    (history between).tracker.latest = (history first).tracker.latest := by
  obtain ⟨before, named⟩ := progresses.revision lower
  obtain ⟨after, _⟩ := progresses.revision upper
  exact (named (by omega)).symm

theorem best {first between last : Nat} (lower : first ≤ between) (upper : between ≤ last)
    (same : (history last).provider.best.hash = (history first).provider.best.hash) :
    (history between).provider.best = (history first).provider.best :=
  progresses.numbered _ _ (progresses.head lower upper same.symm)

end Progresses

namespace SnapshotSource

variable {history : Nat → Moment} {start : Nat}

section

variable {α : Type} {fail : SourceError → Nat → Prop}

@[simp] theorem ensures_loadTracker {post : TrackedForkchoice → Nat → Prop} :
    (loadTracker history).Ensures start post fail ↔
      post (history start).tracker.latest (start + 1) := Iff.rfl

@[simp] theorem ensures_now {post : Instant → Nat → Prop} :
    (now history).Ensures start post fail ↔ post (history start).clock (start + 1) := Iff.rfl

theorem ensures_ask {query : Query} {answer : Provider → α} {post : α → Nat → Prop} :
    (ask history query answer).Ensures start post fail ↔
      ((history start).provider.fails query = true → fail (.provider query) (start + 1)) ∧
        ((history start).provider.fails query = false →
          post (answer (history start).provider) (start + 1)) := by
  unfold Ensures ask read
  cases failed : (history start).provider.fails query <;> simp [failed]

end

def packed (state : Address → B256 → Option U256) (keys : List WatchKey) : Bytes :=
  keys.flatMap fun key => U256.toBeBytes ((state key.address key.slot).getD 0)

/-- The projection of a block whose header and state the provider held at moments in this order,
at or after `start` and before `stop`. -/
def Held (history : Nat → Moment) (start stop : Nat) (watchSet : WatchSet) (blockHash : B256)
    (projection : Projection) : Prop :=
  ∃ early late header state, start ≤ early ∧ early < late ∧ late < stop ∧
    (history early).provider.headers blockHash = some header ∧
    (history late).provider.states blockHash = some state ∧
    projection =
      { block := header.blockMeta blockHash
        watchSet
        values := packed state watchSet.keys
        changedBitmap := [] }

def Withheld (moment : Moment) (blockHash : B256) : Prop :=
  (∃ query, moment.provider.fails query = true) ∨ moment.provider.headers blockHash = none ∨
    moment.provider.states blockHash = none

theorem storage_ensures (blockHash : B256) (state : Address → B256 → Option U256)
    (keys : List WatchKey) :
    (storage history blockHash state keys).Ensures start
      (fun values stop => start ≤ stop ∧ values = packed state keys)
      (fun failure stop => failure ≠ .unreachable ∧
        ∃ time, start ≤ time ∧ time < stop ∧ Withheld (history time) blockHash) := by
  induction keys generalizing start with
  | nil => exact ⟨le_rfl, rfl⟩
  | cons key rest ih =>
    unfold storage
    rw [ensures_bind, ensures_ask]
    refine ⟨fun refused => ⟨nofun, start, le_rfl, by omega, .inl ⟨_, refused⟩⟩, fun _ => ?_⟩
    rw [ensures_bind]
    refine ih.mono ?_ ?_
    · rintro values stop ⟨later, rfl⟩
      exact ⟨by omega, rfl⟩
    · rintro failure stop ⟨reachable, time, lower, upper, withheld⟩
      exact ⟨reachable, time, by omega, upper, withheld⟩

theorem loadAt_ensures (watchSet : WatchSet) (blockHash : B256) :
    (loadAt history watchSet blockHash).Ensures start
      (fun projection stop => start < stop ∧ Held history start stop watchSet blockHash projection)
      (fun failure stop => failure ≠ .unreachable ∧
        ∃ time, start ≤ time ∧ time < stop ∧ Withheld (history time) blockHash) := by
  unfold loadAt
  rw [ensures_bind, ensures_ask]
  refine ⟨fun refused => ⟨nofun, start, le_rfl, by omega, .inl ⟨_, refused⟩⟩, fun _ => ?_⟩
  split
  · next missing => exact ⟨nofun, start, le_rfl, by omega, .inr (.inl missing)⟩
  · next header found =>
    rw [ensures_bind, ensures_ask]
    refine ⟨fun refused => ?_, fun _ => ?_⟩
    · exact ⟨nofun, start + 1, by omega, by omega, .inl ⟨_, refused⟩⟩
    · split
      · next missing => exact ⟨nofun, start + 1, by omega, by omega, .inr (.inr missing)⟩
      · next state opened =>
        rw [ensures_bind]
        refine (storage_ensures blockHash state watchSet.keys).mono ?_ ?_
        · rintro values stop ⟨later, rfl⟩
          exact ⟨by omega, start, start + 1, header, state, le_rfl, by omega, by omega, found,
            opened, rfl⟩
        · rintro failure stop ⟨reachable, time, lower, upper, withheld⟩
          exact ⟨reachable, time, by omega, upper, withheld⟩

/-- The provider answers, and it holds the block that a snapshot would show. -/
structure Available (history : Nat → Moment) : Prop where
  answers : ∀ time query, (history time).provider.fails query = false
  header : ∀ time, (history time).provider.headers (history time).head ≠ none
  state : ∀ time, (history time).provider.states (history time).head ≠ none

theorem Available.not_withheld (available : Available history) (time : Nat) :
    ¬ Withheld (history time) (history time).head := by
  rintro (⟨query, refused⟩ | missing | missing)
  · rw [available.answers] at refused
    cases refused
  · exact available.header time missing
  · exact available.state time missing

def Disturbed (history : Nat → Moment) (start stop : Nat) : Prop :=
  ∃ time, start ≤ time ∧ time < stop ∧ (history time).registers ≠ (history start).registers

theorem steady_of_not_disturbed {stop : Nat} (steady : ¬ Disturbed history start stop) {time : Nat}
    (lower : start ≤ time) (upper : time < stop) :
    (history time).registers = (history start).registers :=
  by_contra fun moved => steady ⟨time, lower, upper, moved⟩

theorem changes_of_disturbed {stop : Nat} (disturbed : Disturbed history start stop) :
    0 < (changes (fun time => (history time).registers) start stop).card := by
  obtain ⟨time, lower, upper, moved⟩ := disturbed
  have positive := @changes_pos _ _ (fun time => (history time).registers) _ _ lower moved
  rw [card_changes lower upper.le]
  omega

def Taken (history : Nat → Moment) (watchSet : WatchSet) (start stop : Nat)
    (snapshot : CanonicalSnapshot) : Prop :=
  ∃ time, start < time ∧ time < stop ∧ (history time).Shows snapshot ∧
    Held history start time watchSet (history time).head snapshot.projection

def Attempted (history : Nat → Moment) (watchSet : WatchSet) (attempt start : Nat)
    (loaded : Option CanonicalSnapshot) (stop : Nat) : Prop :=
  match loaded with
  | some snapshot => Taken history watchSet start stop snapshot
  | none => attempt ≠ maxCanonicalSnapshotAttempts ∧ Disturbed history start stop

def Excused (history : Nat → Moment) (attempt start stop : Nat) : Prop :=
  Available history → attempt = maxCanonicalSnapshotAttempts ∧ Disturbed history start stop

variable {watchSet : WatchSet} {attempt : Nat}

theorem excused_refusal {query : Query} {time stop : Nat}
    (refused : (history time).provider.fails query = true) :
    Excused history attempt start stop := by
  intro available
  rw [available.answers] at refused
  cases refused

theorem hash_of_held {first stop : Nat} {blockHash : B256} {projection : Projection}
    (held : Held history first stop watchSet blockHash projection) :
    projection.block.hash = blockHash := by
  obtain ⟨_, _, header, _, _, _, _, _, _, rfl⟩ := held
  rfl

theorem Held.extend {first last earlier later : Nat} {blockHash : B256} {projection : Projection}
    (held : Held history first last watchSet blockHash projection) (lower : earlier ≤ first)
    (upper : last ≤ later) : Held history earlier later watchSet blockHash projection := by
  obtain ⟨early, late, header, state, after, ordered, before, rest⟩ := held
  exact ⟨early, late, header, state, lower.trans after, ordered, before.trans_le upper, rest⟩

section

variable (progresses : Progresses history) (within : attempt ≤ maxCanonicalSnapshotAttempts)

include progresses

include within in
theorem loadApplied_ensures {view : AppliedForkchoiceMeta}
    (tracked : (history start).tracker.latest.view = some view) :
    (loadApplied history watchSet attempt (history start).tracker.latest view).Ensures (start + 1)
      (Attempted history watchSet attempt start) (fun _ => Excused history attempt start) := by
  unfold loadApplied
  rw [ensures_bind, ensures_attempt]
  refine (loadAt_ensures watchSet view.headHash).mono ?_ ?_
  · rintro projection anchor ⟨later, held⟩
    rw [ensures_bind, ensures_now, ensures_bind, ensures_loadTracker]
    split
    · next same =>
      -- The revision is the same on both sides of the clock, so the view at the clock is this one.
      have latest := progresses.tracker (show start ≤ anchor by omega) (Nat.le_succ anchor) same
      have shown := Moment.head_of_applied ((congrArg _ latest).trans tracked)
      refine ⟨anchor, by omega, by omega, ⟨rfl, (hash_of_held held).trans shown.symm, ?_⟩, ?_⟩
      · unfold Moment.forkchoice
        rw [latest, tracked]
      · rw [shown]
        exact held.extend (Nat.le_succ start) le_rfl
    · next moved =>
      have disturbed : Disturbed history start (anchor + 2) :=
        ⟨anchor + 1, by omega, by omega, fun same => moved (congrArg Prod.fst same)⟩
      split
      · next last => exact fun _ => ⟨last, disturbed⟩
      · next more => exact ⟨more, disturbed⟩
  · rintro failure stop ⟨_, time, lower, upper, withheld⟩
    rw [ensures_bind, ensures_loadTracker]
    split
    · next retried =>
      refine ⟨Nat.ne_of_lt retried.2, stop, by omega, by omega, fun same => ?_⟩
      exact retried.1 (congrArg Prod.fst same)
    · next refused =>
      intro available
      have moved : (history stop).tracker.latest.revision ≠
          (history start).tracker.latest.revision := by
        intro same
        have latest := progresses.tracker (show start ≤ time by omega) upper.le same
        rw [← Moment.head_of_applied ((congrArg _ latest).trans tracked)] at withheld
        exact available.not_withheld time withheld
      have last : ¬ attempt < maxCanonicalSnapshotAttempts := fun more => refused ⟨moved, more⟩
      exact ⟨le_antisymm within (Nat.not_lt.mp last), stop, by omega, by omega,
        fun same => moved (congrArg Prod.fst same)⟩

theorem confirm_ensures {view : ForkchoiceMeta} {projection : Projection} {anchor : Nat}
    (later : start + 3 < anchor) (bare : (history start).tracker.latest.view = none)
    (selected : view.head = (history (start + 1)).provider.best)
    (safe : view.safe = (history (start + 2)).provider.safe)
    (finalized : view.finalized = (history (start + 3)).provider.finalized)
    (held : Held history (start + 4) anchor watchSet view.head.hash projection) :
    (confirm history attempt (history start).tracker.latest view projection).Ensures anchor
      (Attempted history watchSet attempt start) (fun _ => Excused history attempt start) := by
  unfold confirm
  rw [ensures_bind, ensures_now, ensures_bind, ensures_loadTracker, ensures_bind, ensures_ask]
  refine ⟨fun refused => excused_refusal refused, fun _ => ?_⟩
  rw [ensures_bind, ensures_ask]
  refine ⟨fun refused => excused_refusal refused, fun _ => ?_⟩
  rw [ensures_bind, ensures_ask]
  refine ⟨fun refused => excused_refusal refused, fun _ => ?_⟩
  split
  · next same =>
    obtain ⟨revision, _, confirmedHead, confirmedSafe, confirmedFinalized⟩ := same
    rw [selected] at confirmedHead
    rw [safe] at confirmedSafe
    rw [finalized] at confirmedFinalized
    have latest := progresses.tracker (show start ≤ anchor by omega) (Nat.le_succ anchor) revision
    have best := progresses.best (show start + 1 ≤ anchor by omega)
      (show anchor ≤ anchor + 1 + 1 by omega) confirmedHead
    have safeThen := progresses.safe (show start + 2 ≤ anchor by omega)
      (show anchor ≤ anchor + 1 + 1 + 1 by omega) confirmedSafe.symm
    have finalizedThen := progresses.finalized (show start + 3 ≤ anchor by omega)
      (show anchor ≤ anchor + 1 + 1 + 1 + 1 by omega) confirmedFinalized.symm
    have shown : (history anchor).head = view.head.hash := by
      rw [Moment.head_of_bare ((congrArg _ latest).trans bare), best, selected]
    refine ⟨anchor, by omega, by omega, ⟨rfl, (hash_of_held held).trans shown.symm, ?_⟩, ?_⟩
    · unfold Moment.forkchoice
      rw [latest, bare]
      dsimp only at safeThen finalizedThen ⊢
      rw [best, safeThen, finalizedThen, ← selected, ← safe, ← finalized]
    · rw [shown]
      exact held.extend (by omega) le_rfl
  · next differs =>
    have disturbed : Disturbed history start (anchor + 1 + 1 + 1 + 1 + 1) := by
      by_contra steady
      have same {time : Nat} (lower : start ≤ time) (upper : time < anchor + 5) :
          (history time).registers = (history start).registers :=
        steady_of_not_disturbed steady lower upper
      have revision := congrArg Prod.fst (@same (anchor + 1) (by omega) (by omega))
      have latest := progresses.tracker (show start ≤ anchor + 1 by omega) le_rfl revision
      refine differs ⟨revision, by rw [latest, bare]; rfl, ?_, ?_, ?_⟩
      · have first := congrArg (·.2.1) (@same (start + 1) (by omega) (by omega))
        have second := congrArg (·.2.1) (@same (anchor + 2) (by omega) (by omega))
        rw [selected]
        exact second.trans first.symm
      · have first := congrArg (·.2.2.1) (@same (start + 2) (by omega) (by omega))
        have second := congrArg (·.2.2.1) (@same (anchor + 3) (by omega) (by omega))
        rw [safe]
        exact second.trans first.symm
      · have first := congrArg (·.2.2.2) (@same (start + 3) (by omega) (by omega))
        have second := congrArg (·.2.2.2) (@same (anchor + 4) (by omega) (by omega))
        rw [finalized]
        exact second.trans first.symm
    split
    · next last =>
      split
      · exact fun _ => ⟨last, disturbed⟩
      · exact fun _ => ⟨last, disturbed⟩
    · next more => exact ⟨more, disturbed⟩

include within in
theorem loadCanonical_ensures (bare : (history start).tracker.latest.view = none) :
    (loadCanonical history watchSet attempt (history start).tracker.latest).Ensures (start + 1)
      (Attempted history watchSet attempt start) (fun _ => Excused history attempt start) := by
  unfold loadCanonical
  rw [ensures_bind, ensures_ask]
  refine ⟨fun refused => excused_refusal refused, fun _ => ?_⟩
  rw [ensures_bind, ensures_ask]
  refine ⟨fun refused => excused_refusal refused, fun _ => ?_⟩
  rw [ensures_bind, ensures_ask]
  refine ⟨fun refused => excused_refusal refused, fun _ => ?_⟩
  rw [ensures_bind, ensures_attempt]
  refine (loadAt_ensures watchSet (history (start + 1)).provider.best.hash).mono ?_ ?_
  · rintro projection anchor ⟨later, held⟩
    exact confirm_ensures progresses (by omega) bare rfl rfl rfl held
  · rintro failure stop ⟨_, time, lower, upper, withheld⟩
    rw [ensures_bind, ensures_loadTracker, ensures_bind, ensures_ask]
    refine ⟨fun refused => excused_refusal refused, fun _ => ?_⟩
    have tells (moved : (history stop).tracker.latest.revision ≠
          (history start).tracker.latest.revision ∨
        (history (stop + 1)).provider.best.hash ≠ (history (start + 1)).provider.best.hash) :
        Disturbed history start (stop + 1 + 1) := by
      by_contra steady
      have same {time : Nat} (lower : start ≤ time) (upper : time < stop + 2) :
          (history time).registers = (history start).registers :=
        steady_of_not_disturbed steady lower upper
      rcases moved with moved | moved
      · exact moved (congrArg Prod.fst (@same stop (by omega) (by omega)))
      · have first := congrArg (·.2.1) (@same (start + 1) (by omega) (by omega))
        have second := congrArg (·.2.1) (@same (stop + 1) (by omega) (by omega))
        exact moved (second.trans first.symm)
    split
    · next retried => exact ⟨Nat.ne_of_lt retried.2, tells retried.1⟩
    · next refused =>
      intro available
      have moved : (history stop).tracker.latest.revision ≠
            (history start).tracker.latest.revision ∨
          (history (stop + 1)).provider.best.hash ≠ (history (start + 1)).provider.best.hash := by
        by_contra still
        rw [not_or, not_not, not_not] at still
        have latest := progresses.tracker (show start ≤ time by omega) upper.le still.1
        have best := progresses.best (show start + 1 ≤ time by omega)
          (show time ≤ stop + 1 by omega) still.2
        rw [← best, ← Moment.head_of_bare ((congrArg _ latest).trans bare)] at withheld
        exact available.not_withheld time withheld
      have last : ¬ attempt < maxCanonicalSnapshotAttempts := fun more => refused ⟨moved, more⟩
      exact ⟨le_antisymm within (Nat.not_lt.mp last), tells moved⟩

include within in
theorem loadAttempt_ensures :
    (loadAttempt history watchSet attempt).Ensures start
      (Attempted history watchSet attempt start) (fun _ => Excused history attempt start) := by
  unfold loadAttempt
  rw [ensures_bind, ensures_loadTracker]
  split
  · next view tracked => exact loadApplied_ensures progresses within tracked
  · next bare => exact loadCanonical_ensures progresses within bare

theorem loadAttempts_ensures {remaining : Nat} (positive : 0 < remaining)
    (counted : attempt + remaining = maxCanonicalSnapshotAttempts + 1) :
    (loadAttempts history watchSet remaining attempt).Ensures start
      (fun snapshot stop => ∃ first, start ≤ first ∧ Taken history watchSet first stop snapshot)
      (fun _ stop => Available history → start ≤ stop ∧
        remaining ≤ (changes (fun time => (history time).registers) start stop).card) := by
  induction remaining generalizing start attempt with
  | zero => cases positive
  | succ remaining ih =>
    unfold loadAttempts
    rw [ensures_bind]
    refine (loadAttempt_ensures progresses (by omega)).mono ?_ ?_
    · intro loaded middle attempted
      cases loaded with
      | some snapshot => exact ⟨start, le_rfl, attempted⟩
      | none =>
        obtain ⟨more, disturbed⟩ := attempted
        have changed := changes_of_disturbed disturbed
        have later : start ≤ middle := by
          obtain ⟨time, lower, upper, _⟩ := disturbed
          omega
        refine (ih (by omega) (by omega)).mono ?_ ?_
        · rintro snapshot stop ⟨first, lower, taken⟩
          exact ⟨first, later.trans lower, taken⟩
        · intro _ stop counts available
          obtain ⟨upper, bound⟩ := counts available
          rw [card_changes later upper]
          exact ⟨later.trans upper, by omega⟩
    · intro _ stop excused available
      obtain ⟨last, disturbed⟩ := excused available
      have changed := changes_of_disturbed disturbed
      obtain ⟨time, lower, upper, _⟩ := disturbed
      exact ⟨by omega, by omega⟩

end

inductive Leads (history : Nat → Moment) (start : Nat) (load : LoadLatest) :
    Nat → LoadLatest → Prop
  | refl : Leads history start load start load
  | wait {time : Nat} {reached : LoadLatest} (earlier : Leads history start load time reached) :
      Leads history start load (time + 1) reached
  | read {time : Nat} {reached after : LoadLatest} (earlier : Leads history start load time reached)
      (reads : reached.Reads (history time).tracker.latest (history time).clock after) :
      Leads history start load (time + 1) after

section

variable {origin : Nat} {load : LoadLatest}

theorem Leads.later {time later : Nat} {reached : LoadLatest}
    (leads : Leads history origin load time reached) (ordered : time ≤ later) :
    Leads history origin load later reached := by
  induction later, ordered using Nat.le_induction with
  | base => exact leads
  | succ _ _ ih => exact ih.wait

theorem loadAt_leads {tried : Attempt} {selected : Selected} {blockHash : B256}
    (named : selected.hash = blockHash)
    (leads : Leads history origin load start (.reading tried (.state selected))) :
    (loadAt history watchSet blockHash).Ensures start
      (fun projection stop =>
        Leads history origin load stop (.reading tried (.clock selected projection)))
      (fun failure stop => failure ≠ .unreachable ∧
        Leads history origin load stop (.reading tried (.retracking selected))) := by
  refine (loadAt_ensures watchSet blockHash).mono ?_ ?_
  · rintro projection stop ⟨later, held⟩
    obtain ⟨last, rfl⟩ := Nat.exists_eq_add_of_lt later
    refine (leads.later (Nat.le_add_right start last)).read (.state ?_)
    exact (hash_of_held held).trans named.symm
  · rintro failure stop ⟨reachable, time, lower, upper, _⟩
    obtain ⟨last, rfl⟩ := Nat.exists_eq_add_of_lt (lower.trans_lt upper)
    exact ⟨reachable, (leads.later (Nat.le_add_right start last)).read .stateFails⟩

def Stopped (history : Nat → Moment) (origin : Nat) (load : LoadLatest) (failure : SourceError)
    (stop : Nat) : Prop :=
  failure ≠ .unreachable ∧ Leads history origin load stop .failed

def After (history : Nat → Moment) (origin : Nat) (load : LoadLatest) (attempt : Nat)
    (loaded : Option CanonicalSnapshot) (stop : Nat) : Prop :=
  match loaded with
  | some snapshot => ∃ revision, Leads history origin load stop (.loaded snapshot revision)
  | none => attempt < maxCanonicalSnapshotAttempts ∧
      Leads history origin load stop (.tracking (attempt + 1))

theorem loadApplied_leads (within : attempt ≤ maxCanonicalSnapshotAttempts)
    {tracked : TrackedForkchoice} {view : AppliedForkchoiceMeta}
    (leads : Leads history origin load start (.reading ⟨attempt, tracked⟩ (.state (.applied view)))) :
    (loadApplied history watchSet attempt tracked view).Ensures start
      (After history origin load attempt)
      (Stopped history origin load) := by
  unfold loadApplied
  rw [ensures_bind, ensures_attempt]
  refine (loadAt_leads rfl leads).mono ?_ ?_
  · intro projection anchor leads
    rw [ensures_bind, ensures_now, ensures_bind, ensures_loadTracker]
    have concluded := (leads.read .clock).read (.confirmApplied rfl)
    split
    · next same =>
      rw [decide_eq_true same] at concluded
      exact ⟨_, concluded⟩
    · next moved =>
      rw [decide_eq_false moved] at concluded
      split
      · next last =>
        rw [last] at concluded
        exact ⟨nofun, concluded⟩
      · next more =>
        have fewer := lt_of_le_of_ne within more
        refine ⟨fewer, ?_⟩
        change Leads _ _ _ _ (LoadLatest.retry _ true) at concluded
        rw [LoadLatest.retry, if_pos ⟨rfl, fewer⟩] at concluded
        exact concluded
  · rintro failure stop ⟨reachable, leads⟩
    rw [ensures_bind, ensures_loadTracker]
    have retried := leads.read .retrackApplied
    rw [LoadLatest.retry] at retried
    split
    · next again =>
      rw [if_pos ⟨decide_eq_true again.1, again.2⟩] at retried
      exact ⟨again.2, retried⟩
    · next refused =>
      rw [if_neg fun again => refused ⟨of_decide_eq_true again.1, again.2⟩] at retried
      exact ⟨reachable, retried⟩

theorem confirm_leads (within : attempt ≤ maxCanonicalSnapshotAttempts)
    {tracked : TrackedForkchoice} {head : CheckpointMeta} {safe finalized : Option CheckpointMeta}
    {projection : Projection}
    (leads : Leads history origin load start
      (.reading ⟨attempt, tracked⟩ (.clock (.provider head safe finalized) projection))) :
    (confirm history attempt tracked { head, safe, finalized } projection).Ensures start
      (After history origin load attempt)
      (Stopped history origin load) := by
  unfold confirm
  rw [ensures_bind, ensures_now, ensures_bind, ensures_loadTracker, ensures_bind, ensures_ask]
  have tracker := (leads.read .clock).read (.confirmProvider rfl)
  refine ⟨fun _ => ⟨nofun, tracker.read (.fail (.confirming nofun))⟩, fun _ => ?_⟩
  have chainInfo := tracker.read (.confirmChainInfo rfl (history (start + 1 + 1)).provider.best)
  rw [ensures_bind, ensures_ask]
  refine ⟨fun _ => ⟨nofun, chainInfo.read (.fail (.confirming nofun))⟩, fun _ => ?_⟩
  have safeRead := chainInfo.read (.confirmSafe rfl (history (start + 1 + 1 + 1)).provider.safe)
  rw [ensures_bind, ensures_ask]
  refine ⟨fun _ => ⟨nofun, safeRead.read (.fail (.confirming nofun))⟩, fun _ => ?_⟩
  have concluded := safeRead.read
    (.confirmFinalized rfl (history (start + 1 + 1 + 1 + 1)).provider.finalized)
  unfold LoadLatest.conclude at concluded
  split
  · next same =>
    rw [if_pos (by simpa [and_assoc] using same)] at concluded
    exact ⟨_, concluded⟩
  · next differs =>
    rw [if_neg (by simpa [and_assoc] using differs), LoadLatest.retry] at concluded
    split
    · next last =>
      rw [if_neg fun again => absurd last (Nat.ne_of_lt again.2)] at concluded
      split <;> exact ⟨nofun, concluded⟩
    · next more =>
      have fewer := lt_of_le_of_ne within more
      rw [if_pos ⟨rfl, fewer⟩] at concluded
      exact ⟨fewer, concluded⟩

theorem loadCanonical_leads (within : attempt ≤ maxCanonicalSnapshotAttempts)
    {tracked : TrackedForkchoice}
    (leads : Leads history origin load start (.reading ⟨attempt, tracked⟩ .chainInfo)) :
    (loadCanonical history watchSet attempt tracked).Ensures start
      (After history origin load attempt)
      (Stopped history origin load) := by
  unfold loadCanonical
  rw [ensures_bind, ensures_ask]
  refine ⟨fun _ => ⟨nofun, leads.read (.fail .chainInfo)⟩, fun _ => ?_⟩
  have chainInfo := leads.read (.chainInfo (history start).provider.best)
  rw [ensures_bind, ensures_ask]
  refine ⟨fun _ => ⟨nofun, chainInfo.read (.fail .safe)⟩, fun _ => ?_⟩
  have safe := chainInfo.read (.safe (history (start + 1)).provider.safe)
  rw [ensures_bind, ensures_ask]
  refine ⟨fun _ => ⟨nofun, safe.read (.fail .finalized)⟩, fun _ => ?_⟩
  have finalized := safe.read (.finalized (history (start + 1 + 1)).provider.finalized)
  rw [ensures_bind, ensures_attempt]
  refine (loadAt_leads rfl finalized).mono ?_ ?_
  · intro projection anchor leads
    exact confirm_leads within leads
  · rintro failure stop ⟨reachable, leads⟩
    have retracked := leads.read .retrackProvider
    rw [ensures_bind, ensures_loadTracker, ensures_bind, ensures_ask]
    refine ⟨fun _ => ⟨nofun, retracked.read (.fail .rechaining)⟩, fun _ => ?_⟩
    have retried := retracked.read (.rechain (history (stop + 1)).provider.best)
    rw [LoadLatest.retry] at retried
    split
    · next again =>
      rw [if_pos ⟨by simpa using again.1, again.2⟩] at retried
      exact ⟨again.2, retried⟩
    · next refused =>
      rw [if_neg fun again => refused ⟨by simpa using again.1, again.2⟩] at retried
      exact ⟨reachable, retried⟩

theorem loadAttempts_leads {remaining : Nat} (positive : 0 < remaining)
    (counted : attempt + remaining = maxCanonicalSnapshotAttempts + 1)
    (leads : Leads history origin load start (.tracking attempt)) :
    (loadAttempts history watchSet remaining attempt).Ensures start
      (fun snapshot stop => ∃ revision,
        Leads history origin load stop (.loaded snapshot revision))
      (Stopped history origin load) := by
  induction remaining generalizing start attempt with
  | zero => cases positive
  | succ remaining ih =>
    unfold loadAttempts
    have tried : (loadAttempt history watchSet attempt).Ensures start
        (After history origin load attempt)
        (Stopped history origin load) := by
      have tracked := leads.read .track
      unfold loadAttempt
      rw [ensures_bind, ensures_loadTracker]
      split
      · next view applied =>
        rw [applied] at tracked
        exact loadApplied_leads (by omega) tracked
      · next bare =>
        rw [bare] at tracked
        exact loadCanonical_leads (by omega) tracked
    rw [ensures_bind]
    refine tried.mono ?_ (fun _ _ => id)
    intro loaded middle after
    cases loaded with
    | some snapshot => exact after
    | none =>
      obtain ⟨fewer, leads⟩ := after
      exact ih (by omega) (by omega) leads

end

theorem loadLatest_taken {stop : Nat} {snapshot : CanonicalSnapshot}
    (progresses : Progresses history)
    (loaded : loadLatest history watchSet start = (.ok snapshot, stop)) :
    Taken history watchSet start stop snapshot := by
  have taken : (loadLatest history watchSet).Ensures start _ _ :=
    loadAttempts_ensures progresses (by decide) rfl
  rw [ensures_of_returns loaded] at taken
  obtain ⟨first, later, time, lower, upper, shows, held⟩ := taken
  exact ⟨time, by omega, upper, shows, held.extend later le_rfl⟩

end SnapshotSource

open SnapshotSource

namespace Sample

def provider : Provider where
  best := { number := 1, hash := 1 }
  safe := none
  finalized := none
  headers hash := some { number := hash.toNat, parentHash := hash - 1, timestamp := 0 }
  states hash := some fun _ _ => some hash
  fails _ := false

def secondView : AppliedForkchoiceMeta := { headHash := 2, safe := none, finalized := none }

def trackerAt (time : Nat) : AppliedForkchoiceTracker :=
  if time < 2 then .new else AppliedForkchoiceTracker.new.update (some secondView)

def moments (time : Nat) : Moment where
  tracker := trackerAt time
  provider := provider
  clock := time

theorem tracker_evolves (time : Nat) : (trackerAt time).Evolves (trackerAt (time + 1)) := by
  unfold trackerAt
  rcases Nat.lt_trichotomy time 1 with before | rfl | after
  · rw [if_pos (by omega), if_pos (by omega)]
    exact ⟨[], rfl, by decide⟩
  · exact ⟨[some secondView], rfl, by decide⟩
  · rw [if_neg (by omega), if_neg (by omega)]
    exact ⟨[], rfl, by decide⟩

theorem moments_progress : Progresses moments where
  stored := rfl
  evolves := tracker_evolves
  head _ _ _ := rfl
  numbered _ _ _ := rfl
  safe _ _ _ := rfl
  finalized _ _ _ := rfl

theorem moments_available : SnapshotSource.Available moments where
  answers _ _ := rfl
  header _ := nofun
  state _ := nofun

end Sample

/-- A snapshot that is returned is what the node would have shown at the moment of the anchoring
clock, and its block was read before. -/
theorem snapshot_linearized {history : Nat → Moment} (progresses : Progresses history)
    {watchSet : WatchSet} {start stop : Nat} {snapshot : CanonicalSnapshot}
    (loaded : loadLatest history watchSet start = (.ok snapshot, stop)) :
    ∃ time, start < time ∧ time < stop ∧ (history time).Shows snapshot ∧
      Held history start time watchSet (history time).head snapshot.projection :=
  loadLatest_taken progresses loaded

theorem snapshot_linearized_sample :
    ∃ snapshot stop, loadLatest Sample.moments Sample.watchSet 0 = (.ok snapshot, stop) ∧
      ∃ time, (Sample.moments time).Shows snapshot := by
  have returns : (loadLatest Sample.moments Sample.watchSet 0).1.toOption.isSome = true := by
    decide +kernel
  rcases result : loadLatest Sample.moments Sample.watchSet 0 with ⟨loaded, stop⟩
  rw [result] at returns
  cases loaded with
  | error => cases returns
  | ok snapshot =>
    obtain ⟨time, _, _, shows, _⟩ := snapshot_linearized Sample.moments_progress result
    exact ⟨snapshot, stop, rfl, time, shows⟩

/-- A call that overlaps with fewer changes than it has attempts returns a snapshot. -/
theorem snapshot_completes {history : Nat → Moment} (progresses : Progresses history)
    (available : Available history) (watchSet : WatchSet) (start : Nat)
    (few : (changes (fun time => (history time).registers) start
      (loadLatest history watchSet start).2).card < maxCanonicalSnapshotAttempts) :
    ∃ snapshot, (loadLatest history watchSet start).1 = .ok snapshot := by
  have counted : (loadLatest history watchSet).Ensures start _ _ :=
    loadAttempts_ensures progresses (by decide) rfl
  cases result : (loadLatest history watchSet start).1 with
  | ok snapshot => exact ⟨snapshot, rfl⟩
  | error failure =>
    obtain ⟨_, many⟩ := counted.of_error result available
    omega

theorem snapshot_completes_sample :
    (changes (fun time => (Sample.moments time).registers) 0
      (loadLatest Sample.moments Sample.watchSet 0).2).card = 1 ∧
    ∃ snapshot, (loadLatest Sample.moments Sample.watchSet 0).1 = .ok snapshot := by
  have once : (changes (fun time => (Sample.moments time).registers) 0
      (loadLatest Sample.moments Sample.watchSet 0).2).card = 1 := by decide +kernel
  refine ⟨once, snapshot_completes Sample.moments_progress Sample.moments_available _ _ ?_⟩
  rw [once]
  decide

namespace Node

variable {capacity : Nat} {options : Publisher.ServiceOptions} {initial : WatchSet}

/-- A step of the node that does not depend on the load under way. -/
def Elsewhere (capacity : Nat) (options : Publisher.ServiceOptions) (initial : WatchSet)
    (node after : Node) : Prop :=
  ∀ load, Step capacity options initial { node with load } { after with load }

variable {node : Nat → Node} {history : Nat → Moment}

theorem steps_of_leads
    (engine : ∀ time, Relation.ReflTransGen (Elsewhere capacity options initial) (node time)
      (node (time + 1)))
    (tracker : ∀ time, (history time).tracker = (node time).tracker)
    (clock : ∀ time, (history time).clock = (node time).clock) {start stop : Nat}
    {load after : LoadLatest} (leads : Leads history start load stop after) :
    Relation.ReflTransGen (Step capacity options initial) { node start with load }
      { node stop with load := after } := by
  have onward (time : Nat) (load : LoadLatest) :
      Relation.ReflTransGen (Step capacity options initial) { node time with load }
        { node (time + 1) with load } :=
    (engine time).lift (fun node => { node with load }) fun _ _ step => step load
  induction leads with
  | refl => exact .refl
  | @wait time reached _ ih => exact ih.trans (onward time reached)
  | @read time reached after _ reads ih =>
    rw [tracker, clock] at reads
    exact (ih.tail (.read reads)).trans (onward time after)

end Node

/-- Whatever the engine does between two reads, a call of the source is a run of the node's load,
and it ends by a return from its loop. -/
theorem snapshot_source_refines {capacity : Nat} {options : Publisher.ServiceOptions}
    {initial : WatchSet} {node : Nat → Node} {history : Nat → Moment}
    (engine : ∀ time, Relation.ReflTransGen (Node.Elsewhere capacity options initial) (node time)
      (node (time + 1)))
    (tracker : ∀ time, (history time).tracker = (node time).tracker)
    (clock : ∀ time, (history time).clock = (node time).clock) (watchSet : WatchSet)
    (start : Nat) :
    (loadLatest history watchSet).Ensures start
      (fun snapshot stop => ∃ revision, Relation.ReflTransGen (Node.Step capacity options initial)
        { node start with load := .tracking 1 }
        { node stop with load := .loaded snapshot revision })
      (fun failure stop => failure ≠ .unreachable ∧
        Relation.ReflTransGen (Node.Step capacity options initial)
          { node start with load := .tracking 1 } { node stop with load := .failed }) := by
  have leads : (loadLatest history watchSet).Ensures start _ _ :=
    loadAttempts_leads (by decide) rfl .refl
  refine leads.mono ?_ ?_
  · rintro snapshot stop ⟨revision, leads⟩
    exact ⟨revision, Node.steps_of_leads engine tracker clock leads⟩
  · rintro failure stop ⟨reachable, leads⟩
    exact ⟨reachable, Node.steps_of_leads engine tracker clock leads⟩

namespace Sample

def nodeAt (time : Nat) : Node :=
  if time < 2 then { Node.start with clock := time }
  else
    { Node.start with
      clock := time
      tracker := AppliedForkchoiceTracker.new.update (some secondView)
      callback := .updated (.forkchoiceApplied secondView)
      callbacks := 1 }

theorem node_moves (time : Nat) :
    Relation.ReflTransGen (Node.Elsewhere 1 options watchSet) (nodeAt time)
      (nodeAt (time + 1)) := by
  unfold nodeAt
  rcases Nat.lt_trichotomy time 1 with before | rfl | after
  · rw [if_pos (by omega), if_pos (by omega)]
    exact .single fun _ => .tick (Nat.le_succ time)
  · rw [if_pos (by decide), if_neg (by decide)]
    have ticks : Node.Elsewhere 1 options watchSet { Node.start with clock := 1 }
        { Node.start with clock := 2 } := fun _ => .tick (Nat.le_succ 1)
    exact .tail (.single ticks) fun _ => .update (.forkchoiceApplied secondView) rfl
  · rw [if_neg (by omega), if_neg (by omega)]
    exact .single fun _ => .tick (Nat.le_succ time)

end Sample

theorem snapshot_source_refines_sample :
    ∃ snapshot stop revision, loadLatest Sample.moments Sample.watchSet 0 = (.ok snapshot, stop) ∧
      Relation.ReflTransGen (Node.Step 1 Sample.options Sample.watchSet)
        { Sample.nodeAt 0 with load := .tracking 1 }
        { Sample.nodeAt stop with load := .loaded snapshot revision } := by
  have tracker (time : Nat) : (Sample.moments time).tracker = (Sample.nodeAt time).tracker := by
    change Sample.trackerAt time = _
    unfold Sample.trackerAt Sample.nodeAt
    split <;> rfl
  have clock (time : Nat) : (Sample.moments time).clock = (Sample.nodeAt time).clock := by
    unfold Sample.nodeAt
    split <;> rfl
  have refines := snapshot_source_refines Sample.node_moves tracker clock Sample.watchSet 0
  have returns : (loadLatest Sample.moments Sample.watchSet 0).1.toOption.isSome = true := by
    decide +kernel
  rcases result : loadLatest Sample.moments Sample.watchSet 0 with ⟨loaded, stop⟩
  rw [result] at returns
  cases loaded with
  | error => cases returns
  | ok snapshot =>
    rw [ensures_of_returns result] at refines
    obtain ⟨revision, steps⟩ := refines
    exact ⟨snapshot, stop, revision, rfl, steps⟩

end Statefeed
