import Statefeed.Library.FlagWord
import Statefeed.Library.History
import Statefeed.Model.Enqueue

set_option autoImplicit false

namespace Statefeed

def droppedOf (state : EnqueueState) : Nat := FlagWord.count (state : BitVec (63 + 1))

def maxDropped : Nat := 2 ^ 63 - 1

theorem locked_iff (state : EnqueueState) :
    state &&& enqueueLocked ≠ 0 ↔ state.msb = true := by
  have clear : state &&& enqueueLocked = 0 ↔ state.msb = false :=
    @FlagWord.and_flag_eq_zero 63 state
  exact (not_congr clear).trans (Bool.not_eq_false _).to_iff

theorem toNat_dropped (state : EnqueueState) : (state &&& dropCountMask).toNat = droppedOf state :=
  @FlagWord.toNat_and_mask 63 state

theorem droppedOf_le (state : EnqueueState) : droppedOf state ≤ maxDropped := by
  have bound : state.toNat % 2 ^ 63 < 2 ^ 63 := Nat.mod_lt _ (by decide)
  exact Nat.le_pred_of_lt bound

theorem eq_zero_iff (state : EnqueueState) : state = 0 ↔ state.msb = false ∧ droppedOf state = 0 :=
  @FlagWord.eq_zero_iff 63 state

theorem msb_released (state : EnqueueState) : (state &&& dropCountMask).msb = false :=
  @FlagWord.msb_and_mask 63 state

theorem droppedOf_released (state : EnqueueState) :
    droppedOf (state &&& dropCountMask) = droppedOf state :=
  @FlagWord.count_and_mask 63 state

theorem toNat_of_unlocked {state : EnqueueState} (unlocked : state.msb = false) :
    state.toNat = droppedOf state := by
  have parts : state.toNat = (if state.msb then 2 ^ 63 else 0) + droppedOf state :=
    @FlagWord.toNat_eq 63 state
  rw [unlocked] at parts
  simpa using parts

theorem drop_small (state : EnqueueState) :
    ∃ low : EnqueueState, recordDrop state = state &&& enqueueLocked ||| low ∧ low.msb = false ∧
      low.toNat = min (droppedOf state + 1) maxDropped := by
  have bound := droppedOf_le state
  have low := toNat_dropped state
  unfold maxDropped at bound ⊢
  have sum : (EnqueueState.saturatingAdd (state &&& dropCountMask) 1#64).toNat = droppedOf state + 1 := by
    unfold EnqueueState.saturatingAdd
    have fits : (state &&& dropCountMask).toNat + (1#64).toNat < 2 ^ 64 := by
      rw [low, BitVec.toNat_ofNat]
      omega
    rw [if_pos fits, BitVec.toNat_add, Nat.mod_eq_of_lt fits, low]
    rfl
  have mask : dropCountMask.toNat = 2 ^ 63 - 1 := by decide
  have small (value : EnqueueState) (below : value.toNat ≤ 2 ^ 63 - 1) : value.msb = false := by
    rw [BitVec.msb_eq_decide]
    simp only [decide_eq_false_iff_not, not_le]
    omega
  refine ⟨_, rfl, ?_⟩
  generalize EnqueueState.saturatingAdd (state &&& dropCountMask) 1#64 = dropped at sum ⊢
  have order : dropped ≤ dropCountMask ↔ dropped.toNat ≤ dropCountMask.toNat := Iff.rfl
  rw [mask] at order
  split
  · next fits =>
    have below := order.mp fits
    exact ⟨small _ below, by omega⟩
  · next beyond =>
    have above := (not_congr order).mp beyond
    exact ⟨small _ mask.le, by omega⟩

theorem msb_recordDrop (state : EnqueueState) : (recordDrop state).msb = state.msb := by
  obtain ⟨low, same, small, _⟩ := drop_small state
  rw [same]
  exact @FlagWord.msb_or 63 state low small

theorem droppedOf_recordDrop (state : EnqueueState) :
    droppedOf (recordDrop state) = min (droppedOf state + 1) maxDropped := by
  obtain ⟨low, same, small, counted⟩ := drop_small state
  rw [same, ← counted]
  exact @FlagWord.count_or 63 state low small

theorem examine_eq_some {state read : EnqueueState} :
    FeedQueue.examine state = some read ↔ state = read ∧ read.msb = false ∧ droppedOf read ≠ 0 := by
  unfold FeedQueue.examine
  simp only [locked_iff, eq_zero_iff]
  split
  · next stops =>
    refine ⟨nofun, ?_⟩
    rintro ⟨rfl, unlocked, some⟩
    rcases stops with locked | none
    · rw [unlocked] at locked
      cases locked
    · exact absurd none.2 some
  · next goes =>
    obtain ⟨unlocked, some⟩ := not_or.mp goes
    have unlocked := Bool.eq_false_of_not_eq_true unlocked
    constructor
    · intro same
      cases same
      exact ⟨rfl, unlocked, fun none => some ⟨unlocked, none⟩⟩
    · rintro ⟨rfl, _⟩
      rfl

def TrySend.Holds : TrySend → Prop
  | .sending _ | .overflowed | .releasing => True
  | _ => False

def TrySend.Settled : TrySend → Prop
  | .releasing | .notifying | .finished => True
  | _ => False

def TrySend.event : TrySend → Option FeedEvent
  | .reserving event | .sending event => some event
  | _ => none

namespace FeedQueue

variable {capacity : Nat} {feed after : FeedQueue}

theorem calls_advance (call : Nat) (stage : TrySend) (other : Nat) :
    (feed.advance call stage).calls other = if other = call then stage else feed.calls other :=
  Function.update_apply _ _ _ _

theorem holds_advance_of_iff {call : Nat} {stage : TrySend}
    (same : stage.Holds ↔ (feed.calls call).Holds) (other : Nat) :
    ((feed.advance call stage).calls other).Holds ↔ (feed.calls other).Holds := by
  rw [calls_advance]
  split
  · next equal => rw [equal, same]
  · rfl

theorem holds_advance_enter {call : Nat} {stage : TrySend} (holds : stage.Holds) (other : Nat) :
    ((feed.advance call stage).calls other).Holds ↔ other = call ∨ (feed.calls other).Holds := by
  rw [calls_advance]
  split
  · next equal => simp [equal, holds]
  · next different => simp [different]

theorem holds_advance_leave {call : Nat} {stage : TrySend} (leaves : ¬ stage.Holds) (other : Nat) :
    ((feed.advance call stage).calls other).Holds ↔ other ≠ call ∧ (feed.calls other).Holds := by
  rw [calls_advance]
  split
  · next equal => simp [equal, leaves]
  · next different => simp [different]

structure Reserved (feed : FeedQueue) : Prop where
  reservation : Reservation feed.enqueueState.msb fun call => (feed.calls call).Holds
  examined : ∀ state, feed.taking = some state → state.msb = false ∧ droppedOf state ≠ 0

theorem reserved_produces (reserved : feed.Reserved) (step : Produces capacity feed after) :
    after.Reserved := by
  obtain ⟨reservation, examined⟩ := reserved
  have keep {call : Nat} {stage : TrySend} (same : stage.Holds ↔ (feed.calls call).Holds) :
      Reservation feed.enqueueState.msb fun other => ((feed.advance call stage).calls other).Holds :=
    reservation.congr (holds_advance_of_iff same)
  cases step with
  | call event next => exact ⟨keep (by rw [next]; rfl), examined⟩
  | reserve next free =>
    rw [((eq_zero_iff feed.enqueueState).mp free).1] at reservation
    have set : enqueueLocked.msb = true := by decide
    refine ⟨?_, examined⟩
    rw [set]
    exact reservation.acquire (holds_advance_enter (by trivial))
  | refuse next _ => exact ⟨keep (by rw [next]; rfl), examined⟩
  | dropRefused next =>
    rw [← msb_recordDrop] at keep
    exact ⟨keep (by rw [next]; rfl), examined⟩
  | send next _ _ => exact ⟨keep (by rw [next]; rfl), examined⟩
  | overflow next _ _ => exact ⟨keep (by rw [next]; rfl), examined⟩
  | disconnected next _ => exact ⟨keep (by rw [next]; rfl), examined⟩
  | dropOverflowed next =>
    rw [← msb_recordDrop] at keep
    exact ⟨keep (by rw [next]; rfl), examined⟩
  | @release call next =>
    have owned : (feed.calls call).Holds := by
      rw [next]
      trivial
    refine ⟨?_, examined⟩
    rw [msb_released]
    refine reservation.release owned (holds_advance_leave ?_)
    split <;> exact id
  | notify next => exact ⟨keep (by rw [next]; rfl), examined⟩

theorem reserved_consumes (reserved : feed.Reserved) (step : Consumes feed after) :
    after.Reserved := by
  obtain ⟨reservation, examined⟩ := reserved
  have observed : feed.observe.Reserved :=
    ⟨reservation, fun state read => (examine_eq_some.mp read).2⟩
  cases step with
  | load _ => exact observed
  | retry _ => exact observed
  | @exchange state read same =>
    rw [same, (examined state read).1] at reservation
    have clear : (0 : EnqueueState).msb = false := by decide
    rw [← clear] at reservation
    exact ⟨reservation, nofun⟩
  | dequeue _ => exact ⟨reservation, examined⟩
  | wake _ => exact ⟨reservation, examined⟩
  | disconnect => exact ⟨reservation, examined⟩

def pending (log : List Mark) : Nat :=
  log.foldl (fun count mark =>
    match mark with
    | .dropped _ => count + 1
    | .took _ => 0
    | _ => count) 0

def recorded (log : List Mark) : Nat := log.countP fun mark => mark matches .dropped _

def taken (log : List Mark) : Nat :=
  (log.map fun mark => if let .took count := mark then count else 0).sum

def Tallies (before : List Mark) : Mark → Prop
  | .reserved _ => pending before = 0
  | .took count => 0 < count ∧ count = min (pending before) maxDropped
  | _ => True

structure Counted (feed : FeedQueue) : Prop where
  dropped : droppedOf feed.enqueueState = min (pending feed.log) maxDropped
  tallies : History.Each Tallies feed.log

theorem pending_concat (log : List Mark) (mark : Mark) :
    pending (log ++ [mark]) =
      match mark with
      | .dropped _ => pending log + 1
      | .took _ => 0
      | _ => pending log := by
  unfold pending
  rw [List.foldl_concat]

theorem pending_eq_zero (counted : feed.Counted) (none : droppedOf feed.enqueueState = 0) :
    pending feed.log = 0 := by
  have dropped := counted.dropped
  unfold maxDropped at dropped
  omega

theorem counted_produces (counted : feed.Counted) (step : Produces capacity feed after) :
    after.Counted := by
  obtain ⟨dropped, tallies⟩ := counted
  -- What `record_drop` stores is the saturated number of drops after it.
  have recorded (call : Nat) : droppedOf (recordDrop feed.enqueueState) =
      min (pending (feed.log ++ [.dropped call])) maxDropped := by
    rw [droppedOf_recordDrop, dropped, pending_concat]
    dsimp only
    omega
  cases step with
  | call event next => exact ⟨dropped, tallies⟩
  | reserve next free =>
    have none := pending_eq_zero ⟨dropped, tallies⟩ ((eq_zero_iff _).mp free).2
    refine ⟨?_, History.each_concat.mpr ⟨tallies, none⟩⟩
    rw [pending_concat]
    dsimp only
    rw [none]
    decide
  | refuse next _ => exact ⟨dropped, tallies⟩
  | dropRefused next => exact ⟨recorded _, History.each_concat.mpr ⟨tallies, trivial⟩⟩
  | send next _ _ =>
    refine ⟨?_, History.each_concat.mpr ⟨tallies, trivial⟩⟩
    rw [pending_concat]
    exact dropped
  | overflow next _ _ => exact ⟨dropped, tallies⟩
  | disconnected next _ => exact ⟨dropped, tallies⟩
  | dropOverflowed next => exact ⟨recorded _, History.each_concat.mpr ⟨tallies, trivial⟩⟩
  | release next =>
    refine ⟨?_, tallies⟩
    rw [droppedOf_released]
    exact dropped
  | notify next => exact ⟨dropped, tallies⟩

theorem counted_consumes (reserved : feed.Reserved) (counted : feed.Counted)
    (step : Consumes feed after) : after.Counted := by
  obtain ⟨dropped, tallies⟩ := counted
  cases step with
  | load _ => exact ⟨dropped, tallies⟩
  | retry _ => exact ⟨dropped, tallies⟩
  | @exchange state read same =>
    obtain ⟨unlocked, some⟩ := reserved.examined state read
    rw [same] at dropped
    have all : Tallies feed.log (.took state.toNat) := by
      unfold Tallies
      rw [toNat_of_unlocked unlocked]
      exact ⟨Nat.pos_of_ne_zero some, dropped⟩
    refine ⟨?_, History.each_concat.mpr ⟨tallies, all⟩⟩
    change droppedOf 0 = min (pending (feed.log ++ [.took state.toNat])) maxDropped
    rw [pending_concat]
    rfl
  | dequeue _ =>
    refine ⟨?_, History.each_concat.mpr ⟨tallies, trivial⟩⟩
    change droppedOf feed.enqueueState = min (pending (feed.log ++ [_])) maxDropped
    rw [pending_concat]
    exact dropped
  | wake _ => exact ⟨dropped, tallies⟩
  | disconnect => exact ⟨dropped, tallies⟩

theorem taken_add_pending {log : List Mark} (tallies : History.Each Tallies log)
    (unsaturated : ∀ before, before <+: log → pending before ≤ maxDropped) :
    taken log + pending log = recorded log := by
  induction log using List.reverseRecOn with
  | nil => rfl
  | append_singleton log mark ih =>
    obtain ⟨earlier, last⟩ := History.each_concat.mp tallies
    have before := ih earlier fun part within =>
      unsaturated part (within.trans (List.prefix_append _ _))
    have small := unsaturated log (List.prefix_append _ _)
    rw [pending_concat]
    unfold taken recorded at before ⊢
    simp only [List.map_append, List.sum_append, List.countP_append, List.map_cons, List.map_nil]
    cases mark with
    | reserved | queued | dequeued => simpa using before
    | dropped =>
      simp
      omega
    | took count =>
      have whole : count = pending log := last.2.trans (Nat.min_eq_left small)
      simp
      omega

def Follows (before : List Mark) : Mark → Prop
  | .queued call => .reserved call ∈ before
  | .dequeued call => .queued call ∈ before
  | _ => True

structure Traced (feed : FeedQueue) : Prop where
  reserved : ∀ call, (feed.calls call).Holds → .reserved call ∈ feed.log
  queued : ∀ entry ∈ feed.queue, .queued entry.1 ∈ feed.log
  follows : History.Each Follows feed.log

theorem Traced.advance (traced : feed.Traced) (call : Nat) (stage : TrySend)
    (held : stage.Holds → (feed.calls call).Holds) : (feed.advance call stage).Traced := by
  refine ⟨fun other holds => ?_, traced.queued, traced.follows⟩
  rw [calls_advance] at holds
  split at holds
  · next same =>
    rw [same]
    exact traced.reserved call (held holds)
  · exact traced.reserved other holds

theorem Traced.record (traced : feed.Traced) (mark : Mark) (follows : Follows feed.log mark)
    (calls : after.calls = feed.calls) (queue : ∀ entry ∈ after.queue, entry ∈ feed.queue)
    (log : after.log = feed.log ++ [mark]) : after.Traced := by
  constructor
  · intro call holds
    rw [calls] at holds
    rw [log]
    exact List.mem_append_left _ (traced.reserved call holds)
  · intro entry member
    rw [log]
    exact List.mem_append_left _ (traced.queued entry (queue entry member))
  · rw [log]
    exact History.each_concat.mpr ⟨traced.follows, follows⟩

theorem traced_produces (traced : feed.Traced) (step : Produces capacity feed after) :
    after.Traced := by
  cases step with
  | call event next => exact traced.advance _ _ nofun
  | @reserve call event next free =>
    refine ⟨fun other holds => ?_, ?_, History.each_concat.mpr ⟨traced.follows, trivial⟩⟩
    · rcases (holds_advance_enter (by trivial) other).mp holds with rfl | earlier
      · exact List.mem_append_right _ List.mem_cons_self
      · exact List.mem_append_left _ (traced.reserved other earlier)
    · exact fun entry member => List.mem_append_left _ (traced.queued entry member)
  | refuse next _ => exact traced.advance _ _ nofun
  | @dropRefused call next =>
    exact (traced.advance call .notifying nofun).record (.dropped call) trivial rfl (fun _ => id) rfl
  | @send call event next _ _ =>
    have held : (feed.calls call).Holds := by
      rw [next]
      trivial
    have advanced := traced.advance call .releasing fun _ => held
    -- A call that queues has reserved before, which the log shows.
    have follows : Follows feed.log (.queued call) := traced.reserved call held
    refine ⟨?_, ?_, History.each_concat.mpr ⟨traced.follows, follows⟩⟩
    · exact fun other holds => List.mem_append_left _ (advanced.reserved other holds)
    · intro entry member
      rcases List.mem_append.mp member with earlier | last
      · exact List.mem_append_left _ (traced.queued entry earlier)
      · cases List.mem_singleton.mp last
        exact List.mem_append_right _ List.mem_cons_self
  | overflow next _ _ => exact traced.advance _ _ fun _ => by rw [next]; trivial
  | disconnected next _ => exact traced.advance _ _ fun _ => by rw [next]; trivial
  | @dropOverflowed call next =>
    have advanced := traced.advance call .releasing fun _ => by rw [next]; trivial
    exact advanced.record (.dropped call) trivial rfl (fun _ => id) rfl
  | @release call next =>
    obtain ⟨reserved, queued, follows⟩ := traced.advance call _ fun _ => by rw [next]; trivial
    exact ⟨reserved, queued, follows⟩
  | @notify call next =>
    obtain ⟨reserved, queued, follows⟩ := traced.advance call .finished nofun
    exact ⟨reserved, queued, follows⟩

theorem traced_consumes (traced : feed.Traced) (step : Consumes feed after) : after.Traced := by
  cases step with
  | load _ | retry _ | wake _ => exact ⟨traced.reserved, traced.queued, traced.follows⟩
  | exchange _ _ => exact traced.record (.took _) trivial rfl (fun _ => id) rfl
  | @dequeue call event rest next =>
    have waiting : (call, event) ∈ feed.queue := by
      rw [next]
      exact List.mem_cons_self
    refine traced.record (.dequeued call) (traced.queued _ waiting) rfl ?_ rfl
    rw [next]
    exact fun entry member => List.mem_cons_of_mem _ member
  | disconnect =>
    exact ⟨traced.reserved, fun _ member => absurd member List.not_mem_nil, traced.follows⟩

def settlements (log : List Mark) (call : Nat) : Nat :=
  log.count (.queued call) + log.count (.dropped call)

def queuedCalls (log : List Mark) : List Nat :=
  log.filterMap fun mark => if let .queued call := mark then some call else none

def dequeuedCalls (log : List Mark) : List Nat :=
  log.filterMap fun mark => if let .dequeued call := mark then some call else none

structure Settles (feed : FeedQueue) : Prop where
  unsettled : ∀ call, ¬ (feed.calls call).Settled → settlements feed.log call = 0
  settled : ∀ call, (feed.calls call).Settled → settlements feed.log call = 1
  order : dequeuedCalls feed.log ++ feed.queue.map Prod.fst = queuedCalls feed.log

theorem settlements_concat (log : List Mark) (mark : Mark) (call : Nat) :
    settlements (log ++ [mark]) call =
      settlements log call + if mark = .queued call ∨ mark = .dropped call then 1 else 0 := by
  unfold settlements
  rw [List.count_append, List.count_append, List.count_singleton, List.count_singleton]
  cases mark <;> simp <;> omega

theorem Settles.advance (settles : feed.Settles) (call : Nat) (stage : TrySend)
    (same : stage.Settled ↔ (feed.calls call).Settled) : (feed.advance call stage).Settles := by
  have unchanged (other : Nat) : ((feed.advance call stage).calls other).Settled ↔
      (feed.calls other).Settled := by
    rw [calls_advance]
    split
    · next equal => rw [equal, same]
    · rfl
  refine ⟨fun other before => ?_, fun other behind => ?_, settles.order⟩
  · exact settles.unsettled other ((not_congr (unchanged other)).mp before)
  · exact settles.settled other ((unchanged other).mp behind)

theorem Settles.record (settles : feed.Settles) (mark : Mark)
    (neutral : ∀ call, ¬ (mark = .queued call ∨ mark = .dropped call))
    (calls : after.calls = feed.calls) (log : after.log = feed.log ++ [mark])
    (order : dequeuedCalls after.log ++ after.queue.map Prod.fst = queuedCalls after.log) :
    after.Settles := by
  have same (call : Nat) : settlements after.log call = settlements feed.log call := by
    rw [log, settlements_concat, if_neg (neutral call), Nat.add_zero]
  refine ⟨?_, ?_, order⟩
  · intro call before
    rw [calls] at before
    exact (same call).trans (settles.unsettled call before)
  · intro call behind
    rw [calls] at behind
    exact (same call).trans (settles.settled call behind)

theorem Settles.settle (settles : feed.Settles) (call : Nat) (stage : TrySend) (mark : Mark)
    (before : ¬ (feed.calls call).Settled) (behind : stage.Settled)
    (settling : ∀ other, mark = .queued other ∨ mark = .dropped other ↔ other = call)
    (calls : after.calls = (feed.advance call stage).calls) (log : after.log = feed.log ++ [mark])
    (order : dequeuedCalls after.log ++ after.queue.map Prod.fst = queuedCalls after.log) :
    after.Settles := by
  refine ⟨?_, ?_, order⟩
  · intro other unsettled
    rw [calls, calls_advance] at unsettled
    rw [log, settlements_concat]
    split at unsettled
    · exact absurd behind unsettled
    · next different =>
      rw [if_neg ((not_congr (settling other)).mpr different), Nat.add_zero]
      exact settles.unsettled other unsettled
  · intro other settled
    rw [calls, calls_advance] at settled
    rw [log, settlements_concat]
    split at settled
    · next same =>
      rw [if_pos ((settling other).mpr same), same, settles.unsettled call before]
    · next different =>
      rw [if_neg ((not_congr (settling other)).mpr different), Nat.add_zero]
      exact settles.settled other settled

theorem settles_produces (connected : feed.connected = true) (settles : feed.Settles)
    (step : Produces capacity feed after) : after.Settles := by
  cases step with
  | call event next => exact settles.advance _ _ (by rw [next]; rfl)
  | @reserve call event next free =>
    have advanced := settles.advance call (.sending event) (by rw [next]; rfl)
    refine advanced.record (.reserved call) nofun rfl rfl ?_
    simpa [advance, dequeuedCalls, queuedCalls] using settles.order
  | refuse next _ => exact settles.advance _ _ (by rw [next]; rfl)
  | @dropRefused call next =>
    refine settles.settle call .notifying (.dropped call) (by rw [next]; exact id) (by trivial) ?_
      rfl rfl ?_
    · simp [eq_comm]
    · simpa [advance, dequeuedCalls, queuedCalls] using settles.order
  | @send call event next _ _ =>
    refine settles.settle call .releasing (.queued call) (by rw [next]; exact id) (by trivial) ?_
      rfl rfl ?_
    · simp [eq_comm]
    · have order := settles.order
      unfold dequeuedCalls queuedCalls at order ⊢
      simp [← order]
  | overflow next _ _ => exact settles.advance _ _ (by rw [next]; rfl)
  | disconnected _ gone =>
    -- With the receiver connected a send cannot fail for its absence.
    rw [connected] at gone
    cases gone
  | @dropOverflowed call next =>
    refine settles.settle call .releasing (.dropped call) (by rw [next]; exact id) (by trivial) ?_
      rfl rfl ?_
    · simp [eq_comm]
    · simpa [advance, dequeuedCalls, queuedCalls] using settles.order
  | @release call next =>
    obtain ⟨unsettled, settled, order⟩ := settles.advance call
      (if feed.enqueueState &&& dropCountMask ≠ 0 then .notifying else .finished)
      (by rw [next]; split <;> rfl)
    exact ⟨unsettled, settled, order⟩
  | @notify call next =>
    obtain ⟨unsettled, settled, order⟩ := settles.advance call .finished (by rw [next]; rfl)
    exact ⟨unsettled, settled, order⟩

theorem settles_consumes (connected : after.connected = true) (settles : feed.Settles)
    (step : Consumes feed after) : after.Settles := by
  cases step with
  | load _ | retry _ | wake _ => exact ⟨settles.unsettled, settles.settled, settles.order⟩
  | exchange _ _ =>
    refine settles.record (.took _) nofun rfl rfl ?_
    simpa [exchange, dequeuedCalls, queuedCalls] using settles.order
  | @dequeue call event rest next =>
    refine settles.record (.dequeued call) nofun rfl rfl ?_
    have order := settles.order
    rw [next] at order
    simpa [dequeue, dequeuedCalls, queuedCalls] using order
  | disconnect => cases connected

theorem connected_step (connected : after.connected = true) (step : Step capacity feed after) :
    feed.connected = true := by
  rcases step with step | step
  · cases step <;> exact connected
  · cases step with
    | disconnect => cases connected
    | _ => exact connected

def Made (capacity : Nat) (feed : FeedQueue) (call : Nat) (event : FeedEvent) : Prop :=
  ∃ earlier, Reaches capacity earlier ∧ earlier.calls call = .reserving event ∧
    Relation.ReflTransGen (Step capacity) earlier feed

structure Carries (capacity : Nat) (feed : FeedQueue) : Prop where
  calls : ∀ call event, (feed.calls call).event = some event → Made capacity feed call event
  queue : ∀ entry ∈ feed.queue, Made capacity feed entry.1 entry.2

theorem carries_step (reached : Reaches capacity feed) (carries : Carries capacity feed)
    (step : Step capacity feed after) : Carries capacity after := by
  -- A call made once stays made, whatever the other calls do.
  have later {call : Nat} {event : FeedEvent} (made : Made capacity feed call event) :
      Made capacity after call event := by
    obtain ⟨earlier, begun, reserving, run⟩ := made
    exact ⟨earlier, begun, reserving, run.tail step⟩
  have waits (queue : ∀ entry ∈ after.queue, entry ∈ feed.queue) (entry : Nat × FeedEvent)
      (member : entry ∈ after.queue) : Made capacity after entry.1 entry.2 :=
    later (carries.queue entry (queue entry member))
  -- Only one call moves; it brings its event from its last stage or has just been made.
  have moves {call : Nat} {stage : TrySend} (calls : after.calls = (feed.advance call stage).calls)
      (kept : ∀ event, stage.event = some event →
        (feed.calls call).event = some event ∨ after.calls call = .reserving event)
      (other : Nat) (event : FeedEvent) (under : (after.calls other).event = some event) :
      Made capacity after other event := by
    rw [calls, calls_advance] at under
    split at under
    · next same =>
      subst same
      rcases kept event under with old | new
      · exact later (carries.calls _ event old)
      · exact ⟨after, reached.tail step, new, .refl⟩
    · exact later (carries.calls other event under)
  rcases step with step | step
  · cases step with
    | @call call event next =>
      refine ⟨moves rfl fun other same => .inr ?_, waits fun _ => id⟩
      cases same
      exact Function.update_self ..
    | reserve next => exact ⟨moves rfl fun _ same => .inl (next ▸ same), waits fun _ => id⟩
    | send next =>
      refine ⟨moves rfl fun _ none => (by cases none), fun entry member => ?_⟩
      rcases List.mem_append.mp member with earlier | last
      · exact later (carries.queue entry earlier)
      · cases List.mem_singleton.mp last
        exact later (carries.calls _ _ (by rw [next]; rfl))
    | release => exact ⟨moves rfl fun _ none => (by split at none <;> cases none), waits fun _ => id⟩
    | _ => exact ⟨moves rfl fun _ none => (by cases none), waits fun _ => id⟩
  · cases step with
    | dequeue next =>
      refine ⟨fun call event under => later (carries.calls call event under), waits ?_⟩
      rw [next]
      exact fun entry member => List.mem_cons_of_mem _ member
    | disconnect =>
      exact ⟨fun call event under => later (carries.calls call event under),
        fun _ member => absurd member List.not_mem_nil⟩
    | _ => exact ⟨fun call event under => later (carries.calls call event under), waits fun _ => id⟩

structure Kept (feed : FeedQueue) : Prop where
  reserved : feed.Reserved
  counted : feed.Counted
  traced : feed.Traced
  settles : feed.connected = true → feed.Settles

theorem kept_start : start.Kept where
  reserved :=
    { reservation :=
        { held := ⟨fun set => absurd set (by decide), fun ⟨_, held⟩ => held.elim⟩
          single := fun _ _ held => held.elim }
      examined := nofun }
  counted := ⟨by decide, History.each_nil⟩
  traced := ⟨fun _ held => held.elim, fun _ member => absurd member List.not_mem_nil,
    History.each_nil⟩
  settles _ := ⟨fun _ _ => rfl, fun _ settled => settled.elim, rfl⟩

theorem kept_step (kept : feed.Kept) (step : Step capacity feed after) : after.Kept := by
  have connected (still : after.connected = true) := connected_step still step
  rcases step with step | step
  · exact ⟨reserved_produces kept.reserved step, counted_produces kept.counted step,
      traced_produces kept.traced step, fun still =>
        settles_produces (connected still) (kept.settles (connected still)) step⟩
  · exact ⟨reserved_consumes kept.reserved step, counted_consumes kept.reserved kept.counted step,
      traced_consumes kept.traced step, fun still =>
        settles_consumes still (kept.settles (connected still)) step⟩

theorem kept_reaches (reached : Reaches capacity feed) : feed.Kept := by
  induction reached with
  | refl => exact kept_start
  | tail _ step ih => exact kept_step ih step

theorem carries_reaches (reached : Reaches capacity feed) : Carries capacity feed := by
  induction reached with
  | refl => exact ⟨fun _ _ none => (by cases none), fun _ member => absurd member List.not_mem_nil⟩
  | tail run step ih => exact carries_step run ih step

def Covered (log : List Mark) : Prop :=
  ∀ first call rest, log = first ++ .dropped call :: rest →
    ∃ middle count last, rest = middle ++ .took count :: last ∧
      (∀ other, .took other ∉ middle) ∧ 0 < count ∧
      count = min (pending (first ++ .dropped call :: middle)) maxDropped

theorem pending_le_append (log : List Mark) {rest : List Mark} (untaken : ∀ count, .took count ∉ rest) :
    pending log ≤ pending (log ++ rest) := by
  induction rest using List.reverseRecOn with
  | nil => simp
  | append_singleton rest mark ih =>
    have before := ih fun count member => untaken count (List.mem_append_left _ member)
    rw [← List.append_assoc, pending_concat]
    cases mark with
    | took count => exact absurd (List.mem_append_right _ List.mem_cons_self) (untaken count)
    | dropped => exact before.trans (Nat.le_succ _)
    | reserved | queued | dequeued => exact before

theorem covered_of_pending {log : List Mark} (tallies : History.Each Tallies log)
    (none : pending log = 0) : Covered log := by
  intro first call rest whole
  have grown : 0 < pending (first ++ [.dropped call]) := by
    rw [pending_concat]
    exact Nat.succ_pos _
  -- Without a take after it the drop would still be pending.
  have later : ∃ count, .took count ∈ rest := by
    by_contra never
    have kept := pending_le_append (first ++ [.dropped call]) (not_exists.mp never)
    rw [List.append_assoc] at kept
    change _ ≤ pending (first ++ .dropped call :: rest) at kept
    rw [← whole, none] at kept
    omega
  obtain ⟨count, member⟩ := later
  obtain ⟨taking, found⟩ : ∃ taking, rest.find? (fun mark => mark matches .took _) = some taking := by
    refine Option.isSome_iff_exists.mp (List.find?_isSome.mpr ⟨.took count, member, rfl⟩)
  obtain ⟨takes, middle, last, split, untaken⟩ := List.find?_eq_some_iff_append.mp found
  cases taking with
  | took taken =>
    subst split
    have here := tallies (first ++ .dropped call :: middle) (.took taken) last (by simp [whole])
    refine ⟨middle, taken, last, rfl, fun other member => ?_, here⟩
    have not := untaken _ member
    cases not
  | _ => cases takes

/-- The guarantees of the engine queue. -/
structure Accounted (capacity : Nat) (feed : FeedQueue) : Prop where
  locked : feed.enqueueState &&& enqueueLocked ≠ 0 ↔ ∃ call, (feed.calls call).Holds
  single : ∀ first second, (feed.calls first).Holds → (feed.calls second).Holds → first = second
  once : feed.connected = true → ∀ call, feed.calls call = .finished →
    feed.log.count (.queued call) + feed.log.count (.dropped call) = 1
  order : feed.connected = true →
    dequeuedCalls feed.log ++ feed.queue.map Prod.fst = queuedCalls feed.log
  events : ∀ entry ∈ feed.queue, Made capacity feed entry.1 entry.2
  balance : (∀ before, before <+: feed.log → pending before ≤ maxDropped) →
    taken feed.log + (feed.enqueueState &&& dropCountMask).toNat = recorded feed.log
  reserved : ∀ before call after, feed.log = before ++ .reserved call :: after → Covered before
  dequeued : ∀ before call after, feed.log = before ++ .dequeued call :: after →
    ∃ first rest, before = first ++ .reserved call :: rest ∧ Covered first

theorem Kept.covered (kept : feed.Kept) {before after : List Mark} {call : Nat}
    (split : feed.log = before ++ .reserved call :: after) : Covered before := by
  have tallies := kept.counted.tallies
  refine covered_of_pending (tallies.of_prefix ?_) (tallies before (.reserved call) after split)
  rw [split]
  exact List.prefix_append _ _

theorem Kept.reserved_of_dequeued (kept : feed.Kept) {before after : List Mark} {call : Nat}
    (split : feed.log = before ++ .dequeued call :: after) :
    ∃ first rest, before = first ++ .reserved call :: rest := by
  have follows := kept.traced.follows
  have queued : .queued call ∈ before := follows before (.dequeued call) after split
  obtain ⟨early, late, rfl⟩ := List.append_of_mem queued
  have reserved : .reserved call ∈ early :=
    follows early (.queued call) (late ++ .dequeued call :: after) (by simp [split])
  obtain ⟨first, rest, rfl⟩ := List.append_of_mem reserved
  exact ⟨first, rest ++ .queued call :: late, by simp⟩

end FeedQueue

/-- In every interleaving of the producers and the publisher the losses are accounted for. -/
theorem queue_loss_accounted {capacity : Nat} {feed : FeedQueue}
    (reached : FeedQueue.Reaches capacity feed) : feed.Accounted capacity := by
  have kept := FeedQueue.kept_reaches reached
  constructor
  · exact (locked_iff feed.enqueueState).trans kept.reserved.reservation.held
  · exact kept.reserved.reservation.single
  · intro connected call finished
    refine (kept.settles connected).settled call ?_
    rw [finished]
    trivial
  · exact fun connected => (kept.settles connected).order
  · exact (FeedQueue.carries_reaches reached).queue
  · intro unsaturated
    have all := FeedQueue.taken_add_pending kept.counted.tallies unsaturated
    have small := unsaturated feed.log (List.prefix_refl _)
    rw [toNat_dropped, kept.counted.dropped, Nat.min_eq_left small]
    exact all
  · exact fun before call after => kept.covered
  · intro before call after split
    obtain ⟨first, rest, rfl⟩ := kept.reserved_of_dequeued split
    have reservation : feed.log = first ++ .reserved call :: (rest ++ .dequeued call :: after) := by
      simpa using split
    exact ⟨first, rest, rfl, kept.covered reservation⟩

theorem queue_loss_accounted_sample :
    ∃ feed, FeedQueue.Reaches 1 feed ∧ feed.Accounted 1 ∧
      feed.log = [.reserved 0, .dropped 1, .queued 0, .took 1] := by
  have first : FeedQueue.Reaches 1 _ :=
    .tail .refl (.inl (@FeedQueue.Produces.call 1 _ 0 (.validated 0 1 0) rfl))
  have second : FeedQueue.Reaches 1 _ :=
    first.tail (.inl (@FeedQueue.Produces.call 1 _ 1 (.validated 0 1 0) rfl))
  have reserves : FeedQueue.Reaches 1 _ :=
    second.tail (.inl (@FeedQueue.Produces.reserve 1 _ 0 (.validated 0 1 0) rfl rfl))
  have refuses : FeedQueue.Reaches 1 _ :=
    reserves.tail (.inl (@FeedQueue.Produces.refuse 1 _ 1 (.validated 0 1 0) rfl (by decide)))
  have drops : FeedQueue.Reaches 1 _ := refuses.tail (.inl (@FeedQueue.Produces.dropRefused 1 _ 1 rfl))
  have sends : FeedQueue.Reaches 1 _ :=
    drops.tail (.inl (@FeedQueue.Produces.send 1 _ 0 (.validated 0 1 0) rfl rfl (by decide)))
  have releases : FeedQueue.Reaches 1 _ := sends.tail (.inl (@FeedQueue.Produces.release 1 _ 0 rfl))
  have loads : FeedQueue.Reaches 1 _ := releases.tail (.inr (.load rfl))
  have takes : FeedQueue.Reaches 1 _ :=
    loads.tail (.inr (@FeedQueue.Consumes.exchange _ 1 (by decide) (by decide)))
  exact ⟨_, takes, queue_loss_accounted takes, rfl⟩

end Statefeed
