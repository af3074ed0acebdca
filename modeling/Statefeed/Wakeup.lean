import Statefeed.Enqueue
import Statefeed.Model.Waiting

set_option autoImplicit false

namespace Statefeed

def ThreadStage.Looks : ThreadStage → Prop
  | .top | .taking _ | .recovering _ | .stopped => True
  | _ => False

def FeedQueue.Lossy (feed : FeedQueue) : Prop :=
  feed.enqueueState.msb = false ∧ droppedOf feed.enqueueState ≠ 0

def FeedQueue.Notifies (feed : FeedQueue) : Prop := ∃ call, feed.calls call = .notifying

theorem FeedQueue.notifies_advance {feed : FeedQueue} {call : Nat} {stage : TrySend}
    (notifies : feed.Notifies) (other : feed.calls call ≠ .notifying) :
    (feed.advance call stage).Notifies := by
  obtain ⟨notifier, notifying⟩ := notifies
  refine ⟨notifier, ?_⟩
  rw [calls_advance, if_neg]
  · exact notifying
  · rintro rfl
    exact other notifying

theorem FeedQueue.lossy_iff (feed : FeedQueue) :
    feed.Lossy ↔ feed.enqueueState &&& enqueueLocked = 0 ∧ feed.enqueueState &&& dropCountMask ≠ 0 := by
  have unlocked := not_congr (locked_iff feed.enqueueState)
  have some : feed.enqueueState &&& dropCountMask = 0 ↔ droppedOf feed.enqueueState = 0 := by
    rw [eq_zero_iff, droppedOf_released, msb_released]
    simp
  unfold Lossy
  rw [ne_eq, ne_eq, some, ← not_not (a := feed.enqueueState &&& enqueueLocked = 0)]
  rw [← ne_eq, unlocked]
  simp

namespace PublisherThread

variable {capacity : Nat} {thread after : PublisherThread}

def Alert (thread : PublisherThread) : Prop :=
  thread.feed.Lossy → thread.feed.notified = true ∨ thread.feed.Notifies ∨ thread.stage.Looks

theorem alert_produces {feed : FeedQueue} (reserved : thread.feed.Reserved) (alert : thread.Alert)
    (step : FeedQueue.Produces capacity thread.feed feed) : Alert { thread with feed } := by
  intro lossy
  -- A call that is not about to notify moves, and the state stays as it is.
  have keep {call : Nat} {stage : TrySend} (before : thread.feed.Lossy)
      (other : thread.feed.calls call ≠ .notifying) :
      thread.feed.notified = true ∨ (thread.feed.advance call stage).Notifies ∨
        thread.stage.Looks := by
    rcases alert before with token | notifies | looks
    · exact .inl token
    · exact .inr (.inl (FeedQueue.notifies_advance notifies other))
    · exact .inr (.inr looks)
  cases step with
  | call event next => exact keep lossy (by rw [next]; nofun)
  | reserve next free =>
    have unlocked : enqueueLocked.msb = false := lossy.1
    exact absurd unlocked (by decide)
  | refuse next _ => exact keep lossy (by rw [next]; nofun)
  | @dropRefused call next =>
    exact .inr (.inl ⟨call, by exact Function.update_self _ _ _⟩)
  | send next _ _ => exact keep lossy (by rw [next]; nofun)
  | overflow next _ _ => exact keep lossy (by rw [next]; nofun)
  | disconnected next _ => exact keep lossy (by rw [next]; nofun)
  | @dropOverflowed call next =>
    -- The call holds the lock, and `record_drop` leaves it.
    have held : thread.feed.enqueueState.msb = true :=
      reserved.reservation.held.mpr ⟨call, by rw [next]; trivial⟩
    have unlocked : (recordDrop thread.feed.enqueueState).msb = false := lossy.1
    rw [msb_recordDrop, held] at unlocked
    cases unlocked
  | @release call next =>
    have some : thread.feed.enqueueState &&& dropCountMask ≠ 0 := by
      intro none
      exact lossy.2 ((eq_zero_iff _).mp none).2
    refine .inr (.inl ⟨call, ?_⟩)
    refine (FeedQueue.calls_advance call _ call).trans ?_
    rw [if_pos rfl, if_pos some]
  | notify next => exact .inl rfl

theorem examine_none {state : EnqueueState} (stops : FeedQueue.examine state = none) :
    ¬ (state.msb = false ∧ droppedOf state ≠ 0) := by
  intro lossy
  have goes := examine_eq_some.mpr ⟨rfl, lossy⟩
  rw [stops] at goes
  cases goes

theorem alert_observe (resume : Resume) : (thread.observe resume).Alert := by
  intro lossy
  cases examined : FeedQueue.examine thread.feed.enqueueState with
  | none => exact absurd lossy (examine_none examined)
  | some state =>
    refine .inr (.inr ?_)
    unfold observe FeedQueue.observe
    rw [examined]
    trivial

theorem looks_moves {stage next : ThreadStage} (moves : stage.Moves next) (looks : stage.Looks) :
    next.Looks := by
  cases moves <;> trivial

theorem Alert.move (alert : thread.Alert) {stage : ThreadStage}
    (looks : thread.stage.Looks → stage.Looks) : Alert { thread with stage } := by
  intro lossy
  rcases alert lossy with token | notifies | looking
  · exact .inl token
  · exact .inr (.inl notifies)
  · exact .inr (.inr (looks looking))

theorem alert_attends (alert : thread.Alert) (step : Attends thread after) : after.Alert := by
  cases step with
  | move moves => exact alert.move (looks_moves moves)
  | load _ _ => exact alert_observe _
  | retry _ _ => exact alert_observe _
  | exchange _ _ _ =>
    intro lossy
    have some : droppedOf 0 ≠ 0 := lossy.2
    exact absurd rfl some
  | receive _ _ => exact fun _ => .inr (.inr trivial)
  | @starve stage next _ =>
    refine alert.move fun looks => ?_
    generalize thread.stage = before at next looks
    cases next <;> exact looks.elim
  | spinUnwoken next _ => exact alert.move fun looks => by rw [next] at looks; exact looks.elim
  -- The token is gone, and the thread is on its way to look.
  | spinWake _ _ => exact fun _ => .inr (.inr trivial)
  | parkedWake _ _ => exact fun _ => .inr (.inr trivial)
  | stop _ => exact fun _ => .inr (.inr trivial)

theorem feed_attends (step : Attends thread after) :
    after.feed = thread.feed ∨ FeedQueue.Consumes thread.feed after.feed := by
  cases step with
  | move _ | starve _ _ | spinUnwoken _ _ => exact .inl rfl
  | load _ idle => exact .inr (.load idle)
  | exchange _ read same => exact .inr (.exchange read same)
  | retry _ read => exact .inr (.retry read)
  | receive _ ready => exact .inr (.dequeue ready)
  | spinWake _ token | parkedWake _ token => exact .inr (.wake token)
  | stop _ => exact .inr .disconnect

theorem kept_alert (reached : Reaches capacity thread) : thread.feed.Kept ∧ thread.Alert := by
  induction reached with
  | refl => exact ⟨FeedQueue.kept_start, fun lossy => absurd rfl lossy.2⟩
  | tail _ step ih =>
    obtain ⟨kept, alert⟩ := ih
    cases step with
    | produce step =>
      exact ⟨FeedQueue.kept_step kept (.inl step), alert_produces kept.reserved alert step⟩
    | attend step =>
      refine ⟨?_, alert_attends alert step⟩
      rcases feed_attends step with same | consumes
      · rw [same]
        exact kept
      · exact @FeedQueue.kept_step capacity _ _ kept (.inr consumes)

def Idle (thread : PublisherThread) : Prop :=
  thread.feed.taking = none ∨ ∃ resume, thread.stage = .taking resume

theorem Idle.elsewhere (idle : thread.Idle) (other : ∀ resume, thread.stage ≠ .taking resume) :
    thread.feed.taking = none := by
  rcases idle with none | ⟨resume, taking⟩
  · exact none
  · exact absurd taking (other resume)

theorem taking_produces {feed other : FeedQueue} (step : FeedQueue.Produces capacity feed other) :
    other.taking = feed.taking := by
  cases step <;> rfl

theorem idle_observe (resume : Resume) : (thread.observe resume).Idle := by
  change thread.feed.observe.taking = none ∨ _
  cases looked : thread.feed.observe.taking with
  | none => exact .inl rfl
  | some state =>
    refine .inr ⟨resume, ?_⟩
    unfold observe
    rw [looked]
    rfl

theorem idle_attends (idle : thread.Idle) (step : Attends thread after) : after.Idle := by
  cases step with
  | load _ _ => exact idle_observe _
  | retry _ _ => exact idle_observe _
  | exchange _ _ _ => exact .inl rfl
  | receive _ _ => exact .inr ⟨_, rfl⟩
  | move moves =>
    have none := idle.elsewhere fun resume taking => by
      rw [taking] at moves
      cases moves
    exact .inl none
  | starve next _ =>
    have none := idle.elsewhere fun resume taking => by
      rw [taking] at next
      cases next
    exact .inl none
  | stop next =>
    have none := idle.elsewhere fun resume taking => by
      rw [taking] at next
      cases next
    exact .inl none
  | spinWake next _ | parkedWake next _ | spinUnwoken next _ =>
    have none := idle.elsewhere fun resume taking => by cases taking.symm.trans next
    exact .inl none

theorem idle_reaches (reached : Reaches capacity thread) : thread.Idle := by
  induction reached with
  | refl => exact .inl rfl
  | tail _ step ih =>
    cases step with
    | produce step =>
      have same := taking_produces step
      unfold Idle
      rw [same]
      exact ih
    | attend step => exact idle_attends ih step

theorem takes_loss (parked : thread.stage = .parked) (idle : thread.feed.taking = none)
    (token : thread.feed.notified = true) (lossy : thread.feed.Lossy) :
    ∃ after, Relation.ReflTransGen Attends thread after ∧
      after.feed.log = thread.feed.log ++ [.took (droppedOf thread.feed.enqueueState)] := by
  have examined := examine_eq_some.mpr ⟨rfl, lossy⟩
  let woken : PublisherThread := { feed := thread.feed.wake, stage := .top }
  let looking : PublisherThread := { woken with stage := .taking .poll }
  have read : (looking.observe .poll).feed.taking = some thread.feed.enqueueState := examined
  have stays : (looking.observe .poll).stage = .taking .poll := by
    change (if (FeedQueue.examine thread.feed.enqueueState).isSome then _ else _) = _
    rw [examined]
    rfl
  have wakes : Attends thread woken := .parkedWake parked token
  have proceeds : Attends woken looking := .move .proceed
  have loads : Attends looking (looking.observe .poll) := .load rfl idle
  have takes := Attends.exchange stays read rfl
  refine ⟨_, ((Relation.ReflTransGen.single wakes).tail proceeds |>.tail loads).tail takes, ?_⟩
  rw [← toNat_of_unlocked lossy.1]
  rfl

end PublisherThread

/-- A loss that a parked thread could take has a token waiting or a call about to send one; once no
such call is left, the thread wakes up and takes it. -/
theorem parked_loss_noticed {capacity : Nat} {thread : PublisherThread}
    (reached : PublisherThread.Reaches capacity thread) (parked : thread.stage = .parked)
    (unlocked : thread.feed.enqueueState &&& enqueueLocked = 0)
    (some : thread.feed.enqueueState &&& dropCountMask ≠ 0) :
    (thread.feed.notified = true ∨ ∃ call, thread.feed.calls call = .notifying) ∧
      ((∀ call, thread.feed.calls call ≠ .notifying) →
        ∃ after, Relation.ReflTransGen PublisherThread.Attends thread after ∧
          after.feed.log =
            thread.feed.log ++ [.took (thread.feed.enqueueState &&& dropCountMask).toNat]) := by
  have lossy := (FeedQueue.lossy_iff thread.feed).mpr ⟨unlocked, some⟩
  obtain ⟨_, alert⟩ := PublisherThread.kept_alert reached
  have noticed : thread.feed.notified = true ∨ thread.feed.Notifies := by
    rcases alert lossy with token | notifies | looks
    · exact .inl token
    · exact .inr notifies
    · rw [parked] at looks
      exact looks.elim
  refine ⟨noticed, fun quiet => ?_⟩
  have token := noticed.resolve_right fun ⟨call, notifying⟩ => quiet call notifying
  have idle := (PublisherThread.idle_reaches reached).elsewhere fun resume taking => by
    cases parked.symm.trans taking
  rw [toNat_dropped]
  exact PublisherThread.takes_loss parked idle token lossy

theorem parked_loss_noticed_sample :
    ∃ thread, PublisherThread.Reaches 1 thread ∧ thread.stage = .parked ∧
      thread.feed.notified = false ∧
      (thread.feed.notified = true ∨ ∃ call, thread.feed.calls call = .notifying) := by
  have proceeds : PublisherThread.Reaches 1 _ := .tail .refl (.attend (.move .proceed))
  have looks : PublisherThread.Reaches 1 _ := proceeds.tail (.attend (.load rfl rfl))
  have maintains : PublisherThread.Reaches 1 _ := looks.tail (.attend (.move .maintained))
  have polls : PublisherThread.Reaches 1 _ := maintains.tail (.attend (.move .uncontrolled))
  have starves : PublisherThread.Reaches 1 _ := polls.tail (.attend (.starve .data rfl))
  have parks : PublisherThread.Reaches 1 _ := starves.tail (.attend (.move .park))
  have first : PublisherThread.Reaches 1 _ :=
    parks.tail (.produce (@FeedQueue.Produces.call 1 _ 0 (.validated 0 1 0) rfl))
  have second : PublisherThread.Reaches 1 _ :=
    first.tail (.produce (@FeedQueue.Produces.call 1 _ 1 (.validated 0 1 0) rfl))
  have reserves : PublisherThread.Reaches 1 _ :=
    second.tail (.produce (@FeedQueue.Produces.reserve 1 _ 0 (.validated 0 1 0) rfl rfl))
  have refuses : PublisherThread.Reaches 1 _ :=
    reserves.tail (.produce (@FeedQueue.Produces.refuse 1 _ 1 (.validated 0 1 0) rfl (by decide)))
  have drops : PublisherThread.Reaches 1 _ :=
    refuses.tail (.produce (@FeedQueue.Produces.dropRefused 1 _ 1 rfl))
  have sends : PublisherThread.Reaches 1 _ :=
    drops.tail (.produce (@FeedQueue.Produces.send 1 _ 0 (.validated 0 1 0) rfl rfl (by decide)))
  have releases : PublisherThread.Reaches 1 _ :=
    sends.tail (.produce (@FeedQueue.Produces.release 1 _ 0 rfl))
  obtain ⟨noticed, _⟩ := parked_loss_noticed releases rfl (by decide) (by decide)
  exact ⟨_, releases, rfl, rfl, noticed⟩

end Statefeed
