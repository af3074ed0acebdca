import Mathlib.Data.List.Pairwise
import Mathlib.Logic.Relation
import Mathlib.Order.Nat
import Mathlib.Tactic.Common

set_option autoImplicit false

/-!
# Following a numbered register

A writer numbers its updates. It stamps a notice of each with the clock and sends it down a
channel that keeps the order but may lose notices. A reader shows what it has learned: it either
applies a notice, or it reads the register and anchors there. Such a reading notes the number,
takes the time and is accepted if the number is still the same; a notice stamped no later than
that is skipped from then on.
-/

structure Follower.Stamp where
  number : Nat
  instant : Nat

inductive Follower.Reading where
  | idle
  | noted (number : Nat)
  | timed (mark : Follower.Stamp)
  | accepted (mark : Follower.Stamp)

@[ext] structure Follower where
  clock : Nat
  -- The updates made so far; the notice of the last one may still have to be stamped.
  count : Nat
  unstamped : Bool
  hand : Option Follower.Stamp
  channel : List Follower.Stamp
  -- A notice was lost and the reader does not know yet.
  loss : Bool
  -- The reader is not going to take a notice before it has anchored.
  owing : Bool
  stopped : Bool
  reading : Follower.Reading
  anchor : Option Follower.Stamp
  -- The numbers of the updates shown, oldest first.
  reflected : List Nat

namespace Follower

def start : Follower where
  clock := 0
  count := 0
  unstamped := false
  hand := none
  channel := []
  loss := false
  owing := true
  stopped := false
  reading := .idle
  anchor := none
  reflected := []

variable {s t : Follower} {distinct : Prop}

def notices (s : Follower) : List Stamp := s.hand.toList ++ s.channel

def Confirms (s : Follower) (mark : Stamp) : Prop :=
  s.anchor = some mark ∨ s.reading = .accepted mark

def Clear (s : Follower) : Prop :=
  ∀ mark, s.Confirms mark → mark.number < s.count → s.clock ≠ mark.instant

inductive Step (distinct : Prop) : Follower → Follower → Prop
  | tick {s : Follower} {later : Nat} (forward : s.clock ≤ later) :
      Step distinct s { s with clock := later }
  | update {s : Follower} (settled : s.unstamped = false) :
      Step distinct s { s with count := s.count + 1, unstamped := true }
  | stamp {s : Follower} (waiting : s.unstamped = true) (clear : distinct → s.Clear) :
      Step distinct s
        { s with unstamped := false, channel := s.channel ++ [⟨s.count, s.clock⟩] }
  | lose {s : Follower} {rest : List Stamp} {last : Stamp} (sent : s.channel = rest ++ [last]) :
      Step distinct s { s with channel := rest, loss := true }
  -- Others use the channel as well.
  | overflow {s : Follower} : Step distinct s { s with loss := true }
  | vanish {s : Follower} {rest : List Stamp} {last : Stamp} (sent : s.channel = rest ++ [last])
      (stopped : s.stopped = true) : Step distinct s { s with channel := rest }
  | notice {s : Follower} (loss : Bool) (idle : s.reading = .idle) :
      Step distinct s { s with loss, owing := true }
  | receive {s : Follower} {first : Stamp} {rest : List Stamp} (sent : s.channel = first :: rest)
      (free : s.hand = none) (idle : s.reading = .idle) :
      Step distinct s { s with hand := some first, channel := rest }
  | note {s : Follower} : Step distinct s { s with reading := .noted s.count }
  | time {s : Follower} {number : Nat} (noted : s.reading = .noted number) :
      Step distinct s { s with reading := .timed ⟨number, s.clock⟩ }
  | accept {s : Follower} {mark : Stamp} (timed : s.reading = .timed mark)
      (same : mark.number = s.count) : Step distinct s { s with reading := .accepted mark }
  | abandon {s : Follower} : Step distinct s { s with reading := .idle }
  | install {s : Follower} {mark : Stamp} {hand : Option Stamp}
      (accepted : s.reading = .accepted mark) (consumed : hand = s.hand ∨ hand = none) :
      Step distinct s
        { s with
          hand
          owing := false
          reading := .idle
          anchor := some mark
          reflected := s.reflected ++ [mark.number] }
  | skip {s : Follower} {first mark : Stamp} (held : s.hand = some first)
      (anchored : s.anchor = some mark) (early : first.instant ≤ mark.instant) :
      Step distinct s { s with hand := none, reading := .idle }
  | apply {s : Follower} {first mark : Stamp} {shown : List Nat} {failed : Bool}
      (held : s.hand = some first) (anchored : s.anchor = some mark)
      (late : mark.instant < first.instant) (same : ∀ number ∈ shown, number = first.number)
      (done : failed = false → shown ≠ []) :
      Step distinct s
        { s with
          hand := none
          owing := s.owing || failed
          reading := .idle
          reflected := s.reflected ++ shown }
  | fail {s : Follower} : Step distinct s { s with hand := none, owing := true, reading := .idle }
  -- What is sent already goes with the reader.
  | stop {s : Follower} {sent rest : List Stamp} (split : s.channel = sent ++ rest) :
      Step distinct s { s with hand := none, channel := rest, stopped := true, reading := .idle }

inductive Advances (distinct : Prop) (s t : Follower) : Prop
  | keeps (clock : s.clock ≤ t.clock) (count : s.count ≤ t.count)
      (unstamped : t.unstamped = true → s.unstamped = true ∨ s.count < t.count)
      (notices : t.notices.Sublist s.notices)
  | stamps (waiting : s.unstamped = true) (clear : distinct → s.Clear)
      (sent : t.unstamped = false) (clock : t.clock = s.clock) (count : t.count = s.count)
      (notices : t.notices = s.notices ++ [⟨s.count, s.clock⟩])

theorem notices_of_hand {first : Stamp} (held : s.hand = some first) :
    s.notices = first :: s.channel := by
  simp [notices, held]

theorem Step.advances (step : Step distinct s t) : Advances distinct s t := by
  have kept (clock : t.clock = s.clock) (count : t.count = s.count)
      (unstamped : t.unstamped = s.unstamped) (notices : t.notices.Sublist s.notices) :
      Advances distinct s t := by
    refine .keeps clock.ge count.ge (fun waiting => .inl ?_) notices
    rw [← unstamped, waiting]
  have shorter : s.channel.Sublist s.notices := List.sublist_append_right _ _
  cases step with
  | tick forward => exact .keeps forward (Nat.le_refl _) .inl (List.Sublist.refl _)
  | update =>
    exact .keeps (Nat.le_refl _) (Nat.le_succ _) (fun _ => .inr (Nat.lt_succ_self _))
      (List.Sublist.refl _)
  | stamp waiting clear =>
    exact .stamps waiting clear rfl rfl rfl (List.append_assoc _ _ _).symm
  | @lose rest last sent | @vanish rest last sent =>
    apply kept rfl rfl rfl
    have initial : rest.Sublist s.channel := sent ▸ List.sublist_append_left rest [last]
    exact List.Sublist.append (List.Sublist.refl _) initial
  | receive sent free =>
    apply kept rfl rfl rfl
    simp [notices, sent, free]
  | install _ consumed =>
    apply kept rfl rfl rfl
    rcases consumed with rfl | rfl
    · exact List.Sublist.refl _
    · exact shorter
  | skip | apply | fail => exact kept rfl rfl rfl shorter
  | @stop sent rest split =>
    have final : rest.Sublist s.channel := split ▸ List.sublist_append_right sent rest
    exact kept rfl rfl rfl (final.trans shorter)
  | _ => exact kept rfl rfl rfl (List.Sublist.refl _)

theorem Advances.clock_le (advances : Advances distinct s t) : s.clock ≤ t.clock := by
  cases advances with
  | keeps clock => exact clock
  | stamps _ _ _ clock => exact clock.ge

theorem Advances.count_le (advances : Advances distinct s t) : s.count ≤ t.count := by
  cases advances with
  | keeps _ count => exact count
  | stamps _ _ _ _ count => exact count.ge

theorem Advances.cases_mem (advances : Advances distinct s t) {notice : Stamp}
    (member : notice ∈ t.notices) :
    notice ∈ s.notices ∨ (distinct → s.Clear) ∧ notice = ⟨s.count, s.clock⟩ := by
  cases advances with
  | keeps _ _ _ notices => exact .inl (notices.mem member)
  | stamps _ clear _ _ _ notices =>
    rw [notices] at member
    rcases List.mem_append.mp member with old | new
    · exact .inl old
    · exact .inr ⟨clear, List.mem_singleton.mp new⟩

structure Stamp.Covers (mark : Stamp) (s : Follower) : Prop where
  count : mark.number ≤ s.count
  clock : mark.instant ≤ s.clock
  earlier : ∀ notice ∈ s.notices, notice.number < mark.number → notice.instant ≤ mark.instant

def Stamp.Precedes (mark : Stamp) (s : Follower) : Prop :=
  ∀ notice ∈ s.notices, mark.number < notice.number → mark.instant < notice.instant

theorem Stamp.Covers.advance {mark : Stamp} (covers : mark.Covers s)
    (advances : Advances distinct s t) : mark.Covers t where
  count := covers.count.trans advances.count_le
  clock := covers.clock.trans advances.clock_le
  earlier := by
    intro notice member below
    rcases advances.cases_mem member with old | ⟨_, rfl⟩
    · exact covers.earlier notice old below
    · exact absurd covers.count (Nat.not_le.mpr below)

theorem Stamp.Precedes.advance {mark : Stamp} (precedes : mark.Precedes s) (covers : mark.Covers s)
    (confirms : s.Confirms mark) (strict : distinct) (advances : Advances distinct s t) :
    mark.Precedes t := by
  intro notice member above
  rcases advances.cases_mem member with old | ⟨clear, rfl⟩
  · exact precedes notice old above
  · exact Nat.lt_of_le_of_ne covers.clock (clear strict mark confirms above).symm

structure Sound (s : Follower) : Prop where
  stamped : ∀ notice ∈ s.notices, notice.number ≤ s.count ∧ notice.instant ≤ s.clock
  unsent : s.unstamped = true → ∀ notice ∈ s.notices, notice.number < s.count
  ordered : s.notices.Pairwise fun first second => first.number < second.number
  noted : ∀ number, s.reading = .noted number → number ≤ s.count
  timed : ∀ mark, s.reading = .timed mark → mark.Covers s
  covers : ∀ mark, s.Confirms mark → mark.Covers s
  latest : ∀ mark, s.reading = .accepted mark →
    (∀ notice ∈ s.hand, notice.number ≤ mark.number) ∧
      ∀ number ∈ s.reflected, number ≤ mark.number
  rising : s.reflected.Pairwise (· ≤ ·)
  bounded : ∀ number ∈ s.reflected, number ≤ s.count
  current : ∀ mark, s.anchor = some mark → mark.number ∈ s.reflected ∧
    ∀ notice ∈ s.notices, (∀ number ∈ s.reflected, number ≤ notice.number) ∨
      notice.instant ≤ mark.instant
  begun : s.anchor = none → s.owing = true ∧ s.reflected = []

theorem sound_start : Sound start where
  stamped := by simp [start, notices]
  unsent := by simp [start, notices]
  ordered := List.Pairwise.nil
  noted := by simp [start]
  timed := by simp [start]
  covers := by simp [start, Confirms]
  latest := by simp [start]
  rising := List.Pairwise.nil
  bounded := by simp [start]
  current := by simp [start]
  begun := by simp [start]

theorem Sound.stamped_advance (sound : Sound s) (advances : Advances distinct s t) :
    ∀ notice ∈ t.notices, notice.number ≤ t.count ∧ notice.instant ≤ t.clock := by
  intro notice member
  have count := advances.count_le
  have clock := advances.clock_le
  rcases advances.cases_mem member with old | ⟨_, rfl⟩
  · obtain ⟨number, instant⟩ := sound.stamped notice old
    exact ⟨number.trans count, instant.trans clock⟩
  · exact ⟨count, clock⟩

theorem Sound.unsent_advance (sound : Sound s) (advances : Advances distinct s t) :
    t.unstamped = true → ∀ notice ∈ t.notices, notice.number < t.count := by
  intro waiting notice member
  cases advances with
  | keeps clock count unstamped notices =>
    have old := notices.mem member
    rcases unstamped waiting with earlier | more
    · exact (sound.unsent earlier notice old).trans_le count
    · exact (sound.stamped notice old).1.trans_lt more
  | stamps _ _ sent =>
    rw [sent] at waiting
    cases waiting

theorem Sound.ordered_advance (sound : Sound s) (advances : Advances distinct s t) :
    t.notices.Pairwise fun first second => first.number < second.number := by
  cases advances with
  | keeps _ _ _ notices => exact sound.ordered.sublist notices
  | stamps waiting _ _ _ _ notices =>
    rw [notices, List.pairwise_append]
    refine ⟨sound.ordered, List.pairwise_singleton _ _, fun notice member last same => ?_⟩
    rw [List.mem_singleton.mp same]
    exact sound.unsent waiting notice member

theorem Step.confirms {mark : Stamp} (step : Step distinct s t) (confirms : t.Confirms mark) :
    s.Confirms mark ∨ s.reading = .timed mark ∧ mark.number = t.count := by
  cases step with
  | note | time | abandon | skip | apply | fail | stop =>
    rcases confirms with anchored | accepted
    · exact .inl (.inl anchored)
    · cases accepted
  | accept timed same =>
    rcases confirms with anchored | accepted
    · exact .inl (.inl anchored)
    · cases accepted
      exact .inr ⟨timed, same⟩
  | install accepted =>
    rcases confirms with anchored | reading
    · cases anchored
      exact .inl (.inr accepted)
    · cases reading
  | _ => exact .inl confirms

theorem Sound.noted_step (sound : Sound s) (step : Step distinct s t) (number : Nat)
    (noted : t.reading = .noted number) : number ≤ t.count := by
  have count := step.advances.count_le
  cases step with
  | note =>
    cases noted
    exact count
  | time | accept | abandon | install | skip | apply | fail | stop => cases noted
  | _ => exact (sound.noted number noted).trans count

theorem Sound.timed_step (sound : Sound s) (step : Step distinct s t) (mark : Stamp)
    (timed : t.reading = .timed mark) : mark.Covers t := by
  have advances := step.advances
  cases step with
  | time noted =>
    cases timed
    exact ⟨sound.noted _ noted, Nat.le_refl _, fun notice sent _ => (sound.stamped notice sent).2⟩
  | note | accept | abandon | install | skip | apply | fail | stop => cases timed
  | _ => exact (sound.timed mark timed).advance advances

theorem Sound.covers_step (sound : Sound s) (step : Step distinct s t) (mark : Stamp)
    (confirms : t.Confirms mark) : mark.Covers t := by
  rcases step.confirms confirms with earlier | ⟨timed, _⟩
  · exact (sound.covers mark earlier).advance step.advances
  · exact (sound.timed mark timed).advance step.advances

theorem Sound.latest_step (sound : Sound s) (step : Step distinct s t) (mark : Stamp)
    (accepted : t.reading = .accepted mark) :
    (∀ notice ∈ t.hand, notice.number ≤ mark.number) ∧
      ∀ number ∈ t.reflected, number ≤ mark.number := by
  cases step with
  | receive _ _ idle =>
    rw [show s.reading = .accepted mark from accepted] at idle
    cases idle
  | accept timed same =>
    cases accepted
    rw [same]
    refine ⟨fun notice held => (sound.stamped notice ?_).1, sound.bounded⟩
    exact List.mem_append_left _ (Option.mem_toList.mpr held)
  | note | time | abandon | install | skip | apply | fail | stop => cases accepted
  | _ => exact sound.latest mark accepted

theorem Sound.shown_le (sound : Sound s) {first mark : Stamp} (held : s.hand = some first)
    (anchored : s.anchor = some mark) (late : mark.instant < first.instant) :
    ∀ number ∈ s.reflected, number ≤ first.number := by
  have member : first ∈ s.notices := by
    rw [notices_of_hand held]
    exact List.mem_cons_self
  rcases (sound.current mark anchored).2 first member with shown | early
  · exact shown
  · exact absurd early (Nat.not_le.mpr late)

theorem Sound.rising_step (sound : Sound s) (step : Step distinct s t) :
    t.reflected.Pairwise (· ≤ ·) := by
  cases step with
  | @install mark _ accepted =>
    refine List.pairwise_append.mpr ⟨sound.rising, List.pairwise_singleton _ _, ?_⟩
    intro number member last same
    rw [List.mem_singleton.mp same]
    exact (sound.latest mark accepted).2 number member
  | apply held anchored late same =>
    refine List.pairwise_append.mpr ⟨sound.rising, ?_, ?_⟩
    · apply List.pairwise_of_forall_mem_list
      intro number member other also
      rw [same number member, same other also]
    · intro number member other also
      rw [same other also]
      exact sound.shown_le held anchored late number member
  | _ => exact sound.rising

theorem Sound.bounded_step (sound : Sound s) (step : Step distinct s t) :
    ∀ number ∈ t.reflected, number ≤ t.count := by
  have count := step.advances.count_le
  cases step with
  | @install mark _ accepted =>
    intro number member
    rcases List.mem_append.mp member with old | new
    · exact sound.bounded number old
    · rw [List.mem_singleton.mp new]
      exact (sound.covers mark (.inr accepted)).count
  | @apply first _ _ _ held _ _ same =>
    intro number member
    rcases List.mem_append.mp member with old | new
    · exact sound.bounded number old
    · rw [same number new]
      apply (sound.stamped first _).1
      rw [notices_of_hand held]
      exact List.mem_cons_self
  | _ => exact fun number member => (sound.bounded number member).trans count

theorem Sound.current_step (sound : Sound s) (step : Step distinct s t) (mark : Stamp)
    (anchored : t.anchor = some mark) : mark.number ∈ t.reflected ∧
      ∀ notice ∈ t.notices, (∀ number ∈ t.reflected, number ≤ notice.number) ∨
        notice.instant ≤ mark.instant := by
  have advances := step.advances
  have kept (same : s.anchor = some mark) (shown : t.reflected = s.reflected) :
      mark.number ∈ t.reflected ∧
        ∀ notice ∈ t.notices, (∀ number ∈ t.reflected, number ≤ notice.number) ∨
          notice.instant ≤ mark.instant := by
    rw [shown]
    refine ⟨(sound.current mark same).1, fun notice member => ?_⟩
    rcases advances.cases_mem member with old | ⟨_, rfl⟩
    · exact (sound.current mark same).2 notice old
    · exact .inl sound.bounded
  cases step with
  | @install accepted _ reading =>
    cases anchored
    refine ⟨List.mem_append_right _ List.mem_cons_self, fun notice member => ?_⟩
    rcases advances.cases_mem member with old | ⟨_, rfl⟩
    · by_cases earlier : notice.number < mark.number
      · exact .inr ((sound.covers mark (.inr reading)).earlier notice old earlier)
      · refine .inl fun number shown => ?_
        have above : mark.number ≤ notice.number := Nat.not_lt.mp earlier
        rcases List.mem_append.mp shown with before | last
        · exact ((sound.latest mark reading).2 number before).trans above
        · rw [List.mem_singleton.mp last]
          exact above
    · refine .inl fun number shown => ?_
      rcases List.mem_append.mp shown with before | last
      · exact sound.bounded number before
      · rw [List.mem_singleton.mp last]
        exact (sound.covers mark (.inr reading)).count
  | @apply first _ _ _ held before late same =>
    refine ⟨List.mem_append_left _ (sound.current mark anchored).1, fun notice member => .inl ?_⟩
    have order := sound.ordered
    rw [notices_of_hand held, List.pairwise_cons] at order
    have after : first.number < notice.number := order.1 notice member
    intro number shown
    rcases List.mem_append.mp shown with earlier | now
    · exact (sound.shown_le held before late number earlier).trans after.le
    · rw [same number now]
      exact after.le
  | _ => exact kept anchored rfl

theorem Sound.begun_step (sound : Sound s) (step : Step distinct s t) (free : t.anchor = none) :
    t.owing = true ∧ t.reflected = [] := by
  cases step with
  | install => cases free
  | apply _ anchored =>
    rw [show s.anchor = none from free] at anchored
    cases anchored
  | notice | fail => exact ⟨rfl, (sound.begun free).2⟩
  | _ => exact sound.begun free

theorem Sound.step (sound : Sound s) (step : Step distinct s t) : Sound t where
  stamped := sound.stamped_advance step.advances
  unsent := sound.unsent_advance step.advances
  ordered := sound.ordered_advance step.advances
  noted := sound.noted_step step
  timed := sound.timed_step step
  covers := sound.covers_step step
  latest := sound.latest_step step
  rising := sound.rising_step step
  bounded := sound.bounded_step step
  current := sound.current_step step
  begun := sound.begun_step step

def Covered (s : Follower) (number : Nat) : Prop :=
  (∃ shown ∈ s.reflected, number ≤ shown) ∨ (∃ notice ∈ s.notices, notice.number = number) ∨
    s.loss = true ∨ s.stopped = true ∨
    s.owing = true ∧ ∀ mark, s.reading = .accepted mark → number ≤ mark.number

structure Complete (s : Follower) : Prop where
  precedes : ∀ mark, s.Confirms mark → mark.Precedes s
  covered : ∀ number, 0 < number → number ≤ s.count → (s.unstamped = true → number < s.count) →
    s.Covered number

theorem complete_start : Complete start where
  precedes := by simp [start, Confirms]
  covered := by
    intro number positive below
    exact absurd below (Nat.not_le.mpr positive)

theorem Complete.precedes_step (complete : Complete s) (sound : Sound s) (strict : distinct)
    (step : Step distinct s t) (mark : Stamp) (confirms : t.Confirms mark) : mark.Precedes t := by
  rcases step.confirms confirms with earlier | ⟨_, same⟩
  · exact (complete.precedes mark earlier).advance (sound.covers mark earlier) earlier strict
      step.advances
  · -- No update is later than the one just confirmed.
    intro notice member above
    have count := (sound.stamped_advance step.advances notice member).1
    rw [← same] at count
    exact absurd count (Nat.not_le.mpr above)

theorem covered_of_owing {number : Nat} (owing : s.owing = true) (idle : s.reading = .idle) :
    s.Covered number := by
  refine .inr (.inr (.inr (.inr ⟨owing, fun mark accepted => ?_⟩)))
  rw [idle] at accepted
  cases accepted

theorem Covered.congr {number : Nat} (covered : s.Covered number)
    (reflected : t.reflected = s.reflected) (notices : t.notices = s.notices)
    (loss : t.loss = s.loss) (stopped : t.stopped = s.stopped) (owing : t.owing = s.owing)
    (reading : ∀ mark, t.reading = .accepted mark →
      s.reading = .accepted mark ∨ number ≤ mark.number) : t.Covered number := by
  unfold Covered
  rw [reflected, notices, loss, stopped, owing]
  rcases covered with shown | sent | lost | stopped | ⟨owing, upTo⟩
  · exact .inl shown
  · exact .inr (.inl sent)
  · exact .inr (.inr (.inl lost))
  · exact .inr (.inr (.inr (.inl stopped)))
  · refine .inr (.inr (.inr (.inr ⟨owing, fun mark accepted => ?_⟩)))
    rcases reading mark accepted with same | below
    · exact upTo mark same
    · exact below

theorem Covered.install {number : Nat} {mark : Stamp} {hand : Option Stamp}
    (covered : s.Covered number) (sound : Sound s) (accepted : s.reading = .accepted mark)
    (consumed : hand = s.hand ∨ hand = none) :
    Covered
      { s with
        hand
        owing := false
        reading := .idle
        anchor := some mark
        reflected := s.reflected ++ [mark.number] } number := by
  have shown (below : number ≤ mark.number) :
      ∃ shown ∈ s.reflected ++ [mark.number], number ≤ shown :=
    ⟨mark.number, List.mem_append_right _ List.mem_cons_self, below⟩
  rcases covered with ⟨earlier, member, below⟩ | ⟨notice, member, rfl⟩ | lost | stopped | ⟨_, upTo⟩
  · exact .inl ⟨earlier, List.mem_append_left _ member, below⟩
  · rcases consumed with rfl | rfl
    · exact .inr (.inl ⟨notice, member, rfl⟩)
    · rcases List.mem_append.mp member with held | sent
      · exact .inl (shown ((sound.latest mark accepted).1 notice (Option.mem_toList.mp held)))
      · exact .inr (.inl ⟨notice, List.mem_append_right _ sent, rfl⟩)
  · exact .inr (.inr (.inl lost))
  · exact .inr (.inr (.inr (.inl stopped)))
  · exact .inl (shown (upTo mark accepted))

theorem Covered.settle {number : Nat} {first : Stamp} {owing : Bool} {more : List Nat}
    (covered : s.Covered number) (held : s.hand = some first) (kept : s.owing = true → owing = true)
    (dealt : owing = true ∨ ∃ shown ∈ s.reflected ++ more, first.number ≤ shown) :
    Covered
      { s with hand := none, owing, reading := .idle, reflected := s.reflected ++ more } number := by
  by_cases pending : owing = true
  · exact covered_of_owing pending rfl
  rcases covered with ⟨earlier, member, below⟩ | ⟨notice, member, rfl⟩ | lost | stopped | ⟨owes, _⟩
  · exact .inl ⟨earlier, List.mem_append_left _ member, below⟩
  · rw [notices_of_hand held] at member
    rcases List.mem_cons.mp member with rfl | sent
    · exact .inl (dealt.resolve_left pending)
    · exact .inr (.inl ⟨notice, sent, rfl⟩)
  · exact .inr (.inr (.inl lost))
  · exact .inr (.inr (.inr (.inl stopped)))
  · exact absurd (kept owes) pending

theorem Complete.covered_step (complete : Complete s) (sound : Sound s) (step : Step distinct s t)
    (number : Nat) (positive : 0 < number) (below : number ≤ t.count)
    (sent : t.unstamped = true → number < t.count) : t.Covered number := by
  have before := complete.covered number positive
  cases step with
  | update settled =>
    have earlier : number ≤ s.count := Nat.lt_succ_iff.mp (sent rfl)
    refine (before earlier fun waiting => ?_).congr rfl rfl rfl rfl rfl fun _ => .inl
    rw [settled] at waiting
    cases waiting
  | stamp waiting =>
    rcases Nat.lt_or_eq_of_le below with earlier | rfl
    · rcases before earlier.le fun _ => earlier with shown | ⟨notice, member, same⟩ | others
      · exact .inl shown
      · refine .inr (.inl ⟨notice, ?_, same⟩)
        simp only [notices, List.mem_append] at member ⊢
        tauto
      · exact .inr (.inr others)
    · exact .inr (.inl ⟨⟨s.count, s.clock⟩, by simp [notices], rfl⟩)
  | lose | overflow => exact .inr (.inr (.inl rfl))
  | vanish _ stopped => exact .inr (.inr (.inr (.inl stopped)))
  | stop => exact .inr (.inr (.inr (.inl rfl)))
  | notice _ idle => exact covered_of_owing rfl idle
  | fail => exact covered_of_owing rfl rfl
  | receive sentFirst free =>
    refine (before below sent).congr rfl ?_ rfl rfl rfl fun _ => .inl
    simp [notices, sentFirst, free]
  | accept _ same =>
    refine (before below sent).congr rfl rfl rfl rfl rfl fun mark accepted => .inr ?_
    cases accepted
    rw [same]
    exact below
  | note | time | abandon =>
    refine (before below sent).congr rfl rfl rfl rfl rfl fun mark accepted => ?_
    cases accepted
  | install accepted consumed => exact (before below sent).install sound accepted consumed
  | @skip first mark held anchored early =>
    have covers : first.number ≤ mark.number := by
      by_contra later
      have member : first ∈ s.notices := by
        rw [notices_of_hand held]
        exact List.mem_cons_self
      have precedes := complete.precedes mark (.inl anchored) first member (Nat.not_le.mp later)
      exact absurd early (Nat.not_le.mpr precedes)
    have settled : Covered
        { s with hand := none, owing := s.owing, reading := .idle, reflected := s.reflected ++ [] }
        number :=
      (before below sent).settle held id
        (.inr ⟨mark.number, List.mem_append_left _ (sound.current mark anchored).1, covers⟩)
    rwa [List.append_nil] at settled
  | @apply first _ more failed held _ _ same done =>
    refine (before below sent).settle held (fun owes => by simp [owes]) ?_
    cases failed with
    | true => exact .inl (Bool.or_true _)
    | false =>
      obtain ⟨shown, member⟩ := List.exists_mem_of_ne_nil more (done rfl)
      exact .inr ⟨shown, List.mem_append_right _ member, (same shown member).ge⟩
  | tick => exact (before below sent).congr rfl rfl rfl rfl rfl fun _ => .inl

theorem Complete.step (complete : Complete s) (sound : Sound s) (strict : distinct)
    (step : Step distinct s t) : Complete t where
  precedes := complete.precedes_step sound strict step
  covered := complete.covered_step sound step

def Reaches (distinct : Prop) : Follower → Prop := Relation.ReflTransGen (Step distinct) start

theorem Reaches.sound (reaches : Reaches distinct s) : Sound s := by
  induction reaches with
  | refl => exact sound_start
  | tail _ step ih => exact ih.step step

theorem Reaches.complete (strict : distinct) (reaches : Reaches distinct s) : Complete s := by
  induction reaches with
  | refl => exact complete_start
  | tail earlier step ih => exact ih.step (Reaches.sound earlier) strict step

/-- Nothing is on its way and nobody has anything left to do. -/
structure Quiescent (s : Follower) : Prop where
  stamped : s.unstamped = false
  free : s.hand = none
  drained : s.channel = []
  lossless : s.loss = false
  anchored : s.owing = false
  running : s.stopped = false

theorem Quiescent.getLast? (quiescent : Quiescent s) (sound : Sound s) (complete : Complete s) :
    s.reflected.getLast? = some s.count := by
  have shown : s.count ∈ s.reflected := by
    cases anchor : s.anchor with
    | none =>
      have owing := (sound.begun anchor).1
      rw [quiescent.anchored] at owing
      cases owing
    | some mark =>
      rcases Nat.eq_zero_or_pos s.count with none | positive
      · have member := (sound.current mark anchor).1
        have atMost := sound.bounded _ member
        rw [none] at atMost ⊢
        rwa [Nat.le_zero.mp atMost] at member
      · have settled : s.unstamped = true → s.count < s.count := by
          rw [quiescent.stamped]
          exact nofun
        rcases complete.covered s.count positive (Nat.le_refl _) settled with
          ⟨last, member, above⟩ | ⟨notice, member, _⟩ | lost | stopped | ⟨owing, _⟩
        · rwa [Nat.le_antisymm above (sound.bounded last member)]
        · simp [notices, quiescent.free, quiescent.drained] at member
        · rw [quiescent.lossless] at lost
          cases lost
        · rw [quiescent.running] at stopped
          cases stopped
        · rw [quiescent.anchored] at owing
          cases owing
  -- The list rises and none of its entries is above the count, so the count comes last.
  obtain ⟨earlier, last, split⟩ := List.eq_nil_or_concat s.reflected |>.resolve_left
    (List.ne_nil_of_mem shown)
  rw [List.concat_eq_append] at split
  have rising := sound.rising
  rw [split, List.pairwise_append] at rising
  have atMost : last ≤ s.count := by
    apply sound.bounded
    rw [split]
    exact List.mem_append_right _ List.mem_cons_self
  have atLeast : s.count ≤ last := by
    rw [split] at shown
    rcases List.mem_append.mp shown with before | same
    · exact rising.2.2 _ before last List.mem_cons_self
    · exact (List.mem_singleton.mp same).le
  rw [split, List.getLast?_concat, Nat.le_antisymm atMost atLeast]

end Follower
