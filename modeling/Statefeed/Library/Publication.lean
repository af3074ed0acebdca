import Mathlib.Data.List.Induction
import Statefeed.Library.History

set_option autoImplicit false

/-!
# Publishing a log through a state register and a position register

A writer publishes the entries of a log one after another. For each entry it first replaces the
state register, if the entry carries a state, then the position register, and then sends the
entry itself. A reader that takes the position before the state can join the log at the larger
of the position and the position its state belongs to.
-/

namespace Publication

variable {α β : Type}

inductive Write (α β : Type) where
  | state (state : β)
  | position (position : Nat)
  | entry (entry : α)

structure Register (α β : Type) where
  state : β
  position : Nat
  sent : List α

def Register.apply (register : Register α β) : Write α β → Register α β
  | .state state => { register with state }
  | .position position => { register with position }
  | .entry entry => { register with sent := register.sent ++ [entry] }

section

variable (stamp : α → Nat) (stored : α → Option β)

def writes (entry : α) : List (Write α β) :=
  ((stored entry).map Write.state).toList ++ [.position (stamp entry), .entry entry]

def latest (initial : β) (log : List α) : β :=
  log.foldl (fun state entry => (stored entry).getD state) initial

def position (initial : Nat) (log : List α) : Nat :=
  log.foldl (fun _ entry => stamp entry) initial

@[simp] theorem latest_nil (initial : β) : latest stored initial [] = initial := rfl

@[simp] theorem position_nil (initial : Nat) : position stamp initial [] = initial := rfl

@[simp] theorem latest_concat (initial : β) (log : List α) (entry : α) :
    latest stored initial (log ++ [entry]) = (stored entry).getD (latest stored initial log) := by
  simp [latest]

theorem latest_cases (initial : β) (log : List α) :
    latest stored initial log = initial ∨
      ∃ entry ∈ log, stored entry = some (latest stored initial log) := by
  induction log using List.reverseRecOn with
  | nil => exact .inl rfl
  | append_singleton log entry ih =>
    rw [latest_concat]
    cases last : stored entry with
    | some value => exact .inr ⟨entry, by simp, by rw [last]; rfl⟩
    | none =>
      rcases ih with first | ⟨earlier, member, found⟩
      · exact .inl first
      · exact .inr ⟨earlier, List.mem_append_left _ member, found⟩

@[simp] theorem position_concat (initial : Nat) (log : List α) (entry : α) :
    position stamp initial (log ++ [entry]) = stamp entry := by
  simp [position]

inductive Outstanding (initial : Register α β) (log : List α) :
    List α → Register α β → List (Write α β) → Prop
  | between {done rest : List α} (whole : log = done ++ rest) :
      Outstanding initial log done
        ⟨latest stored initial.state done, position stamp initial.position done, done⟩
        (rest.flatMap (writes stamp stored))
  | stored {done rest : List α} {entry : α} (whole : log = done ++ entry :: rest) :
      Outstanding initial log (done ++ [entry])
        ⟨latest stored initial.state (done ++ [entry]), position stamp initial.position done, done⟩
        (.position (stamp entry) :: .entry entry :: rest.flatMap (writes stamp stored))
  | positioned {done rest : List α} {entry : α} (whole : log = done ++ entry :: rest) :
      Outstanding initial log (done ++ [entry])
        ⟨latest stored initial.state (done ++ [entry]),
          position stamp initial.position (done ++ [entry]), done⟩
        (.entry entry :: rest.flatMap (writes stamp stored))

end

variable {stamp : α → Nat} {stored : α → Option β} {initial register : Register α β}
  {log more written : List α} {pending : List (Write α β)}

theorem Outstanding.start (initial : Register α β) (fresh : initial.sent = []) :
    Outstanding stamp stored initial [] [] initial [] := by
  obtain ⟨state, position, sent⟩ := initial
  cases fresh
  exact @Outstanding.between α β stamp stored _ [] [] [] rfl

theorem Outstanding.append
    (outstanding : Outstanding stamp stored initial log written register pending) :
    Outstanding stamp stored initial (log ++ more) written register
      (pending ++ more.flatMap (writes stamp stored)) := by
  cases outstanding with
  | between whole =>
    subst whole
    rw [← List.flatMap_append]
    exact .between (by simp)
  | stored whole =>
    subst whole
    simp only [List.cons_append, ← List.flatMap_append]
    exact .stored (by simp)
  | positioned whole =>
    subst whole
    simp only [List.cons_append, ← List.flatMap_append]
    exact .positioned (by simp)

theorem Outstanding.write {write : Write α β}
    (outstanding : Outstanding stamp stored initial log written register (write :: pending)) :
    ∃ further, written <+: further ∧
      Outstanding stamp stored initial log further (register.apply write) pending := by
  generalize all : write :: pending = writes at outstanding
  cases outstanding with
  | @between _ rest whole =>
    cases rest with
    | nil => simp at all
    | cons entry rest =>
      refine ⟨written ++ [entry], List.prefix_append _ _, ?_⟩
      cases carried : stored entry with
      | none =>
        simp [Publication.writes, carried] at all
        obtain ⟨rfl, rfl⟩ := all
        have point : Outstanding stamp stored initial log (written ++ [entry]) _ _ := .positioned whole
        simpa [Register.apply, carried] using point
      | some state =>
        simp [Publication.writes, carried] at all
        obtain ⟨rfl, rfl⟩ := all
        have point : Outstanding stamp stored initial log (written ++ [entry]) _ _ := .stored whole
        simpa [Register.apply, carried] using point
  | stored whole =>
    cases all
    have point : Outstanding stamp stored initial log _ _ _ := .positioned whole
    exact ⟨_, List.prefix_refl _, by simpa [Register.apply] using point⟩
  | positioned whole =>
    cases all
    exact ⟨_, List.prefix_refl _, .between (by simpa using whole)⟩

theorem Outstanding.within
    (outstanding : Outstanding stamp stored initial log written register pending) :
    written <+: log := by
  cases outstanding with
  | between whole => exact ⟨_, whole.symm⟩
  | stored whole => exact ⟨_, by simpa using whole.symm⟩
  | positioned whole => exact ⟨_, by simpa using whole.symm⟩

theorem Outstanding.state
    (outstanding : Outstanding stamp stored initial log written register pending) :
    register.state = latest stored initial.state written := by
  cases outstanding <;> rfl

theorem Outstanding.counted
    (outstanding : Outstanding stamp stored initial log written register pending) :
    ∃ counted, register.sent <+: counted ∧ counted <+: written ∧
      register.position = position stamp initial.position counted := by
  cases outstanding with
  | between => exact ⟨_, List.prefix_refl _, List.prefix_refl _, rfl⟩
  | stored => exact ⟨_, List.prefix_refl _, List.prefix_append _ _, rfl⟩
  | positioned => exact ⟨_, List.prefix_append _ _, List.prefix_refl _, rfl⟩

structure Ordered (stamp : α → Nat) (stored : α → Option β) (tag : β → Nat)
    (initial : Register α β) (log : List α) : Prop where
  start : tag initial.state ≤ initial.position
  grows : History.Each (fun before entry => position stamp initial.position before < stamp entry) log
  tagged : ∀ entry ∈ log, ∀ state, stored entry = some state → tag state = stamp entry

section

variable {tag : β → Nat} {counted : List α}

theorem Ordered.of_prefix (ordered : Ordered stamp stored tag initial log)
    (within : written <+: log) : Ordered stamp stored tag initial written := by
  obtain ⟨rest, rfl⟩ := within
  refine ⟨ordered.start, fun before entry after whole => ?_, fun entry member => ?_⟩
  · exact ordered.grows before entry (after ++ rest) (by simp [whole])
  · exact ordered.tagged entry (by simp [member])

theorem Ordered.position_le (ordered : Ordered stamp stored tag initial log)
    (within : counted <+: log) :
    position stamp initial.position counted ≤ position stamp initial.position log := by
  obtain ⟨rest, rfl⟩ := within
  induction rest using List.reverseRecOn with
  | nil => simp
  | append_singleton rest entry ih =>
    have earlier := ih (ordered.of_prefix (by simp [← List.append_assoc]))
    have later := ordered.grows (counted ++ rest) entry [] (by simp)
    rw [← List.append_assoc, position_concat]
    omega

theorem Ordered.tag_le (ordered : Ordered stamp stored tag initial log) :
    tag (latest stored initial.state log) ≤ position stamp initial.position log := by
  induction log using List.reverseRecOn with
  | nil => simpa using ordered.start
  | append_singleton log entry ih =>
    have earlier := ih (ordered.of_prefix (List.prefix_append _ _))
    have later := ordered.grows log entry [] rfl
    rw [position_concat, latest_concat]
    cases carried : stored entry with
    | none =>
      simp only [Option.getD_none]
      omega
    | some state =>
      have tagged := ordered.tagged entry (by simp) state carried
      simp [tagged]

theorem Ordered.join (ordered : Ordered stamp stored tag initial written)
    (within : counted <+: written) :
    ∃ joined, counted <+: joined ∧ joined <+: written ∧
      latest stored initial.state joined = latest stored initial.state written ∧
      position stamp initial.position joined =
        max (position stamp initial.position counted)
          (tag (latest stored initial.state written)) := by
  obtain ⟨rest, rfl⟩ := within
  -- The last entry after `counted` that carries a state decides where to join.
  induction rest using List.reverseRecOn with
  | nil =>
    have bound := ordered.tag_le
    simp only [List.append_nil] at bound ⊢
    exact ⟨counted, List.prefix_refl _, List.prefix_refl _, rfl, by omega⟩
  | append_singleton rest entry ih =>
    have shorter : counted ++ rest <+: counted ++ (rest ++ [entry]) := by
      simp [← List.append_assoc]
    rw [← List.append_assoc] at ordered shorter ⊢
    cases carried : stored entry with
    | none =>
      obtain ⟨joined, after, before, state, position⟩ := ih (ordered.of_prefix shorter)
      rw [latest_concat, carried]
      exact ⟨joined, after, before.trans shorter, state, position⟩
    | some state =>
      have tagged := ordered.tagged entry (by simp) state carried
      have later := ordered.position_le ((List.prefix_append counted rest).trans shorter)
      rw [position_concat] at later
      refine ⟨_, by simp, List.prefix_refl _, rfl, ?_⟩
      rw [position_concat, latest_concat, carried, Option.getD_some, tagged]
      omega

theorem Ordered.stamp_le (ordered : Ordered stamp stored tag initial log) {entry : α}
    (member : entry ∈ log) : stamp entry ≤ position stamp initial.position log := by
  obtain ⟨first, last, rfl⟩ := List.append_of_mem member
  have upto : first ++ [entry] <+: first ++ entry :: last := ⟨last, by simp⟩
  have bound := ordered.position_le upto
  rwa [position_concat] at bound

theorem Ordered.pairwise (ordered : Ordered stamp stored tag initial log) :
    (log.map stamp).Pairwise (· < ·) := by
  induction log using List.reverseRecOn with
  | nil => simp
  | append_singleton log entry ih =>
    have shorter := ordered.of_prefix (List.prefix_append log [entry])
    have grows := ordered.grows log entry [] rfl
    rw [List.map_append, List.pairwise_append]
    refine ⟨ih shorter, by simp, ?_⟩
    simp only [List.mem_map, List.map_cons, List.map_nil, List.mem_singleton]
    rintro _ ⟨earlier, member, rfl⟩ _ rfl
    have bound := shorter.stamp_le member
    omega

theorem Ordered.prefix_of_position_le {joined seen : List α}
    (ordered : Ordered stamp stored tag initial log) (joinedWithin : joined <+: log)
    (seenWithin : seen <+: log)
    (least : position stamp initial.position joined ≤ position stamp initial.position seen) :
    joined <+: seen := by
  rcases List.prefix_or_prefix_of_prefix joinedWithin seenWithin with done | ⟨extra, rfl⟩
  · exact done
  cases extra with
  | nil => simp
  | cons entry extra =>
    have joinedOrdered := ordered.of_prefix joinedWithin
    have grows := joinedOrdered.grows seen entry extra rfl
    have bound := joinedOrdered.stamp_le (List.mem_append_right seen List.mem_cons_self)
    omega

theorem Ordered.eq_of_position_eq {joined seen : List α}
    (ordered : Ordered stamp stored tag initial log) (joinedWithin : joined <+: log)
    (seenWithin : seen <+: log)
    (same : position stamp initial.position joined = position stamp initial.position seen) :
    joined = seen := by
  have first := ordered.prefix_of_position_le joinedWithin seenWithin (Nat.le_of_eq same)
  have second := ordered.prefix_of_position_le seenWithin joinedWithin (Nat.le_of_eq same.symm)
  exact first.eq_of_length (Nat.le_antisymm first.length_le second.length_le)

theorem Ordered.filter_past {joined more : List α}
    (ordered : Ordered stamp stored tag initial (joined ++ more)) :
    (joined ++ more).filter (position stamp initial.position joined < stamp ·) = more := by
  have earlier : joined.filter (position stamp initial.position joined < stamp ·) = [] := by
    simp only [List.filter_eq_nil_iff, decide_eq_true_eq, Nat.not_lt]
    intro entry member
    exact (ordered.of_prefix (List.prefix_append _ _)).stamp_le member
  have later : more.filter (position stamp initial.position joined < stamp ·) = more := by
    simp only [List.filter_eq_self, decide_eq_true_eq]
    intro entry member
    obtain ⟨first, last, rfl⟩ := List.append_of_mem member
    have upto : joined ++ first <+: joined ++ (first ++ entry :: last) := by
      rw [← List.append_assoc]
      exact List.prefix_append _ _
    have bound := (ordered.of_prefix upto).position_le (List.prefix_append joined first)
    have grows := ordered.grows (joined ++ first) entry last (by simp)
    omega
  rw [List.filter_append, earlier, later, List.nil_append]

end

end Publication
