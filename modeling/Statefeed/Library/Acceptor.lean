import Mathlib.Tactic.Common

set_option autoImplicit false

namespace Acceptor

variable {σ α ε : Type} (observe : σ → α → Except ε σ)

def run : σ → List α → Except ε σ
  | state, [] => .ok state
  | state, item :: rest =>
    match observe state item with
    | .ok after => run after rest
    | .error failure => .error failure

/-- The relation between a state and the item it is offered holds all along the run. -/
def Along (holds : σ → α → Prop) : σ → List α → Prop
  | _, [] => True
  | state, item :: rest =>
    holds state item ∧ ∀ after, observe state item = .ok after → Along holds after rest

theorem run_iff_prefix (expects : σ → List α → Prop) (offered : α → Prop)
    (next : ∀ state item rest, expects state (item :: rest) →
      ∃ after, observe state item = .ok after ∧ expects after rest)
    (only : ∀ state rest item after, expects state rest → offered item →
      observe state item = .ok after → ∃ more, rest = item :: more)
    {state : σ} {rest : List α} (expected : expects state rest) {items : List α}
    (drawn : ∀ item ∈ items, offered item) :
    (∃ after, run observe state items = .ok after) ↔ items <+: rest := by
  induction items generalizing state rest with
  | nil => simp [run]
  | cons item items ih =>
    have drawnRest : ∀ other ∈ items, offered other :=
      fun other member => drawn other (List.mem_cons_of_mem _ member)
    constructor
    · rintro ⟨final, accepted⟩
      cases taken : observe state item with
      | error failure => simp [run, taken] at accepted
      | ok after =>
        simp only [run, taken] at accepted
        obtain ⟨more, rfl⟩ := only state rest item after expected (drawn item List.mem_cons_self) taken
        obtain ⟨same, again, later⟩ := next state item more expected
        cases taken.symm.trans again
        rw [List.cons_prefix_cons]
        exact ⟨rfl, (ih later drawnRest).mp ⟨final, accepted⟩⟩
    · rintro ⟨more, rfl⟩
      obtain ⟨after, taken, later⟩ := next state item (items ++ more) expected
      obtain ⟨final, accepted⟩ := (ih later drawnRest).mpr (List.prefix_append _ _)
      exact ⟨final, by simp only [run, taken, accepted]⟩

theorem run_of_expected (expects : σ → List α → Prop)
    (next : ∀ state item rest, expects state (item :: rest) →
      ∃ after, observe state item = .ok after ∧ expects after rest)
    {state : σ} {rest items : List α} (expected : expects state rest) (within : items <+: rest) :
    ∃ after, run observe state items = .ok after := by
  obtain ⟨more, rfl⟩ := within
  induction items generalizing state with
  | nil => exact ⟨state, rfl⟩
  | cons item items ih =>
    obtain ⟨after, taken, later⟩ := next state item (items ++ more) expected
    obtain ⟨final, accepted⟩ := ih later
    exact ⟨final, by simp only [run, taken, accepted]⟩

theorem run_of_prefix {state after : σ} {items whole : List α}
    (accepted : run observe state whole = .ok after) (within : items <+: whole) :
    ∃ reached, run observe state items = .ok reached := by
  obtain ⟨rest, rfl⟩ := within
  induction items generalizing state with
  | nil => exact ⟨state, rfl⟩
  | cons item items ih =>
    cases taken : observe state item with
    | error failure => simp [run, taken] at accepted
    | ok next =>
      simp only [List.cons_append, run, taken] at accepted ⊢
      exact ih accepted

theorem along_of_prefix {holds : σ → α → Prop} {state : σ} {items whole : List α}
    (along : Along observe holds state whole) (within : items <+: whole) :
    Along observe holds state items := by
  obtain ⟨rest, rfl⟩ := within
  induction items generalizing state with
  | nil => trivial
  | cons item items ih => exact ⟨along.1, fun after taken => ih (along.2 after taken)⟩

end Acceptor
