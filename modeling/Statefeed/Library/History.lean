import Mathlib.Tactic.Common

set_option autoImplicit false

namespace History

variable {α : Type}

def Each (holds : List α → α → Prop) (log : List α) : Prop :=
  ∀ before item after, log = before ++ item :: after → holds before item

variable {holds holds' : List α → α → Prop} {log : List α}

theorem each_nil : Each holds [] := by
  intro before item after split
  cases before <;> cases split

theorem each_concat {item : α} :
    Each holds (log ++ [item]) ↔ Each holds log ∧ holds log item := by
  constructor
  · intro each
    refine ⟨fun before other after split => ?_, each log item [] rfl⟩
    exact each before other (after ++ [item]) (by rw [split]; simp)
  · rintro ⟨each, last⟩ before other after split
    rcases after.eq_nil_or_concat with rfl | ⟨after, final, rfl⟩
    · obtain ⟨rfl, same⟩ := List.append_inj' split rfl
      cases same
      exact last
    · rw [List.concat_eq_append, ← List.cons_append, ← List.append_assoc] at split
      obtain ⟨same, _⟩ := List.append_inj' split rfl
      exact each before other after same

theorem Each.of_prefix {beginning : List α} (each : Each holds log) (within : beginning <+: log) :
    Each holds beginning := by
  obtain ⟨rest, rfl⟩ := within
  intro before item after split
  refine each before item (after ++ rest) ?_
  rw [split]
  simp

theorem Each.mono (each : Each holds log)
    (weaker : ∀ before item, item ∈ log → holds before item → holds' before item) :
    Each holds' log := by
  intro before item after split
  refine weaker before item ?_ (each before item after split)
  rw [split]
  simp

end History
