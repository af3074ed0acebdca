import Mathlib.Data.Finset.Card
import Mathlib.Order.Interval.Finset.Nat

set_option autoImplicit false

namespace Collect

variable {α : Type}

def Forward (register : Nat → α) : Prop :=
  ∀ {first between last : Nat}, first ≤ between → between ≤ last →
    register first = register last → register between = register first

variable [DecidableEq α] {register : Nat → α} {start middle stop : Nat}

/-- The times in an interval after which the register has another value. -/
def changes (register : Nat → α) (start stop : Nat) : Finset Nat :=
  (Finset.Ico start stop).filter fun time => register (time + 1) ≠ register time

theorem changes_pos (ordered : start ≤ stop) (different : register stop ≠ register start) :
    0 < (changes register start stop).card := by
  induction stop, ordered using Nat.le_induction with
  | base => exact absurd rfl different
  | succ stop ordered ih =>
    by_cases moved : register (stop + 1) = register stop
    · refine (ih (moved ▸ different)).trans_le (Finset.card_le_card fun time member => ?_)
      obtain ⟨inside, changed⟩ := Finset.mem_filter.mp member
      obtain ⟨lower, upper⟩ := Finset.mem_Ico.mp inside
      exact Finset.mem_filter.mpr ⟨Finset.mem_Ico.mpr ⟨lower, Nat.lt_succ_of_lt upper⟩, changed⟩
    · refine Finset.card_pos.mpr ⟨stop, Finset.mem_filter.mpr ⟨?_, moved⟩⟩
      exact Finset.mem_Ico.mpr ⟨ordered, Nat.lt_succ_self stop⟩

theorem card_changes (first : start ≤ middle) (second : middle ≤ stop) :
    (changes register start stop).card =
      (changes register start middle).card + (changes register middle stop).card := by
  unfold changes
  rw [← Finset.Ico_union_Ico_eq_Ico first second, Finset.filter_union]
  exact Finset.card_union_of_disjoint
    (Finset.disjoint_filter_filter (Finset.Ico_disjoint_Ico_consecutive start middle stop))

end Collect
