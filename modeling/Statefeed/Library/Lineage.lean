import Mathlib.Logic.Relation
import Mathlib.Tactic.Common

set_option autoImplicit false

namespace Lineage

variable {B : Type} {parent : B → B} {height : B → Nat}

def Link (parent : B → B) (height : B → Nat) (child above : B) : Prop :=
  0 < height child ∧ above = parent child

def Ascends (parent : B → B) (height : B → Nat) : B → B → Prop :=
  Relation.ReflTransGen (Link parent height)

def Consecutive (parent : B → B) (height : B → Nat) : Prop :=
  ∀ block, 0 < height block → height (parent block) + 1 = height block

theorem link_unique : Relator.RightUnique (Link parent height) := by
  rintro child above other ⟨_, rfl⟩ ⟨_, rfl⟩
  rfl

theorem height_le (consecutive : Consecutive parent height) {block above : B}
    (ascends : Ascends parent height block above) : height above ≤ height block := by
  induction ascends with
  | refl => exact Nat.le_refl _
  | tail _ link ih =>
    obtain ⟨positive, rfl⟩ := link
    have lower := consecutive _ positive
    omega

theorem eq_of_height (consecutive : Consecutive parent height) {block above : B}
    (ascends : Ascends parent height block above) (level : height above = height block) :
    above = block := by
  rcases Relation.ReflTransGen.cases_head ascends with same | ⟨next, ⟨positive, rfl⟩, rest⟩
  · exact same.symm
  · have lower := consecutive _ positive
    have below := height_le consecutive rest
    omega

theorem ancestor_unique (consecutive : Consecutive parent height) {block left right : B}
    (first : Ascends parent height block left) (second : Ascends parent height block right)
    (level : height left = height right) : left = right := by
  rcases Relation.ReflTransGen.total_of_right_unique link_unique first second with down | up
  · exact (eq_of_height consecutive down level.symm).symm
  · exact eq_of_height consecutive up level

end Lineage
