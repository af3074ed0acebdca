import Mathlib.Tactic.Common

set_option autoImplicit false

namespace Chunks

variable {α : Type}

def cut (size : Nat) : Nat → List α → List (List α)
  | 0, _ => []
  | _ + 1, [] => []
  | fuel + 1, item :: rest =>
    (item :: rest).take size :: cut size fuel ((item :: rest).drop size)

def chunks (size : Nat) (items : List α) : List (List α) := cut size items.length items

theorem flatten_cut {size fuel : Nat} {items : List α} (positive : 0 < size)
    (enough : items.length ≤ fuel) : (cut size fuel items).flatten = items := by
  induction fuel generalizing items with
  | zero =>
    have empty : items = [] := List.length_eq_zero_iff.mp (by omega)
    simp [cut, empty]
  | succ fuel ih =>
    cases items with
    | nil => rfl
    | cons item rest =>
      have shorter : ((item :: rest).drop size).length ≤ fuel := by
        simp only [List.length_drop, List.length_cons] at enough ⊢
        omega
      rw [cut, List.flatten_cons, ih shorter, List.take_append_drop]

theorem flatten_chunks {size : Nat} (items : List α) (positive : 0 < size) :
    (chunks size items).flatten = items :=
  flatten_cut positive (Nat.le_refl _)

theorem mem_cut {size fuel : Nat} {items chunk : List α} (positive : 0 < size)
    (member : chunk ∈ cut size fuel items) : chunk ≠ [] ∧ chunk.length ≤ size := by
  induction fuel generalizing items with
  | zero => cases member
  | succ fuel ih =>
    cases items with
    | nil => cases member
    | cons item rest =>
      rcases List.mem_cons.mp member with rfl | later
      · constructor
        · simp only [ne_eq, List.take_eq_nil_iff, reduceCtorEq, or_false]
          omega
        · exact List.length_take_le _ _
      · exact ih later

theorem chunks_short {size : Nat} {items : List α} (nonempty : items ≠ [])
    (fits : items.length ≤ size) : chunks size items = [items] := by
  cases items with
  | nil => contradiction
  | cons item rest =>
    have none : (item :: rest).drop size = [] := List.drop_of_length_le fits
    unfold chunks
    rw [List.length_cons, cut, List.take_of_length_le fits, none]
    cases rest.length <;> rfl

theorem mem_chunks {size : Nat} {items chunk : List α} (positive : 0 < size)
    (member : chunk ∈ chunks size items) : chunk ≠ [] ∧ chunk.length ≤ size :=
  mem_cut positive member

end Chunks
