import Mathlib.Algebra.Order.Floor.Div
import Mathlib.Tactic.Common

set_option autoImplicit false

namespace Checked

variable {bound : Nat}

def word (value : Nat) : Option (Fin bound) :=
  if fits : value < bound then some ⟨value, fits⟩ else none

def add (left right : Fin bound) : Option (Fin bound) := word (left.val + right.val)

def mul (left right : Fin bound) : Option (Fin bound) := word (left.val * right.val)

def sub (left right : Fin bound) : Option (Fin bound) :=
  if right.val ≤ left.val then word (left.val - right.val) else none

def div (left right : Fin bound) : Option (Fin bound) :=
  if right.val = 0 then none else word (left.val / right.val)

def ceilDiv (left right : Fin bound) : Option (Fin bound) :=
  if right.val = 0 then none else word (left.val ⌈/⌉ right.val)

inductive Rounding where
  | floor | ceil
deriving DecidableEq

def mulDiv (left right divisor : Fin bound) (rounding : Rounding) : Option (Fin bound) :=
  if divisor.val = 0 then none
  else
    match rounding with
    | .floor => word (left.val * right.val / divisor.val)
    | .ceil => word ((left.val * right.val) ⌈/⌉ divisor.val)

section

variable {left right divisor result : Fin bound}

theorem word_eq_some {value : Nat} : word value = some result ↔ value = result.val := by
  unfold word
  constructor
  · intro fits
    split at fits
    · cases fits
      rfl
    · cases fits
  · rintro rfl
    rw [dif_pos result.isLt]

theorem add_eq_some : add left right = some result ↔ left.val + right.val = result.val :=
  word_eq_some

theorem mul_eq_some : mul left right = some result ↔ left.val * right.val = result.val :=
  word_eq_some

theorem sub_eq_some :
    sub left right = some result ↔ right.val ≤ left.val ∧ left.val - right.val = result.val := by
  unfold sub
  split
  · next below => simp [word_eq_some, below]
  · next above => simp [above]

theorem div_eq_some :
    div left right = some result ↔ right.val ≠ 0 ∧ left.val / right.val = result.val := by
  unfold div
  split
  · next zero => simp [zero]
  · next nonzero => simp [word_eq_some, nonzero]

theorem ceilDiv_eq_some :
    ceilDiv left right = some result ↔ right.val ≠ 0 ∧ left.val ⌈/⌉ right.val = result.val := by
  unfold ceilDiv
  split
  · next zero => simp [zero]
  · next nonzero => simp [word_eq_some, nonzero]

theorem mulDiv_floor_eq_some : mulDiv left right divisor .floor = some result ↔
    divisor.val ≠ 0 ∧ left.val * right.val / divisor.val = result.val := by
  unfold mulDiv
  split
  · next zero => simp [zero]
  · next nonzero => simp [word_eq_some, nonzero]

theorem mulDiv_ceil_eq_some : mulDiv left right divisor .ceil = some result ↔
    divisor.val ≠ 0 ∧ (left.val * right.val) ⌈/⌉ divisor.val = result.val := by
  unfold mulDiv
  split
  · next zero => simp [zero]
  · next nonzero => simp [word_eq_some, nonzero]

end

end Checked
