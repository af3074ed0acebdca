import Mathlib.Data.Nat.Bitwise
import Mathlib.Tactic.Common

set_option autoImplicit false

namespace Bitmap

def test (bitmap : List UInt8) (index : Nat) : Bool :=
  (bitmap[index / 8]?).any fun byte => byte.toNat.testBit (index % 8)

theorem test_replicate (length index : Nat) : test (List.replicate length 0) index = false := by
  unfold test
  rw [List.getElem?_replicate]
  split
  · simp
  · rfl

theorem testBit_or_mask (byte : UInt8) {offset other : Nat} (inside : offset < 8) :
    (byte ||| (1 <<< UInt8.ofNat offset)).toNat.testBit other =
      (byte.toNat.testBit other || decide (offset = other)) := by
  have small : offset % 2 ^ 8 = offset := Nat.mod_eq_of_lt (by omega)
  have mask : ((1 : UInt8) <<< UInt8.ofNat offset).toNat = 2 ^ offset := by
    have power : 2 ^ offset < 2 ^ 8 := Nat.pow_lt_pow_right (by decide) inside
    have amount : (UInt8.ofNat offset).toNat = offset := by
      rw [UInt8.toNat_ofNat', small]
    rw [UInt8.toNat_shiftLeft, amount, Nat.mod_eq_of_lt inside, Nat.shiftLeft_eq]
    change 1 * 2 ^ offset % 2 ^ 8 = 2 ^ offset
    rw [Nat.one_mul, Nat.mod_eq_of_lt power]
  rw [UInt8.toNat_or, Nat.testBit_or, mask, Nat.testBit_two_pow]

theorem test_modify (bitmap : List UInt8) (index other : Nat) :
    test (bitmap.modify (index / 8) fun byte => byte ||| (1 <<< UInt8.ofNat (index % 8))) other =
      (test bitmap other || decide (index = other ∧ index / 8 < bitmap.length)) := by
  have inside : index % 8 < 8 := Nat.mod_lt _ (by decide)
  unfold test
  rw [List.getElem?_modify]
  by_cases same : index / 8 = other / 8
  · simp only [if_pos same]
    cases found : bitmap[other / 8]? with
    | none =>
      have outside := List.getElem?_eq_none_iff.mp found
      have far : ¬ (index = other ∧ index / 8 < bitmap.length) := by omega
      simp [far]
    | some byte =>
      have within := (List.getElem?_eq_some_iff.mp found).1
      have level : index % 8 = other % 8 ↔ index = other ∧ index / 8 < bitmap.length := by omega
      simp only [Option.map_eq_map, Option.map_some, Option.any_some, testBit_or_mask byte inside,
        level]
  · simp only [if_neg same]
    have different : ¬ (index = other ∧ index / 8 < bitmap.length) := by
      rintro ⟨rfl, _⟩
      exact same rfl
    simp [different]

theorem ext_test {left right : List UInt8} (lengths : left.length = right.length)
    (bits : ∀ index, test left index = test right index) : left = right := by
  apply List.ext_getElem lengths
  intro place inLeft inRight
  apply UInt8.toNat_inj.mp
  apply Nat.eq_of_testBit_eq
  intro offset
  by_cases inside : offset < 8
  · have here := bits (8 * place + offset)
    unfold test at here
    have byte : (8 * place + offset) / 8 = place := by omega
    have bit : (8 * place + offset) % 8 = offset := by omega
    rw [byte, bit, List.getElem?_eq_getElem inLeft, List.getElem?_eq_getElem inRight] at here
    exact here
  · have high (value : UInt8) : value.toNat.testBit offset = false := by
      apply Nat.testBit_lt_two_pow
      have power : 2 ^ 8 ≤ 2 ^ offset := Nat.pow_le_pow_right (by decide) (Nat.le_of_not_lt inside)
      have bound := value.toNat_lt
      omega
    rw [high, high]

end Bitmap
