import Mathlib.Data.BitVec
import Mathlib.Tactic.Common

set_option autoImplicit false

namespace FlagWord

variable {width : Nat} {word : BitVec (width + 1)}

def flag : BitVec (width + 1) := 1#(width + 1) <<< width

def count (word : BitVec (width + 1)) : Nat := word.toNat % 2 ^ width

theorem flag_eq : (flag : BitVec (width + 1)) = BitVec.twoPow (width + 1) width :=
  (BitVec.twoPow_eq (width + 1) width).symm

theorem msb_eq (word : BitVec (width + 1)) : word.msb = word.getLsbD width := by
  rw [BitVec.msb_eq_getLsbD_last]
  rfl

theorem and_flag_eq_zero (word : BitVec (width + 1)) :
    word &&& flag = 0#(width + 1) ↔ word.msb = false := by
  rw [flag_eq, BitVec.and_twoPow, msb_eq]
  cases word.getLsbD width with
  | false => simp
  | true =>
    simp only [if_true, Bool.true_eq_false, iff_false]
    intro zero
    have bits := congrArg BitVec.toNat zero
    rw [BitVec.toNat_twoPow_of_lt (Nat.lt_succ_self _)] at bits
    exact absurd bits (Nat.two_pow_pos width).ne'

theorem toNat_eq (word : BitVec (width + 1)) :
    word.toNat = (if word.msb then 2 ^ width else 0) + count word := by
  have bound := word.isLt
  have split := Nat.div_add_mod word.toNat (2 ^ width)
  rw [BitVec.msb_eq_decide, Nat.add_sub_cancel]
  unfold count
  rw [pow_succ] at bound
  by_cases high : 2 ^ width ≤ word.toNat
  · have quotient : word.toNat / 2 ^ width = 1 :=
      Nat.div_eq_of_lt_le (by omega) (by omega)
    rw [quotient] at split
    simp only [high, decide_true, if_true]
    omega
  · have small := Nat.mod_eq_of_lt (Nat.not_le.mp high)
    simp [high, small]

theorem eq_zero_iff (word : BitVec (width + 1)) :
    word = 0#(width + 1) ↔ word.msb = false ∧ count word = 0 := by
  have parts := toNat_eq word
  constructor
  · rintro rfl
    exact ⟨BitVec.msb_zero, Nat.zero_mod _⟩
  · rintro ⟨clear, none⟩
    apply BitVec.eq_of_toNat_eq
    rw [parts, clear, none]
    rfl

theorem msb_and_mask (word : BitVec (width + 1)) : (word &&& ~~~flag).msb = false := by
  rw [BitVec.msb_and, BitVec.msb_not, flag_eq, BitVec.msb_twoPow]
  simp

theorem getLsbD_mask (index : Nat) (low : index < width) :
    (~~~(flag : BitVec (width + 1))).getLsbD index = true := by
  have other : ¬ width = index := by omega
  rw [BitVec.getLsbD_not, flag_eq, BitVec.getLsbD_twoPow]
  simp [other, low.trans (Nat.lt_succ_self _)]

theorem toNat_and_mask (word : BitVec (width + 1)) : (word &&& ~~~flag).toNat = count word := by
  apply Nat.eq_of_testBit_eq
  intro index
  unfold count
  rw [Nat.testBit_mod_two_pow, ← BitVec.getLsbD, BitVec.getLsbD_and]
  by_cases low : index < width
  · rw [getLsbD_mask index low]
    simp [low, BitVec.getLsbD]
  · have clear : (word &&& ~~~flag).getLsbD index = false := by
      rcases (Nat.not_lt.mp low).eq_or_lt with rfl | high
      · rw [← msb_eq]
        exact msb_and_mask word
      · exact BitVec.getLsbD_of_ge _ _ high
    rw [BitVec.getLsbD_and] at clear
    rw [clear]
    simp [low]

theorem count_and_mask (word : BitVec (width + 1)) : count (word &&& ~~~flag) = count word := by
  have bound : count word < 2 ^ width := Nat.mod_lt _ (Nat.two_pow_pos width)
  change (word &&& ~~~flag).toNat % 2 ^ width = _
  rw [toNat_and_mask]
  exact Nat.mod_eq_of_lt bound

theorem and_flag (word : BitVec (width + 1)) :
    word &&& flag = if word.msb then flag else 0#(width + 1) := by
  rw [flag_eq, BitVec.and_twoPow, msb_eq]

theorem msb_or {low : BitVec (width + 1)} (small : low.msb = false) :
    ((word &&& flag) ||| low).msb = word.msb := by
  rw [and_flag, BitVec.msb_or, small, Bool.or_false]
  split
  · next set =>
    rw [set, flag_eq, BitVec.msb_twoPow]
    simp
  · next clear =>
    rw [BitVec.msb_zero]
    exact (Bool.eq_false_of_not_eq_true clear).symm

theorem count_or {low : BitVec (width + 1)} (small : low.msb = false) :
    count ((word &&& flag) ||| low) = low.toNat := by
  have whole : low.toNat = count low := by
    rw [toNat_eq low, small]
    simp
  have masked : ((word &&& flag) ||| low) &&& ~~~flag = low &&& ~~~flag := by
    apply BitVec.eq_of_getLsbD_eq
    intro index _
    simp only [BitVec.getLsbD_and, BitVec.getLsbD_or, BitVec.getLsbD_not]
    cases (flag : BitVec (width + 1)).getLsbD index <;> simp
  rw [whole, ← toNat_and_mask, masked, toNat_and_mask]

end FlagWord

structure Reservation {ι : Type} (flagged : Bool) (holds : ι → Prop) : Prop where
  held : flagged = true ↔ ∃ party, holds party
  single : ∀ first second, holds first → holds second → first = second

namespace Reservation

variable {ι : Type} {flagged : Bool} {holds holds' : ι → Prop} {owner : ι}

theorem congr (reservation : Reservation flagged holds) (same : ∀ party, holds' party ↔ holds party) :
    Reservation flagged holds' := by
  have equal : holds' = holds := funext fun party => propext (same party)
  rw [equal]
  exact reservation

theorem acquire (free : Reservation false holds)
    (entered : ∀ party, holds' party ↔ party = owner ∨ holds party) : Reservation true holds' := by
  have nobody : ∀ party, ¬ holds party := fun party held =>
    absurd (free.held.mpr ⟨party, held⟩) Bool.false_ne_true
  refine ⟨⟨fun _ => ⟨owner, (entered owner).mpr (.inl rfl)⟩, fun _ => rfl⟩, ?_⟩
  intro first second holdsFirst holdsSecond
  have one := ((entered first).mp holdsFirst).resolve_right (nobody first)
  have two := ((entered second).mp holdsSecond).resolve_right (nobody second)
  rw [one, two]

theorem release (reservation : Reservation flagged holds) (owned : holds owner)
    (left : ∀ party, holds' party ↔ party ≠ owner ∧ holds party) : Reservation false holds' := by
  have nobody : ∀ party, ¬ holds' party := by
    intro party held
    obtain ⟨other, still⟩ := (left party).mp held
    exact other (reservation.single party owner still owned)
  refine ⟨⟨fun set => absurd set Bool.false_ne_true, ?_⟩, ?_⟩
  · rintro ⟨party, held⟩
    exact absurd held (nobody party)
  · exact fun first _ held _ => absurd held (nobody first)

end Reservation
