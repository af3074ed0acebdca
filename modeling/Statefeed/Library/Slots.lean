import Mathlib.Tactic.Common

set_option autoImplicit false

namespace Slots

variable {α β : Type}

def slot (width : Nat) (cells : List α) (index : Nat) : List α :=
  (cells.drop (width * index)).take width

def setSlot (width : Nat) (cells : List α) (index : Nat) (next : List α) : List α :=
  cells.take (width * index) ++ next ++ cells.drop (width * index + width)

variable {width : Nat} {cells next : List α} {index : Nat}

theorem length_setSlot (fits : width * index + width ≤ cells.length)
    (whole : next.length = width) : (setSlot width cells index next).length = cells.length := by
  simp only [setSlot, List.length_append, List.length_take, List.length_drop, whole]
  omega

theorem getElem?_slot (cells : List α) (index : Nat) {offset : Nat} (inside : offset < width) :
    (slot width cells index)[offset]? = cells[width * index + offset]? := by
  rw [slot, List.getElem?_take_of_lt inside, List.getElem?_drop]

theorem slot_setSlot_self (fits : width * index + width ≤ cells.length)
    (whole : next.length = width) : slot width (setSlot width cells index next) index = next := by
  have start : (cells.take (width * index)).length = width * index := by
    rw [List.length_take]
    omega
  unfold slot setSlot
  generalize cells.take (width * index) = before at start ⊢
  rw [List.append_assoc, ← start, List.drop_left, ← whole, List.take_left]

theorem slots_apart (width : Nat) {index other : Nat} (different : other ≠ index) :
    width * other + width ≤ width * index ∨ width * index + width ≤ width * other := by
  rcases Nat.lt_or_gt_of_ne different with below | above
  · left
    calc width * other + width = width * (other + 1) := (Nat.mul_succ width other).symm
      _ ≤ width * index := Nat.mul_le_mul_left width below
  · right
    calc width * index + width = width * (index + 1) := (Nat.mul_succ width index).symm
      _ ≤ width * other := Nat.mul_le_mul_left width above

theorem slot_setSlot_other {other : Nat} (fits : width * index + width ≤ cells.length)
    (whole : next.length = width) (different : other ≠ index) :
    slot width (setSlot width cells index next) other = slot width cells other := by
  have start : (cells.take (width * index)).length = width * index := by
    rw [List.length_take]
    omega
  apply List.ext_getElem?
  intro offset
  by_cases inside : offset < width
  · rw [getElem?_slot _ _ inside, getElem?_slot _ _ inside]
    unfold setSlot
    rcases slots_apart width different with before | behind
    · rw [List.append_assoc, List.getElem?_append_left (by omega),
        List.getElem?_take_of_lt (by omega)]
    · rw [List.getElem?_append_right (by simp only [List.length_append]; omega),
        List.getElem?_drop, List.length_append, start, whole]
      congr 1
      omega
  · have outside (list : List α) : (slot width list other)[offset]? = none := by
      apply List.getElem?_eq_none
      simp only [slot, List.length_take]
      omega
    rw [outside, outside]

theorem ext_slots (width count : Nat) {left right : List α} (leftWhole : left.length = width * count)
    (rightWhole : right.length = width * count)
    (same : ∀ index < count, slot width left index = slot width right index) : left = right := by
  apply List.ext_getElem?
  intro position
  by_cases inside : position < width * count
  · have positive : 0 < width := by
      rcases Nat.eq_zero_or_pos width with zero | positive
      · simp [zero] at inside
      · exact positive
    have offset := Nat.mod_lt position positive
    have split := Nat.div_add_mod position width
    have slots := same (position / width) (Nat.div_lt_of_lt_mul inside)
    have leftCell := getElem?_slot left (position / width) offset
    have rightCell := getElem?_slot right (position / width) offset
    rw [split] at leftCell rightCell
    rw [← leftCell, ← rightCell, slots]
  · rw [List.getElem?_eq_none (by omega), List.getElem?_eq_none (by omega)]

theorem setSlot_comm {other count : Nat} {after : List α} (wholes : cells.length = width * count)
    (fits : width * index + width ≤ cells.length) (fitsOther : width * other + width ≤ cells.length)
    (whole : next.length = width) (wholeAfter : after.length = width) (different : other ≠ index) :
    setSlot width (setSlot width cells index next) other after =
      setSlot width (setSlot width cells other after) index next := by
  have length := length_setSlot fits whole
  have lengthOther := length_setSlot fitsOther wholeAfter
  apply ext_slots width count
  · rw [length_setSlot (by omega) wholeAfter, length, wholes]
  · rw [length_setSlot (by omega) whole, lengthOther, wholes]
  intro position _
  by_cases first : position = index
  · subst first
    rw [slot_setSlot_other (by omega) wholeAfter different.symm, slot_setSlot_self fits whole,
      slot_setSlot_self (by omega) whole]
  · rw [slot_setSlot_other (by omega) whole first]
    by_cases second : position = other
    · subst second
      rw [slot_setSlot_self (by omega) wholeAfter, slot_setSlot_self fitsOther wholeAfter]
    · rw [slot_setSlot_other (by omega) wholeAfter second,
        slot_setSlot_other fits whole first, slot_setSlot_other fitsOther wholeAfter second]

theorem length_flatMap {items : List β} {encode : β → List α}
    (whole : ∀ item, (encode item).length = width) :
    (items.flatMap encode).length = width * items.length := by
  induction items with
  | nil => simp
  | cons item rest ih =>
    rw [List.flatMap_cons, List.length_append, whole, ih, List.length_cons, Nat.mul_succ,
      Nat.add_comm]

theorem slot_flatMap {items : List β} {encode : β → List α}
    (whole : ∀ item, (encode item).length = width) {item : β} (present : items[index]? = some item) :
    slot width (items.flatMap encode) index = encode item := by
  induction items generalizing index with
  | nil => cases present
  | cons first rest ih =>
    cases index with
    | zero =>
      cases present
      rw [slot, Nat.mul_zero, List.drop_zero, List.flatMap_cons, ← whole item, List.take_left]
    | succ index =>
      have later := ih present
      rw [slot] at later ⊢
      rw [List.flatMap_cons, Nat.mul_succ, Nat.add_comm, ← List.drop_drop]
      conv => enter [1, 2, 2]; rw [← whole first, List.drop_left]
      exact later

end Slots
