import Mathlib.Data.Nat.Digits.Defs
import Mathlib.Tactic.Ring

set_option autoImplicit false

namespace BigEndian

def encode : Nat → Nat → List UInt8
  | 0, _ => []
  | width + 1, value => UInt8.ofNat (value / 256 ^ width) :: encode width value

def decode (bytes : List UInt8) : Nat :=
  bytes.foldl (fun value byte => value * 256 + byte.toNat) 0

@[simp] theorem length_encode (width value : Nat) : (encode width value).length = width := by
  induction width with
  | zero => rfl
  | succ width ih => simp [encode, ih]

theorem foldl_decode (bytes : List UInt8) (start : Nat) :
    bytes.foldl (fun value byte => value * 256 + byte.toNat) start =
      start * 256 ^ bytes.length + decode bytes := by
  induction bytes generalizing start with
  | nil => simp [decode]
  | cons byte rest ih =>
    have shifted := ih byte.toNat
    simp only [List.foldl_cons, decode, List.length_cons, Nat.zero_mul, Nat.zero_add] at *
    rw [ih (start * 256 + byte.toNat), shifted]
    ring

theorem decode_encode (width value : Nat) :
    decode (encode width value) = value % 256 ^ width := by
  induction width with
  | zero => simp [encode, decode, Nat.mod_one]
  | succ width ih =>
    have digit : (UInt8.ofNat (value / 256 ^ width)).toNat = value / 256 ^ width % 256 := by simp
    rw [encode, decode, List.foldl_cons, foldl_decode, length_encode, ih, digit, Nat.zero_mul,
      Nat.zero_add, Nat.pow_succ, Nat.mod_mul]
    ring

theorem encode_injective (width : Nat) {left right : Nat} (leftBound : left < 256 ^ width)
    (rightBound : right < 256 ^ width) (same : encode width left = encode width right) :
    left = right := by
  have decoded := congrArg decode same
  rwa [decode_encode, decode_encode, Nat.mod_eq_of_lt leftBound, Nat.mod_eq_of_lt rightBound]
    at decoded

end BigEndian
