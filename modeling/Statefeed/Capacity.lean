import Statefeed.Model.Conversion
import Mathlib.Tactic.Ring
import Mathlib.Tactic.Linarith

set_option autoImplicit false

/-!
# The capacities of the USDD modules

What the vault accepts is cut out of the amounts by bounds on the debt taken or repaid. The bounds
on the ceilings, the inventory and the collateral leave an interval, and the capacity is the largest
whole gem amount in it.
-/

namespace Statefeed.UsddCapacityModel

open Checked

section

variable {gain loss collateral debt dart : Nat}

theorem covers_of_lt (slower : gain < loss) (covered : debt ≤ collateral) :
    debt + dart * loss ≤ collateral + dart * gain ↔ dart ≤ (collateral - debt) / (loss - gain) := by
  obtain ⟨rest, rfl⟩ := Nat.exists_eq_add_of_le covered
  obtain ⟨step, rfl⟩ := Nat.exists_eq_add_of_lt slower
  have difference : gain + step + 1 - gain = step + 1 := by omega
  rw [difference, Nat.add_sub_cancel_left, Nat.le_div_iff_mul_le (by omega : 0 < step + 1)]
  have expanded : dart * (gain + step + 1) = dart * gain + dart * (step + 1) := by ring
  omega

theorem covers_of_gt (faster : loss < gain) (short : collateral < debt) :
    debt + dart * loss ≤ collateral + dart * gain ↔ (debt - collateral) ⌈/⌉ (gain - loss) ≤ dart := by
  obtain ⟨missing, rfl⟩ := Nat.exists_eq_add_of_lt short
  obtain ⟨step, rfl⟩ := Nat.exists_eq_add_of_lt faster
  have difference : loss + step + 1 - loss = step + 1 := by omega
  rw [difference, ceilDiv_le_iff_le_mul (by omega : 0 < step + 1)]
  have expanded : dart * (loss + step + 1) = dart * loss + (step + 1) * dart := by ring
  omega

theorem uncovered (slower : gain ≤ loss) (short : collateral < debt) :
    ¬ debt + dart * loss ≤ collateral + dart * gain := by
  have more := Nat.mul_le_mul_left dart slower
  omega

theorem covered_of_le (faster : loss ≤ gain) (covered : debt ≤ collateral) :
    debt + dart * loss ≤ collateral + dart * gain :=
  Nat.add_le_add covered (Nat.mul_le_mul_left dart faster)

end

section

variable {gain loss collateralValue urnDebt maxDart high low : Uint256}

theorem val_min (left right : Uint256) : (min left right).val = min left.val right.val :=
  Fin.val_strictMono.monotone.map_min

inductive Bounds (gain loss collateralValue urnDebt maxDart : Uint256) :
    Option (Uint256 × Uint256) → Prop
  | short (slower : gain ≤ loss) (short : collateralValue < urnDebt) :
      Bounds gain loss collateralValue urnDebt maxDart none
  | above {room : Uint256} (slower : gain < loss) (covered : urnDebt ≤ collateralValue)
      (room_eq : (collateralValue.val - urnDebt.val) / (loss.val - gain.val) = room.val) :
      Bounds gain loss collateralValue urnDebt maxDart (some (min maxDart room, 0))
  | free (faster : loss ≤ gain) (covered : urnDebt ≤ collateralValue) :
      Bounds gain loss collateralValue urnDebt maxDart (some (maxDart, 0))
  | below {least : Uint256} (faster : loss < gain) (short : collateralValue < urnDebt)
      (least_eq : (urnDebt.val - collateralValue.val) ⌈/⌉ (gain.val - loss.val) = least.val) :
      Bounds gain loss collateralValue urnDebt maxDart (some (maxDart, least))

theorem bounds_of_returned {bounds : Option (Uint256 × Uint256)}
    (returned : collateralBounds gain loss collateralValue urnDebt maxDart = some bounds) :
    Bounds gain loss collateralValue urnDebt maxDart bounds := by
  unfold collateralBounds at returned
  split at returned
  · next slower =>
    split at returned
    · next short =>
      cases returned
      exact .short slower.le short
    · next covered =>
      obtain ⟨spare, spared, returned⟩ := Option.bind_eq_some_iff.mp returned
      obtain ⟨step, stepped, returned⟩ := Option.bind_eq_some_iff.mp returned
      obtain ⟨room, divided, returned⟩ := Option.bind_eq_some_iff.mp returned
      cases returned
      have room_eq := (div_eq_some.mp divided).2
      rw [← (sub_eq_some.mp spared).2, ← (sub_eq_some.mp stepped).2] at room_eq
      exact .above slower (not_lt.mp covered) room_eq
  next notSlower =>
  split at returned
  · next same =>
    split at returned
    · next short =>
      cases returned
      exact .short same.le short
    · next covered =>
      cases returned
      exact .free same.ge (not_lt.mp covered)
  next different =>
  have faster := lt_of_le_of_ne (not_lt.mp notSlower) (Ne.symm different)
  split at returned
  · next short =>
    obtain ⟨missing, missed, returned⟩ := Option.bind_eq_some_iff.mp returned
    obtain ⟨step, stepped, returned⟩ := Option.bind_eq_some_iff.mp returned
    obtain ⟨least, divided, returned⟩ := Option.bind_eq_some_iff.mp returned
    cases returned
    have least_eq := (ceilDiv_eq_some.mp divided).2
    rw [← (sub_eq_some.mp missed).2, ← (sub_eq_some.mp stepped).2] at least_eq
    exact .below faster short least_eq
  · next covered =>
    cases returned
    exact .free faster.le (not_lt.mp covered)

theorem Bounds.nothing (bounds : Bounds gain loss collateralValue urnDebt maxDart none) (dart : Nat) :
    ¬ urnDebt.val + dart * loss.val ≤ collateralValue.val + dart * gain.val := by
  cases bounds with
  | short slower short => exact uncovered slower short

theorem Bounds.between (bounds : Bounds gain loss collateralValue urnDebt maxDart (some (high, low)))
    (dart : Nat) :
    dart ≤ maxDart.val ∧ urnDebt.val + dart * loss.val ≤ collateralValue.val + dart * gain.val ↔
      low.val ≤ dart ∧ dart ≤ high.val := by
  cases bounds with
  | above slower covered room_eq =>
    rw [covers_of_lt slower covered, room_eq, val_min, le_min_iff]
    simp
  | free faster covered =>
    have always := @covered_of_le gain.val loss.val _ _ dart faster covered
    simp [always]
  | below faster short least_eq =>
    rw [covers_of_gt faster short, least_eq]
    exact and_comm

theorem Bounds.high_le (bounds : Bounds gain loss collateralValue urnDebt maxDart (some (high, low))) :
    high ≤ maxDart := by
  cases bounds with
  | above _ _ _ => exact min_le_left _ _
  | free _ _ | below _ _ _ => exact le_rfl

end

/-- The capacity is the largest accepted amount, and 0 when there is none. -/
structure Largest (accepts : Nat → Prop) (capacity : Nat) : Prop where
  beyond : ∀ gem, capacity < gem → ¬ accepts gem
  accepted : 0 < capacity → accepts capacity
  none : capacity = 0 ↔ ∀ gem, ¬ accepts gem

theorem Largest.of_none {accepts : Nat → Prop} (none : ∀ gem, ¬ accepts gem) : Largest accepts 0 where
  beyond gem _ := none gem
  accepted positive := absurd positive (lt_irrefl 0)
  none := ⟨fun _ => none, fun _ => rfl⟩

theorem Largest.of_beyond {accepts : Nat → Prop} {capacity : Nat} (positive : ¬ accepts 0)
    (beyond : ∀ gem, capacity < gem → ¬ accepts gem) (accepted : 0 < capacity → accepts capacity) :
    Largest accepts capacity := by
  refine ⟨beyond, accepted, ?_, ?_⟩
  · rintro rfl gem
    rcases Nat.eq_zero_or_pos gem with rfl | larger
    · exact positive
    · exact beyond gem larger
  · intro none
    by_contra nonzero
    exact none capacity (accepted (Nat.pos_of_ne_zero nonzero))

/-- `Vat.frob(+dart, +dart)` accepts the amount. -/
def SellAccepts (state : VatState) (gem : Nat) : Prop :=
  let dart := gem * to18.val
  0 < dart ∧ state.rate ≠ 0 ∧
    (state.art.val + dart) * state.rate.val ≤ state.line.val ∧
    state.debt.val + dart * state.rate.val ≤ state.globalLine.val ∧
    (state.urnArt.val + dart) * state.rate.val ≤ (state.urnInk.val + dart) * state.spot.val ∧
    state.dust.val ≤ (state.urnArt.val + dart) * state.rate.val

/-- `Vat.frob(-dart, -dart)` accepts the amount and the inventory covers it. -/
def BuyAccepts (state : VatState) (joinBalance : Uint256) (gem : Nat) : Prop :=
  let dart := gem * to18.val
  0 < dart ∧ state.rate ≠ 0 ∧
    dart ≤ state.urnInk.val ∧ dart ≤ state.urnArt.val ∧ dart ≤ state.art.val ∧
    gem ≤ joinBalance.val ∧
    (state.urnArt.val - dart) * state.rate.val ≤ (state.urnInk.val - dart) * state.spot.val ∧
    (state.urnArt.val = dart ∨ state.dust.val ≤ (state.urnArt.val - dart) * state.rate.val)

instance (state : VatState) (gem : Nat) : Decidable (SellAccepts state gem) := by
  unfold SellAccepts
  infer_instance

instance (state : VatState) (joinBalance : Uint256) (gem : Nat) :
    Decidable (BuyAccepts state joinBalance gem) := by
  unfold BuyAccepts
  infer_instance

variable {state : VatState} {joinBalance high low capacity : Uint256}

theorem to18_pos : 0 < to18.val := by decide

theorem mul_to18_le {bound : Nat} (gem : Nat) : gem * to18.val ≤ bound ↔ gem ≤ bound / to18.val :=
  (Nat.le_div_iff_mul_le to18_pos).symm

structure Rounds (high most executable : Uint256) : Prop where
  divided : high.val / to18.val = most.val
  multiplied : most.val * to18.val = executable.val

section

variable {most executable : Uint256} {accepts : Nat → Prop} {gem : Nat}

theorem rounds_of_returned (divided : div high to18 = some most)
    (multiplied : mul most to18 = some executable) : Rounds high most executable where
  divided := (div_eq_some.mp divided).2
  multiplied := mul_eq_some.mp multiplied

theorem Rounds.le_most (rounds : Rounds high most executable) (within : gem * to18.val ≤ high.val) :
    gem ≤ most.val := by
  rw [← rounds.divided]
  exact (mul_to18_le gem).mp within

theorem Rounds.mul_le (rounds : Rounds high most executable) (within : gem * to18.val ≤ high.val) :
    gem * to18.val ≤ executable.val := by
  rw [← rounds.multiplied]
  exact Nat.mul_le_mul_right _ (rounds.le_most within)

theorem Rounds.executable_le (rounds : Rounds high most executable) : executable.val ≤ high.val := by
  rw [← rounds.multiplied]
  exact (mul_to18_le _).mpr rounds.divided.ge

theorem Rounds.largest_of_short (rounds : Rounds high most executable) (short : executable < low)
    (inside : ∀ gem, accepts gem → low.val ≤ gem * to18.val ∧ gem * to18.val ≤ high.val) :
    Largest accepts 0 := by
  refine Largest.of_none fun gem accepted => ?_
  obtain ⟨above, within⟩ := inside gem accepted
  exact absurd above (not_le.mpr ((rounds.mul_le within).trans_lt short))

theorem Rounds.largest (rounds : Rounds high most executable) (zero : ¬ accepts 0)
    (inside : ∀ gem, accepts gem → gem * to18.val ≤ high.val)
    (whole : 0 < most.val → accepts most.val) : Largest accepts most.val := by
  refine Largest.of_beyond zero (fun gem more accepted => ?_) whole
  exact absurd (rounds.le_most (inside gem accepted)) (not_le.mpr more)

end

theorem sellWithin_largest (accepts : Nat → Prop)
    (iff : ∀ gem, accepts gem ↔ 0 < gem * to18.val ∧
      (low.val ≤ gem * to18.val ∧ gem * to18.val ≤ high.val) ∧
      state.dust.val ≤ (state.urnArt.val + gem * to18.val) * state.rate.val)
    (returned : sellWithin state high low = some capacity) : Largest accepts capacity.val := by
  obtain ⟨most, divided, returned⟩ := Option.bind_eq_some_iff.mp returned
  obtain ⟨executable, multiplied, returned⟩ := Option.bind_eq_some_iff.mp returned
  have rounds := rounds_of_returned divided multiplied
  have zero : ¬ accepts 0 := fun accepted => by simpa using ((iff 0).mp accepted).1
  have inside (gem : Nat) (accepted : accepts gem) := ((iff gem).mp accepted).2.1
  split at returned
  · next short =>
    cases returned
    exact rounds.largest_of_short short inside
  next enough =>
  obtain ⟨art, added, returned⟩ := Option.bind_eq_some_iff.mp returned
  obtain ⟨urnDebt, owed, returned⟩ := Option.bind_eq_some_iff.mp returned
  have urnDebt_eq := mul_eq_some.mp owed
  rw [← add_eq_some.mp added] at urnDebt_eq
  split at returned
  · next dusty =>
    cases returned
    refine Largest.of_none fun gem accepted => ?_
    have scaled := rounds.mul_le (inside gem accepted).2
    have more : (state.urnArt.val + gem * to18.val) * state.rate.val ≤ urnDebt.val := by
      rw [← urnDebt_eq]
      exact Nat.mul_le_mul_right _ (Nat.add_le_add_left scaled _)
    exact absurd ((iff gem).mp accepted).2.2 (not_le.mpr (more.trans_lt dusty))
  · next clean =>
    cases returned
    refine rounds.largest zero (fun gem accepted => (inside gem accepted).2) fun positive => ?_
    rw [iff, rounds.multiplied, urnDebt_eq]
    refine ⟨rounds.multiplied ▸ Nat.mul_pos positive to18_pos, ⟨?_, rounds.executable_le⟩, ?_⟩
    · exact not_lt.mp enough
    · exact not_lt.mp clean

theorem within_iff {rate used limit dart : Nat} (positive : 0 < rate) (room : used ≤ limit) :
    used + dart * rate ≤ limit ↔ dart ≤ (limit - used) / rate := by
  rw [Nat.le_div_iff_mul_le positive]
  omega

theorem rate_pos (nonzero : ¬ state.rate = 0) : 0 < state.rate.val :=
  Nat.pos_of_ne_zero fun zero => nonzero (Fin.ext zero)

/-- The capacity for selling gems is the largest amount that the vault accepts. -/
theorem sell_capacity_exact (returned : sellCapacity state = some capacity) :
    Largest (SellAccepts state) capacity.val := by
  unfold sellCapacity at returned
  split at returned
  · next zero =>
    cases returned
    exact Largest.of_none fun gem accepted => accepted.2.1 zero
  next nonzero =>
  obtain ⟨ilkDebt, owed, returned⟩ := Option.bind_eq_some_iff.mp returned
  have ilk := mul_eq_some.mp owed
  have ilkOwed (dart : Nat) : (state.art.val + dart) * state.rate.val =
      ilkDebt.val + dart * state.rate.val := by rw [Nat.add_mul, ilk]
  split at returned
  · next exceeded =>
    cases returned
    -- A ceiling that is already passed leaves no amount, however small.
    refine Largest.of_none fun gem ⟨_, _, line, global, _⟩ => ?_
    rw [ilkOwed] at line
    rcases exceeded with above | above
    · exact absurd ((Nat.le_add_right _ _).trans line) (not_le.mpr above)
    · exact absurd ((Nat.le_add_right _ _).trans global) (not_le.mpr above)
  next below =>
  obtain ⟨lineBelow, globalBelow⟩ := not_or.mp below
  obtain ⟨lineSpare, lineSpared, returned⟩ := Option.bind_eq_some_iff.mp returned
  obtain ⟨lineRoom, lineDivided, returned⟩ := Option.bind_eq_some_iff.mp returned
  obtain ⟨globalSpare, globalSpared, returned⟩ := Option.bind_eq_some_iff.mp returned
  obtain ⟨globalRoom, globalDivided, returned⟩ := Option.bind_eq_some_iff.mp returned
  obtain ⟨collateralValue, valued, returned⟩ := Option.bind_eq_some_iff.mp returned
  obtain ⟨urnDebt, urnOwed, returned⟩ := Option.bind_eq_some_iff.mp returned
  obtain ⟨bounds, bounded, returned⟩ := Option.bind_eq_some_iff.mp returned
  have lineRoom_eq := (div_eq_some.mp lineDivided).2
  have globalRoom_eq := (div_eq_some.mp globalDivided).2
  rw [← (sub_eq_some.mp lineSpared).2] at lineRoom_eq
  rw [← (sub_eq_some.mp globalSpared).2] at globalRoom_eq
  -- Both ceilings together bound the dart by the smaller of the two quotients.
  have ceilings (dart : Nat) : dart ≤ (min lineRoom globalRoom).val ↔
      (state.art.val + dart) * state.rate.val ≤ state.line.val ∧
        state.debt.val + dart * state.rate.val ≤ state.globalLine.val := by
    rw [val_min, le_min_iff, ← lineRoom_eq, ← globalRoom_eq, ilkOwed,
      within_iff (rate_pos nonzero) (not_lt.mp lineBelow),
      within_iff (rate_pos nonzero) (not_lt.mp globalBelow)]
  have collateral (dart : Nat) :
      (state.urnArt.val + dart) * state.rate.val ≤ (state.urnInk.val + dart) * state.spot.val ↔
        urnDebt.val + dart * state.rate.val ≤ collateralValue.val + dart * state.spot.val := by
    rw [Nat.add_mul, Nat.add_mul, mul_eq_some.mp valued, mul_eq_some.mp urnOwed]
  cases bounds with
  | none =>
    cases returned
    refine Largest.of_none fun gem ⟨_, _, _, _, covered, _⟩ => ?_
    exact (bounds_of_returned bounded).nothing _ ((collateral _).mp covered)
  | some bounds =>
    obtain ⟨high, low⟩ := bounds
    refine sellWithin_largest (SellAccepts state) (fun gem => ?_) returned
    rw [← (bounds_of_returned bounded).between, ceilings, ← collateral]
    unfold SellAccepts
    tauto

theorem sell_capacity_exact_sample :
    let unit : Uint256 := to18
    let state : VatState :=
      { art := 0, rate := 1, spot := 2, line := 9 * unit, dust := 0, debt := 0,
        globalLine := 7 * unit, urnInk := 0, urnArt := 3 * unit }
    sellCapacity state = some 7 ∧ Largest (SellAccepts state) 7 := by
  intro unit state
  have returned : sellCapacity state = some 7 := by decide +kernel
  exact ⟨returned, sell_capacity_exact returned⟩

theorem joinDart_min {dart : Uint256} (returned : joinDart joinBalance = some dart) {limit : Nat}
    (fits : limit < 2 ^ 256) : min limit dart.val = min limit (joinBalance.val * to18.val) := by
  unfold joinDart at returned
  obtain ⟨most, divided, returned⟩ := Option.bind_eq_some_iff.mp returned
  have most_eq := (div_eq_some.mp divided).2
  have last : (Fin.last (2 ^ 256 - 1)).val = 2 ^ 256 - 1 := rfl
  split at returned
  · next large =>
    cases returned
    have above : ¬ joinBalance.val * to18.val ≤ 2 ^ 256 - 1 := by
      rw [mul_to18_le, ← last, most_eq]
      exact not_le.mpr large
    rw [last, min_eq_left (by omega), min_eq_left (by omega)]
  · rw [mul_eq_some.mp returned]

theorem repaid_iff {ink art dart rate spot : Nat} (inInk : dart ≤ ink) (inArt : dart ≤ art) :
    (art - dart) * rate ≤ (ink - dart) * spot ↔
      art * rate + dart * spot ≤ ink * spot + dart * rate := by
  obtain ⟨rest, rfl⟩ := Nat.exists_eq_add_of_le inInk
  obtain ⟨owed, rfl⟩ := Nat.exists_eq_add_of_le inArt
  rw [Nat.add_sub_cancel_left, Nat.add_sub_cancel_left, Nat.add_mul, Nat.add_mul]
  omega

theorem undusted_iff {dust rate art dart : Nat} (positive : 0 < rate) :
    dust ≤ (art - dart) * rate ↔ dust ⌈/⌉ rate ≤ art - dart := by
  rw [ceilDiv_le_iff_le_mul positive, Nat.mul_comm]

section

variable {accepts : Nat → Prop} {most executable minimum : Uint256}

def Repays (state : VatState) (high low : Uint256) (gem : Nat) : Prop :=
  0 < gem * to18.val ∧ (low.val ≤ gem * to18.val ∧ gem * to18.val ≤ high.val) ∧
    (state.urnArt.val = gem * to18.val ∨
      state.dust.val ≤ (state.urnArt.val - gem * to18.val) * state.rate.val)

theorem Repays.spare {gem : Nat} (repays : Repays state high low gem) (nonzero : ¬ state.rate = 0)
    (rounds : Rounds high most executable) (unpaid : executable < state.urnArt)
    (ceiled : state.dust.val ⌈/⌉ state.rate.val = minimum.val) :
    gem * to18.val < state.urnArt.val ∧ minimum.val ≤ state.urnArt.val - gem * to18.val := by
  obtain ⟨_, inside, settled⟩ := repays
  have less : gem * to18.val < state.urnArt.val := (rounds.mul_le inside.2).trans_lt unpaid
  have clean := settled.resolve_left less.ne'
  rw [← ceiled]
  exact ⟨less, (undusted_iff (rate_pos nonzero)).mp clean⟩

def Undercuts (state : VatState) (high low : Nat) : Prop :=
  let executable := high / to18.val * to18.val
  let adjusted := (state.urnArt.val - state.dust.val ⌈/⌉ state.rate.val) / to18.val
  low ≤ executable ∧ executable < state.urnArt.val ∧
    (state.urnArt.val - executable) * state.rate.val < state.dust.val ∧
    0 < adjusted ∧ adjusted * to18.val < low

instance (state : VatState) (high low : Nat) : Decidable (Undercuts state high low) := by
  unfold Undercuts
  infer_instance

theorem Rounds.undercuts_iff (rounds : Rounds high most executable) (state : VatState)
    (low : Uint256) :
    Undercuts state high.val low.val ↔ low.val ≤ executable.val ∧
      executable.val < state.urnArt.val ∧
      (state.urnArt.val - executable.val) * state.rate.val < state.dust.val ∧
      0 < (state.urnArt.val - state.dust.val ⌈/⌉ state.rate.val) / to18.val ∧
      (state.urnArt.val - state.dust.val ⌈/⌉ state.rate.val) / to18.val * to18.val < low.val := by
  unfold Undercuts
  rw [rounds.divided, rounds.multiplied]

theorem Rounds.largest_undusted_iff {adjusted room : Uint256} (rounds : Rounds high most executable)
    (nonzero : ¬ state.rate = 0) (iff : ∀ gem, accepts gem ↔ Repays state high low gem)
    (enough : low ≤ executable) (unpaid : executable < state.urnArt)
    (dusted : (state.urnArt.val - executable.val) * state.rate.val < state.dust.val)
    (ceiled : state.dust.val ⌈/⌉ state.rate.val = minimum.val)
    (subtracted : sub state.urnArt minimum = some room) (split : div room to18 = some adjusted) :
    Largest accepts (min most adjusted).val ↔ ¬ Undercuts state high.val low.val := by
  obtain ⟨least, room_eq⟩ := sub_eq_some.mp subtracted
  have adjusted_eq := (div_eq_some.mp split).2
  have zero : ¬ accepts 0 := fun accepted => by simpa using ((iff 0).mp accepted).1
  have undercuts_iff := rounds.undercuts_iff state low
  rw [ceiled, room_eq, adjusted_eq] at undercuts_iff
  -- Every accepted amount leaves the dust minimum, so it lies within the adjusted one.
  have within (gem : Nat) (accepted : accepts gem) : gem ≤ most.val ∧ gem ≤ adjusted.val := by
    have repays := (iff gem).mp accepted
    obtain ⟨less, spared⟩ := repays.spare nonzero rounds unpaid ceiled
    refine ⟨rounds.le_most repays.2.1.2, ?_⟩
    rw [← adjusted_eq, ← mul_to18_le, ← room_eq]
    omega
  rw [val_min]
  constructor
  · intro largest undercuts
    obtain ⟨_, _, _, positive, below⟩ := undercuts_iff.mp undercuts
    -- The adjusted amount falls below the least dart, and no smaller one reaches it either.
    have nothing (gem : Nat) (accepted : accepts gem) : False := by
      have scaled := Nat.mul_le_mul_right to18.val (within gem accepted).2
      exact absurd (((iff gem).mp accepted).2.1.1.trans scaled) (not_le.mpr below)
    have some : 0 < most.val := by
      refine Nat.pos_of_mul_pos_right (b := to18.val) ?_
      rw [rounds.multiplied]
      exact (Nat.zero_le _).trans_lt (below.trans_le enough)
    exact absurd (largest.none.mpr nothing) (lt_min some positive).ne'
  · intro reached
    refine Largest.of_beyond zero (fun gem more accepted => ?_) fun positive => (iff _).mpr ?_
    · exact absurd (le_min (within gem accepted).1 (within gem accepted).2) (not_le.mpr more)
    have above : low.val ≤ adjusted.val * to18.val := by
      by_contra below
      refine reached (undercuts_iff.mpr ⟨enough, unpaid, dusted, ?_, not_le.mp below⟩)
      exact positive.trans_le (min_le_right _ _)
    have inMost : min most.val adjusted.val * to18.val ≤ executable.val := by
      rw [← rounds.multiplied]
      exact Nat.mul_le_mul_right _ (min_le_left _ _)
    have inRoom : min most.val adjusted.val * to18.val ≤ room.val := by
      rw [mul_to18_le, adjusted_eq]
      exact min_le_right _ _
    refine ⟨Nat.mul_pos positive to18_pos, ⟨?_, inMost.trans rounds.executable_le⟩, .inr ?_⟩
    · rw [← Nat.mul_min_mul_right, rounds.multiplied]
      exact le_min enough above
    · rw [undusted_iff (rate_pos nonzero), ceiled]
      omega

theorem buyWithin_largest (nonzero : ¬ state.rate = 0) (inArt : high.val ≤ state.urnArt.val)
    (iff : ∀ gem, accepts gem ↔ Repays state high low gem)
    (returned : buyWithin state high low = some capacity) :
    Largest accepts capacity.val ↔ ¬ Undercuts state high.val low.val := by
  obtain ⟨most, divided, returned⟩ := Option.bind_eq_some_iff.mp returned
  obtain ⟨executable, multiplied, returned⟩ := Option.bind_eq_some_iff.mp returned
  have rounds := rounds_of_returned divided multiplied
  have zero : ¬ accepts 0 := fun accepted => by simpa using ((iff 0).mp accepted).1
  have inside (gem : Nat) (accepted : accepts gem) := ((iff gem).mp accepted).2.1
  have undercuts_iff := rounds.undercuts_iff state low
  -- The largest whole amount is accepted where it leaves no dust.
  have whole (enough : ¬ executable < low) (clean : state.urnArt.val = executable.val ∨
      state.dust.val ≤ (state.urnArt.val - executable.val) * state.rate.val) :
      Largest accepts most.val := by
    refine rounds.largest zero (fun gem accepted => (inside gem accepted).2) fun positive => ?_
    rw [iff, Repays, rounds.multiplied]
    refine ⟨rounds.multiplied ▸ Nat.mul_pos positive to18_pos, ⟨?_, rounds.executable_le⟩, clean⟩
    exact not_lt.mp enough
  split at returned
  · next short =>
    cases returned
    refine iff_of_true (rounds.largest_of_short short inside) fun undercuts => ?_
    exact absurd (undercuts_iff.mp undercuts).1 (not_le.mpr short)
  next enough =>
  split at returned
  · next unpaid =>
    obtain ⟨rest, left, returned⟩ := Option.bind_eq_some_iff.mp returned
    obtain ⟨residualDebt, owed, returned⟩ := Option.bind_eq_some_iff.mp returned
    have residual_eq := mul_eq_some.mp owed
    rw [← (sub_eq_some.mp left).2] at residual_eq
    split at returned
    · next dusty =>
      obtain ⟨minimum, ceiled, returned⟩ := Option.bind_eq_some_iff.mp returned
      have minimum_eq := (ceilDiv_eq_some.mp ceiled).2
      have dusted : (state.urnArt.val - executable.val) * state.rate.val < state.dust.val := by
        rw [residual_eq]
        exact dusty
      split at returned
      · next nothing =>
        cases returned
        have all : state.urnArt.val ≤ minimum.val := nothing
        refine iff_of_true (Largest.of_none fun gem accepted => ?_) fun undercuts => ?_
        · have repays := (iff gem).mp accepted
          obtain ⟨less, spared⟩ := repays.spare nonzero rounds unpaid minimum_eq
          have positive := repays.1
          omega
        · obtain ⟨_, _, _, positive, _⟩ := undercuts_iff.mp undercuts
          rw [minimum_eq, Nat.sub_eq_zero_of_le all, Nat.zero_div] at positive
          exact absurd positive (lt_irrefl 0)
      · obtain ⟨room, subtracted, returned⟩ := Option.bind_eq_some_iff.mp returned
        obtain ⟨adjusted, split, returned⟩ := Option.bind_eq_some_iff.mp returned
        cases returned
        exact rounds.largest_undusted_iff nonzero iff (not_lt.mp enough) unpaid dusted minimum_eq
          subtracted split
    · next clean =>
      cases returned
      have left : state.dust.val ≤ (state.urnArt.val - executable.val) * state.rate.val := by
        rw [residual_eq]
        exact not_lt.mp clean
      refine iff_of_true (whole enough (.inr left)) fun undercuts => ?_
      exact absurd (undercuts_iff.mp undercuts).2.2.1 (not_lt.mpr left)
  · next paid =>
    cases returned
    refine iff_of_true (whole enough (.inl ?_)) fun undercuts => ?_
    · exact le_antisymm (not_lt.mp paid) (rounds.executable_le.trans inArt)
    · exact paid (undercuts_iff.mp undercuts).2.1

end

def leastDart (state : VatState) : Nat :=
  if state.spot < state.rate then
    (state.urnArt.val * state.rate.val - state.urnInk.val * state.spot.val) ⌈/⌉
      (state.rate.val - state.spot.val)
  else 0

/-- The dust step lowers the capacity below what has to be repaid. -/
def Overlooks (state : VatState) (joinBalance : Uint256) : Prop :=
  Undercuts state
    (min (min (min state.urnInk.val state.urnArt.val) state.art.val) (joinBalance.val * to18.val))
    (leastDart state)

instance (state : VatState) (joinBalance : Uint256) : Decidable (Overlooks state joinBalance) :=
  inferInstanceAs (Decidable (Undercuts state _ _))

theorem not_undercuts_zero (state : VatState) (high : Nat) : ¬ Undercuts state high 0 :=
  fun undercuts => Nat.not_lt_zero _ undercuts.2.2.2.2

theorem not_overlooks (slower : state.rate ≤ state.spot ∨
    state.urnArt.val * state.rate.val ≤ state.urnInk.val * state.spot.val) :
    ¬ Overlooks state joinBalance := by
  have least : leastDart state = 0 := by
    unfold leastDart
    rcases slower with slower | covered
    · rw [if_neg (not_lt.mpr slower)]
    · rw [Nat.sub_eq_zero_of_le covered, zero_ceilDiv, ite_self]
  unfold Overlooks
  rw [least]
  exact not_undercuts_zero _ _

theorem Bounds.undercuts_iff {collateralValue urnDebt joined : Uint256}
    (bounds : Bounds state.rate state.spot collateralValue urnDebt
      (min (min (min state.urnInk state.urnArt) state.art) joined) (some (high, low)))
    (join : joinDart joinBalance = some joined)
    (valued : state.urnInk.val * state.spot.val = collateralValue.val)
    (owed : state.urnArt.val * state.rate.val = urnDebt.val) :
    Undercuts state high.val low.val ↔ Overlooks state joinBalance := by
  cases bounds with
  | above slower covered room_eq => exact iff_of_false (not_undercuts_zero _ _) (not_overlooks (.inl slower.le))
  | free faster covered =>
    refine iff_of_false (not_undercuts_zero _ _) (not_overlooks (.inr ?_))
    rw [valued, owed]
    exact covered
  | below faster short least_eq =>
    have least : leastDart state = low.val := by
      unfold leastDart
      rw [if_pos faster, valued, owed, least_eq]
    have limit := joinDart_min join (min (min state.urnInk state.urnArt) state.art).isLt
    unfold Overlooks
    rw [least, val_min, limit, val_min, val_min]

/-- The capacity for buying gems is the largest amount that the vault and the inventory allow,
exactly where the dust step does not lower it below what has to be repaid. -/
theorem buy_capacity_exact (returned : buyCapacity state joinBalance = some capacity) :
    Largest (BuyAccepts state joinBalance) capacity.val ↔ ¬ Overlooks state joinBalance := by
  unfold buyCapacity at returned
  split at returned
  · next zero =>
    cases returned
    refine iff_of_true (Largest.of_none fun gem accepted => accepted.2.1 zero) (not_overlooks ?_)
    exact .inl (zero ▸ Fin.zero_le _)
  next nonzero =>
  obtain ⟨joined, join, returned⟩ := Option.bind_eq_some_iff.mp returned
  obtain ⟨collateralValue, valued, returned⟩ := Option.bind_eq_some_iff.mp returned
  obtain ⟨urnDebt, urnOwed, returned⟩ := Option.bind_eq_some_iff.mp returned
  obtain ⟨bounds, bounded, returned⟩ := Option.bind_eq_some_iff.mp returned
  have value_eq := mul_eq_some.mp valued
  have debt_eq := mul_eq_some.mp urnOwed
  -- The join balance is in whole gems, so its limit holds before the scaling by 10^12 as well.
  have limits (gem : Nat) :
      gem * to18.val ≤ (min (min (min state.urnInk state.urnArt) state.art) joined).val ↔
        gem * to18.val ≤ state.urnInk.val ∧ gem * to18.val ≤ state.urnArt.val ∧
          gem * to18.val ≤ state.art.val ∧ gem ≤ joinBalance.val := by
    rw [val_min, joinDart_min join (Fin.isLt _), val_min, val_min, le_min_iff, le_min_iff, le_min_iff,
      and_assoc, and_assoc, Nat.mul_le_mul_right_iff to18_pos]
  have accepts_iff (gem : Nat) : BuyAccepts state joinBalance gem ↔ 0 < gem * to18.val ∧
      (gem * to18.val ≤ (min (min (min state.urnInk state.urnArt) state.art) joined).val ∧
        urnDebt.val + gem * to18.val * state.spot.val ≤
          collateralValue.val + gem * to18.val * state.rate.val) ∧
      (state.urnArt.val = gem * to18.val ∨
        state.dust.val ≤ (state.urnArt.val - gem * to18.val) * state.rate.val) := by
    rw [limits, ← value_eq, ← debt_eq]
    constructor
    · rintro ⟨positive, _, inInk, inArt, inAll, inJoin, repaid, clean⟩
      exact ⟨positive, ⟨⟨inInk, inArt, inAll, inJoin⟩, (repaid_iff inInk inArt).mp repaid⟩, clean⟩
    · rintro ⟨positive, ⟨⟨inInk, inArt, inAll, inJoin⟩, repaid⟩, clean⟩
      exact ⟨positive, nonzero, inInk, inArt, inAll, inJoin, (repaid_iff inInk inArt).mpr repaid,
        clean⟩
  -- No range means that the urn is undercollateralised and that repaying does not mend it.
  cases bounds with
  | none =>
    have slower : state.rate ≤ state.spot := by
      cases bounds_of_returned bounded with
      | short slower _ => exact slower
    cases returned
    refine iff_of_true (Largest.of_none fun gem accepted => ?_) (not_overlooks (.inl slower))
    exact (bounds_of_returned bounded).nothing _ ((accepts_iff gem).mp accepted).2.1.2
  | some bounds =>
    obtain ⟨high, low⟩ := bounds
    have limited := bounds_of_returned bounded
    have inArt : high.val ≤ state.urnArt.val := by
      have all := limited.high_le
      simp only [le_min_iff] at all
      exact all.1.1.2
    rw [← limited.undercuts_iff join value_eq debt_eq]
    refine buyWithin_largest nonzero inArt (fun gem => ?_) returned
    rw [accepts_iff, Repays, limited.between]

def shortUrn : VatState where
  art := 10 * to18
  rate := 2
  spot := 1
  line := 0
  dust := 6 * to18
  debt := 0
  globalLine := 0
  urnInk := 12 * to18
  urnArt := 10 * to18

theorem buy_capacity_not_accepted :
    buyCapacity shortUrn 9 = some 7 ∧ ¬ BuyAccepts shortUrn 9 7 := by
  decide +kernel

theorem buy_capacity_exact_sample :
    (buyCapacity shortUrn 10 = some 10 ∧ ¬ Overlooks shortUrn 10 ∧
      Largest (BuyAccepts shortUrn 10) 10) ∧
    (Overlooks shortUrn 9 ∧ ¬ Largest (BuyAccepts shortUrn 9) 7) := by
  have returned : buyCapacity shortUrn 10 = some 10 := by decide +kernel
  have reached : ¬ Overlooks shortUrn 10 := by decide +kernel
  have undercut : buyCapacity shortUrn 9 = some 7 := by decide +kernel
  have overlooked : Overlooks shortUrn 9 := by decide +kernel
  refine ⟨⟨returned, reached, (buy_capacity_exact returned).mpr reached⟩, overlooked, ?_⟩
  exact fun largest => (buy_capacity_exact undercut).mp largest overlooked

end Statefeed.UsddCapacityModel
