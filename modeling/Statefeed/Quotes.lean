import Statefeed.Model.Conversion
import Mathlib.Data.ZMod.Defs
import Mathlib.Order.GaloisConnection.Basic
import Mathlib.Tactic.Linarith
import Mathlib.Tactic.Ring

set_option autoImplicit false

namespace Statefeed.AaveModel

open Checked

def unit : Nat := 10 ^ 12

def buyGross (shares rate : Nat) : Nat := (shares * rate) ⌈/⌉ ray.val * unit

def sellGross (shares rate : Nat) : Nat := shares * rate / ray.val * unit

def feeAmount (gross feeBps : Nat) : Nat := (gross * feeBps) ⌈/⌉ bps.val

def buyTotal (shares rate feeBps : Nat) : Nat :=
  buyGross shares rate + feeAmount (buyGross shares rate) feeBps

def sellTotal (shares rate feeBps : Nat) : Nat :=
  sellGross shares rate - feeAmount (sellGross shares rate) feeBps

def buyShares (maxGho rate feeBps : Nat) : Nat :=
  maxGho * bps.val / (bps.val + feeBps) / unit * ray.val / rate

def sellShares (minGho rate feeBps : Nat) : Nat :=
  ((minGho * bps.val) ⌈/⌉ (bps.val - feeBps)) ⌈/⌉ unit * ray.val ⌈/⌉ rate

section

variable {gross feeBps bound shares rate : Nat}

theorem bps_pos : 0 < bps.val := by decide

theorem ray_pos : 0 < ray.val := by decide

theorem unit_pos : 0 < unit := by decide

theorem add_fee_le_iff :
    gross + feeAmount gross feeBps ≤ bound ↔ gross ≤ bound * bps.val / (bps.val + feeBps) := by
  rw [Nat.le_div_iff_mul_le (Nat.add_pos_left bps_pos feeBps)]
  unfold feeAmount
  by_cases within : gross ≤ bound
  · obtain ⟨rest, rfl⟩ := Nat.exists_eq_add_of_le within
    rw [Nat.add_le_add_iff_left, ceilDiv_le_iff_le_mul bps_pos]
    have left : gross * (bps.val + feeBps) = gross * bps.val + gross * feeBps := by ring
    have right : (gross + rest) * bps.val = gross * bps.val + bps.val * rest := by ring
    omega
  · have more := Nat.mul_lt_mul_of_pos_right (not_le.mp within) bps_pos
    have left : gross * (bps.val + feeBps) = gross * bps.val + gross * feeBps := by ring
    omega

theorem le_sub_fee_iff (small : feeBps < bps.val) :
    bound ≤ gross - feeAmount gross feeBps ↔ (bound * bps.val) ⌈/⌉ (bps.val - feeBps) ≤ gross := by
  obtain ⟨kept, same⟩ := Nat.exists_eq_add_of_lt small
  have difference : bps.val - feeBps = kept + 1 := by omega
  rw [difference, ceilDiv_le_iff_le_mul (by omega : 0 < kept + 1)]
  have fee_le : feeAmount gross feeBps ≤ gross := by
    unfold feeAmount
    rw [ceilDiv_le_iff_le_mul bps_pos, Nat.mul_comm bps.val]
    exact Nat.mul_le_mul_left _ small.le
  by_cases within : bound ≤ gross
  · obtain ⟨rest, rfl⟩ := Nat.exists_eq_add_of_le within
    have moved : bound ≤ bound + rest - feeAmount (bound + rest) feeBps ↔
        feeAmount (bound + rest) feeBps ≤ rest := by omega
    rw [moved]
    unfold feeAmount
    rw [ceilDiv_le_iff_le_mul bps_pos, same]
    constructor <;> intro fits <;> nlinarith
  · have less : ¬ bound ≤ gross - feeAmount gross feeBps := by omega
    refine ⟨fun fits => absurd fits less, fun fits => ?_⟩
    rw [same] at fits
    nlinarith

theorem buyGross_le_iff (positive : 0 < rate) :
    buyGross shares rate ≤ bound ↔ shares ≤ bound / unit * ray.val / rate := by
  unfold buyGross
  rw [← Nat.le_div_iff_mul_le unit_pos, ceilDiv_le_iff_le_mul ray_pos,
    Nat.le_div_iff_mul_le positive, Nat.mul_comm ray.val]

theorem le_sellGross_iff (positive : 0 < rate) :
    bound ≤ sellGross shares rate ↔ bound ⌈/⌉ unit * ray.val ⌈/⌉ rate ≤ shares := by
  unfold sellGross
  rw [Nat.mul_comm _ unit, ← ceilDiv_le_iff_le_mul unit_pos, Nat.le_div_iff_mul_le ray_pos,
    ceilDiv_le_iff_le_mul positive, Nat.mul_comm rate]

theorem gc_buyGross (positive : 0 < rate) :
    GaloisConnection (fun shares => buyGross shares rate)
      (fun gross => gross / unit * ray.val / rate) :=
  fun _ _ => buyGross_le_iff positive

theorem feeAmount_mono {gross larger : Nat} (more : gross ≤ larger) :
    feeAmount gross feeBps ≤ feeAmount larger feeBps := by
  unfold feeAmount
  exact (gc_mul_ceilDiv bps_pos).monotone_l (Nat.mul_le_mul_right _ more)

theorem gross_of_total :
    (gross + feeAmount gross feeBps) * bps.val / (bps.val + feeBps) = gross := by
  refine le_antisymm ?_ (add_fee_le_iff.mp le_rfl)
  by_contra more
  have larger := not_le.mp more
  have total := add_fee_le_iff.mpr (le_refl
    ((gross + feeAmount gross feeBps) * bps.val / (bps.val + feeBps)))
  have fees := @feeAmount_mono feeBps _ _ larger.le
  omega

theorem le_gross_of_received (small : feeBps < bps.val) :
    bound ≤ (bound * bps.val) ⌈/⌉ (bps.val - feeBps) := by
  generalize received : (bound * bps.val) ⌈/⌉ (bps.val - feeBps) = gross
  have enough := (ceilDiv_le_iff_le_mul (Nat.sub_pos_of_lt small)).mp received.le
  have less := Nat.mul_le_mul_right gross (Nat.sub_le bps.val feeBps)
  rw [Nat.mul_comm bps.val] at less
  exact Nat.le_of_mul_le_mul_right (enough.trans less) bps_pos

theorem gc_buy (positive : 0 < rate) :
    GaloisConnection (fun shares => buyTotal shares rate feeBps)
      (fun maxGho => buyShares maxGho rate feeBps) :=
  fun _ _ => add_fee_le_iff.trans (buyGross_le_iff positive)

theorem gc_sell (positive : 0 < rate) (small : feeBps < bps.val) :
    GaloisConnection (fun minGho => sellShares minGho rate feeBps)
      (fun shares => sellTotal shares rate feeBps) :=
  fun _ _ => ((le_sub_fee_iff small).trans (le_sellGross_iff positive)).symm

end

section

variable {shares rate feeBps gross gho result : Uint256}

theorem priced_floor (assets : Nat) : assets * priceRatio.val / assetUnits.val = assets * unit := by
  have split : priceRatio.val = unit * assetUnits.val := by decide
  rw [split, ← Nat.mul_assoc]
  exact Nat.mul_div_cancel _ (by decide)

theorem priced_ceil (assets : Nat) : (assets * priceRatio.val) ⌈/⌉ assetUnits.val = assets * unit := by
  have split : priceRatio.val = assetUnits.val * unit := by decide
  rw [split, Nat.mul_left_comm]
  exact smul_ceilDiv (by decide : 0 < assetUnits.val) _

theorem assets_floor (gho : Nat) : gho * assetUnits.val / priceRatio.val = gho / unit := by
  have split : priceRatio.val = unit * assetUnits.val := by decide
  rw [split]
  exact Nat.mul_div_mul_right _ _ (by decide)

theorem assets_ceil (gho : Nat) : (gho * assetUnits.val) ⌈/⌉ priceRatio.val = gho ⌈/⌉ unit := by
  have split : priceRatio.val = unit * assetUnits.val := by decide
  refine eq_of_forall_ge_iff fun bound => ?_
  rw [ceilDiv_le_iff_le_mul (by decide : 0 < priceRatio.val), ceilDiv_le_iff_le_mul unit_pos, split,
    Nat.mul_right_comm]
  exact Nat.mul_le_mul_right_iff (by decide)

theorem assetPriceInGho_ceil (returned : assetPriceInGho shares rate .ceil = some result) :
    result.val = buyGross shares.val rate.val := by
  obtain ⟨assets, converted, returned⟩ := Option.bind_eq_some_iff.mp returned
  have assets_eq := (mulDiv_ceil_eq_some.mp converted).2
  rw [← (mulDiv_ceil_eq_some.mp returned).2, priced_ceil, ← assets_eq]
  rfl

theorem assetPriceInGho_floor (returned : assetPriceInGho shares rate .floor = some result) :
    result.val = sellGross shares.val rate.val := by
  obtain ⟨assets, converted, returned⟩ := Option.bind_eq_some_iff.mp returned
  have assets_eq := (mulDiv_floor_eq_some.mp converted).2
  rw [← (mulDiv_floor_eq_some.mp returned).2, priced_floor, ← assets_eq]
  rfl

theorem ghoPriceInAsset_floor : ghoPriceInAsset gho rate .floor = some result ↔
    rate.val ≠ 0 ∧ gho.val / unit * ray.val / rate.val = result.val := by
  constructor
  · intro returned
    obtain ⟨assets, divided, returned⟩ := Option.bind_eq_some_iff.mp returned
    obtain ⟨positive, result_eq⟩ := mulDiv_floor_eq_some.mp returned
    rw [← (mulDiv_floor_eq_some.mp divided).2, assets_floor] at result_eq
    exact ⟨positive, result_eq⟩
  · rintro ⟨positive, result_eq⟩
    have fits : gho.val / unit < 2 ^ 256 := (Nat.div_le_self _ _).trans_lt gho.isLt
    refine Option.bind_eq_some_iff.mpr ⟨⟨_, fits⟩, ?_, mulDiv_floor_eq_some.mpr ⟨positive, result_eq⟩⟩
    exact mulDiv_floor_eq_some.mpr ⟨by decide, assets_floor _⟩

theorem ghoPriceInAsset_ceil : ghoPriceInAsset gho rate .ceil = some result ↔
    rate.val ≠ 0 ∧ gho.val ⌈/⌉ unit * ray.val ⌈/⌉ rate.val = result.val := by
  constructor
  · intro returned
    obtain ⟨assets, divided, returned⟩ := Option.bind_eq_some_iff.mp returned
    obtain ⟨positive, result_eq⟩ := mulDiv_ceil_eq_some.mp returned
    rw [← (mulDiv_ceil_eq_some.mp divided).2, assets_ceil] at result_eq
    exact ⟨positive, result_eq⟩
  · rintro ⟨positive, result_eq⟩
    have fits : gho.val ⌈/⌉ unit < 2 ^ 256 := by
      refine lt_of_le_of_lt ((ceilDiv_le_iff_le_mul unit_pos).mpr ?_) gho.isLt
      exact Nat.le_mul_of_pos_left _ unit_pos
    refine Option.bind_eq_some_iff.mpr ⟨⟨_, fits⟩, ?_, mulDiv_ceil_eq_some.mpr ⟨positive, result_eq⟩⟩
    exact mulDiv_ceil_eq_some.mpr ⟨by decide, assets_ceil _⟩

theorem grossOfTotal_eq_some : grossOfTotal gho feeBps = some result ↔
    (feeBps = 0 ∨ bps.val + feeBps.val < 2 ^ 256) ∧
      gho.val * bps.val / (bps.val + feeBps.val) = result.val := by
  unfold grossOfTotal
  split
  · next zero =>
    subst zero
    have whole : gho.val * bps.val / (bps.val + (0 : Uint256).val) = gho.val :=
      Nat.mul_div_cancel _ bps_pos
    rw [whole]
    simp [Fin.ext_iff]
  · next nonzero =>
    constructor
    · intro returned
      obtain ⟨divisor, added, returned⟩ := Option.bind_eq_some_iff.mp returned
      have divisor_eq := add_eq_some.mp added
      rw [divisor_eq]
      exact ⟨.inr divisor.isLt, (mulDiv_floor_eq_some.mp returned).2⟩
    · rintro ⟨fits, result_eq⟩
      have fits := fits.resolve_left nonzero
      refine Option.bind_eq_some_iff.mpr ⟨⟨_, fits⟩, add_eq_some.mpr rfl, ?_⟩
      exact mulDiv_floor_eq_some.mpr ⟨(Nat.add_pos_left bps_pos _).ne', result_eq⟩

theorem grossOfReceived_eq_some : grossOfReceived gho feeBps = some result ↔
    feeBps.val < bps.val ∧ (gho.val * bps.val) ⌈/⌉ (bps.val - feeBps.val) = result.val := by
  unfold grossOfReceived
  split
  · next zero =>
    subst zero
    have whole : (gho.val * bps.val) ⌈/⌉ (bps.val - (0 : Uint256).val) = gho.val := by
      rw [Nat.mul_comm]
      exact smul_ceilDiv bps_pos _
    rw [whole, Option.some_inj, Fin.ext_iff]
    exact (and_iff_right bps_pos).symm
  · constructor
    · intro returned
      obtain ⟨divisor, subtracted, returned⟩ := Option.bind_eq_some_iff.mp returned
      obtain ⟨below, divisor_eq⟩ := sub_eq_some.mp subtracted
      obtain ⟨nonzero, result_eq⟩ := mulDiv_ceil_eq_some.mp returned
      rw [divisor_eq]
      exact ⟨by omega, result_eq⟩
    · rintro ⟨below, result_eq⟩
      have fits : bps.val - feeBps.val < 2 ^ 256 := (Nat.sub_le _ _).trans_lt bps.isLt
      refine Option.bind_eq_some_iff.mpr ⟨⟨_, fits⟩, sub_eq_some.mpr ⟨below.le, rfl⟩, ?_⟩
      exact mulDiv_ceil_eq_some.mpr ⟨(Nat.sub_pos_of_lt below).ne', result_eq⟩

end

section

variable {maxGho minGho shares rate feeBps : Uint256} {quote back : Quote}

theorem buyTotal_of_returned
    (returned : getGhoAmountForBuyAsset shares rate feeBps = some back) :
    back.totalGho.val = buyTotal shares.val rate.val feeBps.val := by
  obtain ⟨gross, priced, returned⟩ := Option.bind_eq_some_iff.mp returned
  obtain ⟨charge, charged, returned⟩ := Option.bind_eq_some_iff.mp returned
  obtain ⟨total, added, returned⟩ := Option.bind_eq_some_iff.mp returned
  obtain ⟨finalGross, _, returned⟩ := Option.bind_eq_some_iff.mp returned
  obtain ⟨finalAsset, _, returned⟩ := Option.bind_eq_some_iff.mp returned
  obtain ⟨finalFee, subtracted, returned⟩ := Option.bind_eq_some_iff.mp returned
  obtain ⟨totalGho, summed, returned⟩ := Option.bind_eq_some_iff.mp returned
  cases returned
  obtain ⟨below, fee_eq⟩ := sub_eq_some.mp subtracted
  have total_eq := add_eq_some.mp added
  have sum_eq := add_eq_some.mp summed
  rw [← (mulDiv_ceil_eq_some.mp charged).2, assetPriceInGho_ceil priced] at total_eq
  change totalGho.val = _ + (buyGross _ _ * feeBps.val) ⌈/⌉ bps.val
  omega

theorem sellTotal_of_returned
    (returned : getGhoAmountForSellAsset shares rate feeBps = some back) :
    back.totalGho.val = sellTotal shares.val rate.val feeBps.val := by
  obtain ⟨gross, priced, returned⟩ := Option.bind_eq_some_iff.mp returned
  obtain ⟨charge, charged, returned⟩ := Option.bind_eq_some_iff.mp returned
  obtain ⟨received, deducted, returned⟩ := Option.bind_eq_some_iff.mp returned
  obtain ⟨finalGross, _, returned⟩ := Option.bind_eq_some_iff.mp returned
  obtain ⟨finalAsset, _, returned⟩ := Option.bind_eq_some_iff.mp returned
  obtain ⟨finalFee, subtracted, returned⟩ := Option.bind_eq_some_iff.mp returned
  obtain ⟨totalGho, taken, returned⟩ := Option.bind_eq_some_iff.mp returned
  cases returned
  obtain ⟨_, received_eq⟩ := sub_eq_some.mp deducted
  obtain ⟨below, fee_eq⟩ := sub_eq_some.mp subtracted
  obtain ⟨_, total_eq⟩ := sub_eq_some.mp taken
  rw [← (mulDiv_ceil_eq_some.mp charged).2, assetPriceInGho_floor priced] at received_eq
  change totalGho.val = _ - (sellGross _ _ * feeBps.val) ⌈/⌉ bps.val
  omega

theorem buy_quote_inverse (returned : getAssetAmountForBuyAsset maxGho rate feeBps = some quote) :
    0 < rate.val ∧ quote.assetAmount.val = buyShares maxGho.val rate.val feeBps.val ∧
      quote.totalGho.val = buyTotal quote.assetAmount.val rate.val feeBps.val ∧
      ∃ back, getGhoAmountForBuyAsset quote.assetAmount rate feeBps = some back := by
  obtain ⟨gross, scaled, returned⟩ := Option.bind_eq_some_iff.mp returned
  obtain ⟨assetAmount, converted, returned⟩ := Option.bind_eq_some_iff.mp returned
  obtain ⟨finalGross, priced, returned⟩ := Option.bind_eq_some_iff.mp returned
  obtain ⟨finalFee, charged, returned⟩ := Option.bind_eq_some_iff.mp returned
  obtain ⟨totalGho, added, returned⟩ := Option.bind_eq_some_iff.mp returned
  cases returned
  obtain ⟨fits, gross_eq⟩ := grossOfTotal_eq_some.mp scaled
  obtain ⟨nonzero, amount_eq⟩ := ghoPriceInAsset_floor.mp converted
  have positive := Nat.pos_of_ne_zero nonzero
  have finalGross_eq := assetPriceInGho_ceil priced
  have finalFee_eq := (mulDiv_ceil_eq_some.mp charged).2
  have total_eq := add_eq_some.mp added
  have shares_eq : assetAmount.val = buyShares maxGho.val rate.val feeBps.val := by
    rw [← amount_eq, ← gross_eq]
    rfl
  have totalled : totalGho.val = buyTotal assetAmount.val rate.val feeBps.val := by
    rw [← total_eq, ← finalFee_eq, finalGross_eq]
    rfl
  refine ⟨positive, shares_eq, totalled, ?_⟩
  -- Undoing the fee and the price gives back the gross amount and the shares.
  have regross : grossOfTotal totalGho feeBps = some finalGross := by
    refine grossOfTotal_eq_some.mpr ⟨fits, ?_⟩
    rw [← total_eq, ← finalFee_eq]
    exact gross_of_total
  have reshares : ghoPriceInAsset finalGross rate .floor = some assetAmount := by
    refine ghoPriceInAsset_floor.mpr ⟨nonzero, ?_⟩
    rw [finalGross_eq, ← amount_eq]
    exact (gc_buyGross positive).u_l_u_eq_u gross.val
  have below : finalGross.val ≤ totalGho.val := by omega
  refine ⟨⟨assetAmount, totalGho, finalGross, finalFee⟩, ?_⟩
  unfold getGhoAmountForBuyAsset
  simp only [Option.bind_eq_bind, Option.bind_eq_some_iff]
  refine ⟨finalGross, priced, finalFee, charged, totalGho, added, finalGross, regross, assetAmount,
    reshares, finalFee, sub_eq_some.mpr ⟨below, by omega⟩, totalGho, added, rfl⟩

theorem sell_quote_inverse (returned : getAssetAmountForSellAsset minGho rate feeBps = some quote) :
    (0 < rate.val ∧ feeBps.val < bps.val) ∧
      quote.assetAmount.val = sellShares minGho.val rate.val feeBps.val ∧
      quote.totalGho.val = sellTotal quote.assetAmount.val rate.val feeBps.val ∧
      ∃ back, getGhoAmountForSellAsset quote.assetAmount rate feeBps = some back := by
  obtain ⟨gross, scaled, returned⟩ := Option.bind_eq_some_iff.mp returned
  obtain ⟨assetAmount, converted, returned⟩ := Option.bind_eq_some_iff.mp returned
  obtain ⟨finalGross, priced, returned⟩ := Option.bind_eq_some_iff.mp returned
  obtain ⟨finalFee, charged, returned⟩ := Option.bind_eq_some_iff.mp returned
  obtain ⟨totalGho, deducted, returned⟩ := Option.bind_eq_some_iff.mp returned
  cases returned
  obtain ⟨small, gross_eq⟩ := grossOfReceived_eq_some.mp scaled
  obtain ⟨nonzero, amount_eq⟩ := ghoPriceInAsset_ceil.mp converted
  have positive := Nat.pos_of_ne_zero nonzero
  have finalGross_eq := assetPriceInGho_floor priced
  have finalFee_eq := (mulDiv_ceil_eq_some.mp charged).2
  obtain ⟨_, total_eq⟩ := sub_eq_some.mp deducted
  have shares_eq : assetAmount.val = sellShares minGho.val rate.val feeBps.val := by
    rw [← amount_eq, ← gross_eq]
    rfl
  have totalled : totalGho.val = sellTotal assetAmount.val rate.val feeBps.val := by
    rw [← total_eq, ← finalFee_eq, finalGross_eq]
    rfl
  refine ⟨⟨positive, small⟩, shares_eq, totalled, ?_⟩
  -- Undoing the fee and the price gives at most the gross amount and the shares.
  have gross_le : (totalGho.val * bps.val) ⌈/⌉ (bps.val - feeBps.val) ≤ finalGross.val := by
    refine (le_sub_fee_iff small).mp ?_
    rw [← total_eq, ← finalFee_eq]
    rfl
  let finalGross' : Uint256 := ⟨_, gross_le.trans_lt finalGross.isLt⟩
  have regross : grossOfReceived totalGho feeBps = some finalGross' :=
    grossOfReceived_eq_some.mpr ⟨small, rfl⟩
  have shares_le := (le_sellGross_iff positive).mp (gross_le.trans finalGross_eq.le)
  let finalAsset : Uint256 := ⟨_, shares_le.trans_lt assetAmount.isLt⟩
  have reshares : ghoPriceInAsset finalGross' rate .ceil = some finalAsset :=
    ghoPriceInAsset_ceil.mpr ⟨nonzero, rfl⟩
  have below : totalGho.val ≤ finalGross'.val := le_gross_of_received small
  let finalFee' : Uint256 := ⟨_, (Nat.sub_le finalGross'.val totalGho.val).trans_lt finalGross'.isLt⟩
  have refee : sub finalGross' totalGho = some finalFee' := sub_eq_some.mpr ⟨below, rfl⟩
  have retotal : sub finalGross' finalFee' = some totalGho :=
    sub_eq_some.mpr ⟨Nat.sub_le _ _, Nat.sub_sub_self below⟩
  refine ⟨⟨finalAsset, totalGho, finalGross', finalFee'⟩, ?_⟩
  unfold getGhoAmountForSellAsset
  simp only [Option.bind_eq_bind, Option.bind_eq_some_iff]
  exact ⟨finalGross, priced, finalFee, charged, totalGho, deducted, finalGross', regross, finalAsset,
    reshares, finalFee', refee, totalGho, retotal, rfl⟩

/-- The quotes by GHO amount are the exact inverses of the quotes by share amount. -/
theorem gsm_quotes_inverse (rate feeBps gho : Uint256) :
    (∀ quote, getAssetAmountForBuyAsset gho rate feeBps = some quote →
      quote.totalGho ≤ gho ∧
      (∃ back, getGhoAmountForBuyAsset quote.assetAmount rate feeBps = some back ∧
        quote.totalGho = back.totalGho) ∧
      ∀ shares back, quote.assetAmount < shares →
        getGhoAmountForBuyAsset shares rate feeBps = some back → gho < back.totalGho) ∧
    (∀ quote, getAssetAmountForSellAsset gho rate feeBps = some quote →
      gho ≤ quote.totalGho ∧
      (∃ back, getGhoAmountForSellAsset quote.assetAmount rate feeBps = some back ∧
        quote.totalGho = back.totalGho) ∧
      ∀ shares back, shares < quote.assetAmount →
        getGhoAmountForSellAsset shares rate feeBps = some back → back.totalGho < gho) := by
  constructor
  · intro quote returned
    obtain ⟨positive, shares_eq, totalled, back, inverse⟩ := buy_quote_inverse returned
    have gc := @gc_buy feeBps.val rate.val positive
    refine ⟨?_, ⟨back, inverse, Fin.ext (totalled.trans (buyTotal_of_returned inverse).symm)⟩, ?_⟩
    · rw [Fin.le_def, totalled]
      exact (gc _ _).mpr shares_eq.le
    · intro shares other more quoted
      rw [Fin.lt_def, buyTotal_of_returned quoted]
      refine not_le.mp fun affords => absurd ((gc _ _).mp affords) (not_le.mpr ?_)
      exact shares_eq.ge.trans_lt more
  · intro quote returned
    obtain ⟨⟨positive, small⟩, shares_eq, totalled, back, inverse⟩ := sell_quote_inverse returned
    have gc := @gc_sell feeBps.val rate.val positive small
    refine ⟨?_, ⟨back, inverse, Fin.ext (totalled.trans (sellTotal_of_returned inverse).symm)⟩, ?_⟩
    · rw [Fin.le_def, totalled]
      exact (gc _ _).mp shares_eq.ge
    · intro shares other less quoted
      rw [Fin.lt_def, sellTotal_of_returned quoted]
      refine not_le.mp fun brings => absurd ((gc _ _).mpr brings) (not_le.mpr ?_)
      exact lt_of_lt_of_eq less shares_eq

theorem gsm_quotes_inverse_sample :
    let rate : Uint256 := 11 * 10 ^ 26
    let gho : Uint256 := 25 * 10 ^ 18
    (∃ quote, getAssetAmountForBuyAsset gho rate 10 = some quote ∧ quote.totalGho ≤ gho) ∧
      ∃ quote, getAssetAmountForSellAsset gho rate 10 = some quote ∧ gho ≤ quote.totalGho := by
  intro rate gho
  obtain ⟨buys, sells⟩ := gsm_quotes_inverse rate 10 gho
  have bought : (getAssetAmountForBuyAsset gho rate 10).isSome := by decide +kernel
  have sold : (getAssetAmountForSellAsset gho rate 10).isSome := by decide +kernel
  obtain ⟨first, buy⟩ := Option.isSome_iff_exists.mp bought
  obtain ⟨second, sell⟩ := Option.isSome_iff_exists.mp sold
  exact ⟨⟨first, buy, (buys first buy).1⟩, second, sell, (sells second sell).1⟩

end

end Statefeed.AaveModel
