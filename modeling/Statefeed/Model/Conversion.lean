import Statefeed.Library.Checked

set_option autoImplicit false

namespace Statefeed

open Checked

abbrev Uint256 := Fin (2 ^ 256)

instance instNeZeroUint256 : NeZero (2 ^ 256) := ⟨by decide⟩

namespace UsddCapacityModel

def to18 : Uint256 := ⟨10 ^ 12, by decide⟩

structure VatState where
  art : Uint256
  rate : Uint256
  spot : Uint256
  line : Uint256
  dust : Uint256
  debt : Uint256
  globalLine : Uint256
  urnInk : Uint256
  urnArt : Uint256

/-- The branches on the collateral that both capacities share: a unit adds `gain` to the side that
has to stay larger and `loss` to the other one. The inner `none` returns a capacity of 0, and a
pair is the new `maxDart` with `minDart`. -/
def collateralBounds (gain loss collateralValue urnDebt maxDart : Uint256) :
    Option (Option (Uint256 × Uint256)) :=
  if gain < loss then
    if collateralValue < urnDebt then some none
    else do
      let room ← div (← sub collateralValue urnDebt) (← sub loss gain)
      some (some (min maxDart room, 0))
  else if gain = loss then
    if collateralValue < urnDebt then some none else some (some (maxDart, 0))
  else if collateralValue < urnDebt then do
    let minDart ← ceilDiv (← sub urnDebt collateralValue) (← sub gain loss)
    some (some (maxDart, minDart))
  else some (some (maxDart, 0))

/-- The end of `sellCapacity`, once the bounds are known. -/
def sellWithin (state : VatState) (maxDart minDart : Uint256) : Option Uint256 := do
  let gemCapacity ← div maxDart to18
  let executableDart ← mul gemCapacity to18
  if executableDart < minDart then some 0
  else do
    let urnDebt ← mul (← add state.urnArt executableDart) state.rate
    if urnDebt < state.dust then some 0 else some gemCapacity

def sellCapacity (state : VatState) : Option Uint256 :=
  if state.rate = 0 then some 0
  else do
    let ilkDebt ← mul state.art state.rate
    if state.line < ilkDebt ∨ state.globalLine < state.debt then some 0
    else do
      let lineRoom ← div (← sub state.line ilkDebt) state.rate
      let globalRoom ← div (← sub state.globalLine state.debt) state.rate
      let collateralValue ← mul state.urnInk state.spot
      let urnDebt ← mul state.urnArt state.rate
      match ← collateralBounds state.spot state.rate collateralValue urnDebt
          (min lineRoom globalRoom) with
      | none => some 0
      | some (maxDart, minDart) => sellWithin state maxDart minDart

/-- The end of `buyCapacity`, once the bounds are known. -/
def buyWithin (state : VatState) (maxDart minDart : Uint256) : Option Uint256 := do
  let gemCapacity ← div maxDart to18
  let executableDart ← mul gemCapacity to18
  if executableDart < minDart then some 0
  else if executableDart < state.urnArt then do
    let residualDebt ← mul (← sub state.urnArt executableDart) state.rate
    if residualDebt < state.dust then do
      let minimumResidualArt ← ceilDiv state.dust state.rate
      if state.urnArt ≤ minimumResidualArt then some 0
      else do
        let adjusted ← div (← sub state.urnArt minimumResidualArt) to18
        some (min gemCapacity adjusted)
    else some gemCapacity
  else some gemCapacity

def joinDart (joinBalance : Uint256) : Option Uint256 := do
  let most ← div (Fin.last (2 ^ 256 - 1)) to18
  if most < joinBalance then some (Fin.last (2 ^ 256 - 1)) else mul joinBalance to18

def buyCapacity (state : VatState) (joinBalance : Uint256) : Option Uint256 :=
  if state.rate = 0 then some 0
  else do
    let joinDart ← joinDart joinBalance
    let collateralValue ← mul state.urnInk state.spot
    let urnDebt ← mul state.urnArt state.rate
    match ← collateralBounds state.rate state.spot collateralValue urnDebt
        (min (min (min state.urnInk state.urnArt) state.art) joinDart) with
    | none => some 0
    | some (maxDart, minDart) => buyWithin state maxDart minDart

end UsddCapacityModel

namespace AaveModel

def ray : Uint256 := ⟨10 ^ 27, by decide⟩

def bps : Uint256 := ⟨10000, by decide⟩

def assetUnits : Uint256 := ⟨10 ^ 6, by decide⟩

def priceRatio : Uint256 := ⟨10 ^ 18, by decide⟩

structure Quote where
  assetAmount : Uint256
  totalGho : Uint256
  grossGho : Uint256
  fee : Uint256

def convertToAssets (shares rate : Uint256) (rounding : Rounding) : Option Uint256 :=
  mulDiv shares rate ray rounding

def convertToShares (assets rate : Uint256) (rounding : Rounding) : Option Uint256 :=
  mulDiv assets ray rate rounding

def assetPriceInGho (shares rate : Uint256) (rounding : Rounding) : Option Uint256 := do
  let vaultAssets ← convertToAssets shares rate rounding
  mulDiv vaultAssets priceRatio assetUnits rounding

def ghoPriceInAsset (gho rate : Uint256) (rounding : Rounding) : Option Uint256 := do
  let vaultAssets ← mulDiv gho assetUnits priceRatio rounding
  convertToShares vaultAssets rate rounding

def fee (gross feeBps : Uint256) : Option Uint256 := mulDiv gross feeBps bps .ceil

def grossOfTotal (total buyFeeBps : Uint256) : Option Uint256 :=
  if buyFeeBps = 0 then some total
  else do
    let divisor ← add bps buyFeeBps
    mulDiv total bps divisor .floor

def grossOfReceived (received sellFeeBps : Uint256) : Option Uint256 :=
  if sellFeeBps = 0 then some received
  else do
    let divisor ← sub bps sellFeeBps
    mulDiv received bps divisor .ceil

def getGhoAmountForBuyAsset (shares rate buyFeeBps : Uint256) : Option Quote := do
  let gross ← assetPriceInGho shares rate .ceil
  let total ← add gross (← fee gross buyFeeBps)
  let finalGross ← grossOfTotal total buyFeeBps
  let finalAsset ← ghoPriceInAsset finalGross rate .floor
  let finalFee ← sub total finalGross
  let totalGho ← add finalGross finalFee
  some { assetAmount := finalAsset, totalGho, grossGho := finalGross, fee := finalFee }

def getGhoAmountForSellAsset (shares rate sellFeeBps : Uint256) : Option Quote := do
  let gross ← assetPriceInGho shares rate .floor
  let received ← sub gross (← fee gross sellFeeBps)
  let finalGross ← grossOfReceived received sellFeeBps
  let finalAsset ← ghoPriceInAsset finalGross rate .ceil
  let finalFee ← sub finalGross received
  let totalGho ← sub finalGross finalFee
  some { assetAmount := finalAsset, totalGho, grossGho := finalGross, fee := finalFee }

def getAssetAmountForBuyAsset (maxGho rate buyFeeBps : Uint256) : Option Quote := do
  let gross ← grossOfTotal maxGho buyFeeBps
  let assetAmount ← ghoPriceInAsset gross rate .floor
  let finalGross ← assetPriceInGho assetAmount rate .ceil
  let finalFee ← fee finalGross buyFeeBps
  let totalGho ← add finalGross finalFee
  some { assetAmount, totalGho, grossGho := finalGross, fee := finalFee }

def getAssetAmountForSellAsset (minGho rate sellFeeBps : Uint256) : Option Quote := do
  let gross ← grossOfReceived minGho sellFeeBps
  let assetAmount ← ghoPriceInAsset gross rate .ceil
  let finalGross ← assetPriceInGho assetAmount rate .floor
  let finalFee ← fee finalGross sellFeeBps
  let totalGho ← sub finalGross finalFee
  some { assetAmount, totalGho, grossGho := finalGross, fee := finalFee }

end AaveModel

end Statefeed
