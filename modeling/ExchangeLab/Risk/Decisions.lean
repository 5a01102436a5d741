import ExchangeLab.Risk.Arithmetic

/-!
# ExchangeLab.Risk.Decisions

What the order limits and the position limit decide, over the integers.

* `negateChecked`, `divideChecked`: the two operations that a machine can fail at; the checks with these
  in their place find what the checks find.
* `notional_rejected_iff`, `positionLimitExceeded_iff`: the exact conditions.
* `risk_arithmetic_exact`: both, on all inputs.
-/

namespace ExchangeLab

/-! ## Operations that can fail -/

/-- The least value has no negative. -/
def negateChecked (value : Int64) : Option Int64 :=
  if value = Int64.minValue then none else some (-value)

def divideChecked (dividend divisor : UInt64) : Option UInt64 :=
  if divisor = 0 then none else some (dividend / divisor)

/-- The other operations of the risk engine are unsigned or conversions of non-negative values. -/
def absoluteValueChecked (value : Int64) : Option UInt64 :=
  if value ≥ 0 then some value.toUInt64
  else if value = Int64.minValue then some 0x8000000000000000
  else (negateChecked value).map Int64.toUInt64

theorem absoluteValueChecked_eq (value : Int64) :
    absoluteValueChecked value = some (absoluteValue value) := by
  rw [absoluteValueChecked, absoluteValue]
  split
  · rfl
  split
  · rfl
  · rename_i hmin
    rw [negateChecked, if_neg hmin, Option.map_some]

namespace RiskEngine

variable (risk : RiskEngine)

def checkCommonOrderLimitsChecked (price : Price) (quantity : Quantity)
    (referencePrice : Option Price) : Option RiskDecision :=
  if quantity > risk.limits.maxOrderQuantity then some (.reject .maxOrderQuantity)
  else
    (absoluteValueChecked (referencePrice.getD price)).bind fun priceMagnitude =>
      if priceMagnitude ≠ 0 then
        (divideChecked risk.limits.maxOrderNotional priceMagnitude).map fun largest =>
          if quantity.toUInt64 > largest then .reject .maxOrderNotional else .accept
      else some .accept

def positionLimitExceededChecked (symbolState : Option SymbolState) (side : Side)
    (additionalQuantity : Quantity) (openBuyQuantity openSellQuantity : UInt64) : Option Bool :=
  let position : Int64 := match symbolState with
    | none => 0
    | some state => state.position
  match side with
  | .buy =>
    let buyExposure := saturatingAdd openBuyQuantity additionalQuantity.toUInt64
    let projectedLong :=
      if position ≥ 0 then some (saturatingAdd position.toUInt64 buyExposure)
      else
        (absoluteValueChecked position).map fun shortPosition =>
          if buyExposure > shortPosition then buyExposure - shortPosition else 0
    projectedLong.map fun projected => projected > risk.limits.maxPositionPerSymbol
  | .sell =>
    let sellExposure := saturatingAdd openSellQuantity additionalQuantity.toUInt64
    let projectedShort :=
      if position ≤ 0 then
        (absoluteValueChecked position).map fun magnitude => saturatingAdd magnitude sellExposure
      else
        let longPosition := position.toUInt64
        some (if sellExposure > longPosition then sellExposure - longPosition else 0)
    projectedShort.map fun projected => projected > risk.limits.maxPositionPerSymbol

theorem checkCommonOrderLimitsChecked_eq (price : Price) (quantity : Quantity)
    (referencePrice : Option Price) : risk.checkCommonOrderLimitsChecked price quantity referencePrice =
      some (risk.checkCommonOrderLimits price quantity referencePrice) := by
  rw [checkCommonOrderLimitsChecked, checkCommonOrderLimits]
  split
  · rfl
  rw [absoluteValueChecked_eq, Option.bind_some]
  dsimp only [absolutePrice]
  by_cases hzero : absoluteValue (referencePrice.getD price) = 0
  · rw [if_neg (not_not.mpr hzero), if_neg fun h => h.1 hzero]
  · rw [if_pos hzero, divideChecked, if_neg hzero, Option.map_some]
    simp only [ne_eq, hzero, not_false_eq_true, true_and]

theorem positionLimitExceededChecked_eq (symbolState : Option SymbolState) (side : Side)
    (additionalQuantity : Quantity) (openBuyQuantity openSellQuantity : UInt64) :
    risk.positionLimitExceededChecked symbolState side additionalQuantity openBuyQuantity
        openSellQuantity =
      some (risk.positionLimitExceeded symbolState side additionalQuantity openBuyQuantity
        openSellQuantity) := by
  obtain ⟨p, hchecked, hcheck⟩ : ∃ p,
      risk.positionLimitExceededChecked symbolState side additionalQuantity openBuyQuantity
          openSellQuantity = risk.positionLimitExceededChecked (some { position := p }) side
            additionalQuantity openBuyQuantity openSellQuantity ∧
        risk.positionLimitExceeded symbolState side additionalQuantity openBuyQuantity
          openSellQuantity = risk.positionLimitExceeded (some { position := p }) side
            additionalQuantity openBuyQuantity openSellQuantity := by
    cases symbolState <;> exact ⟨_, rfl, rfl⟩
  rw [hchecked, hcheck]
  cases side with
  | buy =>
    simp only [positionLimitExceededChecked, positionLimitExceeded, absoluteValueChecked_eq,
      absolutePosition, Option.map_some]
    split <;> rfl
  | sell =>
    simp only [positionLimitExceededChecked, positionLimitExceeded, absoluteValueChecked_eq,
      absolutePosition, Option.map_some]
    split <;> rfl

/-! ## The exact conditions -/

/-- A truncated quotient is below a quantity exactly if the product is above the dividend. -/
theorem exceeds_iff (limit magnitude : UInt64) (quantity : Quantity) :
    (magnitude ≠ 0 ∧ quantity.toUInt64 > limit / magnitude) ↔
      limit.toNat < quantity.toNat * magnitude.toNat := by
  have hzero : magnitude = 0 ↔ magnitude.toNat = 0 := UInt64.toNat_inj.symm
  rw [ne_eq, hzero, gt_iff_lt, UInt64.lt_iff_toNat_lt, UInt64.toNat_div, UInt32.toNat_toUInt64]
  rcases Nat.eq_zero_or_pos magnitude.toNat with hnone | hpos
  · rw [hnone, Nat.mul_zero]
    exact iff_of_false (fun h => h.1 rfl) (Nat.not_lt_zero _)
  · rw [Nat.div_lt_iff_lt_mul hpos]
    exact and_iff_right (Nat.ne_of_gt hpos)

theorem notional_rejected_iff {price : Price} {quantity : Quantity} {referencePrice : Option Price}
    (hquantity : quantity ≤ risk.limits.maxOrderQuantity) :
    (risk.checkCommonOrderLimits price quantity referencePrice).accepted = false ↔
      quantity.toNat * |(referencePrice.getD price).toInt| > risk.limits.maxOrderNotional.toNat := by
  have habs : (absolutePrice (referencePrice.getD price)).toNat =
      (referencePrice.getD price).toInt.natAbs := absoluteValue_toNat _
  have hexceeds := exceeds_iff risk.limits.maxOrderNotional
    (absolutePrice (referencePrice.getD price)) quantity
  have hproduct : quantity.toNat * |(referencePrice.getD price).toInt| =
      ((quantity.toNat * (absolutePrice (referencePrice.getD price)).toNat : Nat) : Int) := by
    rw [habs, Nat.cast_mul, Int.natCast_natAbs]
  rw [checkCommonOrderLimits, if_neg (by grind), hproduct, gt_iff_lt, Int.ofNat_lt, ← hexceeds]
  dsimp only
  split
  · rename_i hlarge
    exact iff_of_true rfl hlarge
  · rename_i hsmall
    exact iff_of_false Bool.true_eq_false.mp hsmall

/-- The quantity of a side that is open, and the position, are too small together for a sum to
saturate. -/
theorem positionLimitExceeded_iff {symbolState : Option SymbolState} {side : Side}
    {quantity : Quantity} {openBuy openSell : UInt64}
    (hfits : (match side with | .buy => openBuy | .sell => openSell).toNat + quantity.toNat < 2 ^ 63) :
    risk.positionLimitExceeded symbolState side quantity openBuy openSell = true ↔
      max 0 (exposure side (symbolState.getD {}).position.toInt
        ((match side with | .buy => openBuy | .sell => openSell).toNat + quantity.toNat)) >
          risk.limits.maxPositionPerSymbol.toNat := by
  have hq : quantity.toUInt64.toNat = quantity.toNat := UInt32.toNat_toUInt64 quantity
  have hlow := (symbolState.getD {}).position.le_toInt
  have hhigh := (symbolState.getD {}).position.toInt_lt
  rw [positionLimitExceeded_eq, decide_eq_true_iff, gt_iff_lt, UInt64.lt_iff_toNat_lt,
    projected_toNat, absoluteValue_toNat, saturatingAdd_toNat, hq]
  generalize (symbolState.getD {}).position = p at *
  cases side with
  | buy =>
    simp only [exposure, addsTo, decide_eq_true_eq, ge_iff_le, Int64.le_iff_toInt_le,
      Int64.toInt_zero] at *
    split <;> omega
  | sell =>
    simp only [exposure, addsTo, decide_eq_true_eq, Int64.le_iff_toInt_le, Int64.toInt_zero] at *
    split <;> omega

/-- Nothing is rounded, saturated or undefined in a decision of the two limits. -/
theorem risk_arithmetic_exact (price : Price) (quantity : Quantity) (referencePrice : Option Price)
    (symbolState : Option SymbolState) (openBuy openSell : UInt64)
    (hquantity : quantity ≤ risk.limits.maxOrderQuantity)
    (hbuy : openBuy.toNat + quantity.toNat < 2 ^ 63)
    (hsell : openSell.toNat + quantity.toNat < 2 ^ 63) :
    risk.checkCommonOrderLimitsChecked price quantity referencePrice =
      some (risk.checkCommonOrderLimits price quantity referencePrice) ∧
    ((risk.checkCommonOrderLimits price quantity referencePrice).accepted = false ↔
      quantity.toNat * |(referencePrice.getD price).toInt| > risk.limits.maxOrderNotional.toNat) ∧
    (∀ side, risk.positionLimitExceededChecked symbolState side quantity openBuy openSell =
      some (risk.positionLimitExceeded symbolState side quantity openBuy openSell)) ∧
    (risk.positionLimitExceeded symbolState .buy quantity openBuy openSell = true ↔
      max 0 ((symbolState.getD {}).position.toInt + openBuy.toNat + quantity.toNat) >
        risk.limits.maxPositionPerSymbol.toNat) ∧
    (risk.positionLimitExceeded symbolState .sell quantity openBuy openSell = true ↔
      max 0 (openSell.toNat + quantity.toNat - (symbolState.getD {}).position.toInt) >
        risk.limits.maxPositionPerSymbol.toNat) := by
  have hlong : risk.positionLimitExceeded symbolState .buy quantity openBuy openSell = true ↔ _ :=
    risk.positionLimitExceeded_iff hbuy
  have hshort : risk.positionLimitExceeded symbolState .sell quantity openBuy openSell = true ↔ _ :=
    risk.positionLimitExceeded_iff hsell
  refine ⟨risk.checkCommonOrderLimitsChecked_eq _ _ _, risk.notional_rejected_iff hquantity,
    fun side => risk.positionLimitExceededChecked_eq _ side _ _ _, ?_, ?_⟩
  · rw [hlong, exposure, Nat.cast_add, Int.add_assoc]
  · rw [hshort, exposure, Nat.cast_add]

/-- The least price and the least position, with a limit of orders and one of contracts. -/
theorem risk_arithmetic_exact_least :
    let risk : RiskEngine := { limits := {} }
    let state : SymbolState := { position := Int64.minValue }
    risk.checkCommonOrderLimitsChecked 5 10 (some Int64.minValue) =
      some (risk.checkCommonOrderLimits 5 10 (some Int64.minValue)) ∧
    ((risk.checkCommonOrderLimits 5 10 (some Int64.minValue)).accepted = false ↔
      (10 : Quantity).toNat * |((some Int64.minValue).getD (5 : Price)).toInt| >
        risk.limits.maxOrderNotional.toNat) ∧
    (∀ side, risk.positionLimitExceededChecked (some state) side 10 7 0 =
      some (risk.positionLimitExceeded (some state) side 10 7 0)) ∧
    (risk.positionLimitExceeded (some state) .buy 10 7 0 = true ↔
      max 0 (((some state).getD {}).position.toInt + (7 : UInt64).toNat + (10 : Quantity).toNat) >
        risk.limits.maxPositionPerSymbol.toNat) ∧
    (risk.positionLimitExceeded (some state) .sell 10 7 0 = true ↔
      max 0 ((0 : UInt64).toNat + (10 : Quantity).toNat - ((some state).getD {}).position.toInt) >
        risk.limits.maxPositionPerSymbol.toNat) :=
  risk_arithmetic_exact { limits := {} } 5 10 (some Int64.minValue)
    (some { position := Int64.minValue }) 7 0 (by decide) (by decide) (by decide)

end RiskEngine

end ExchangeLab
