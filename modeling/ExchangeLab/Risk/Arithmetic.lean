import ExchangeLab.RiskEngine
import Mathlib.Data.UInt

/-!
# ExchangeLab.Risk.Arithmetic

The machine arithmetic of the risk engine, over the integers.

* `saturatingAdd_toNat`, `floorSub_toNat`, `absoluteValue_toNat`: sums that saturate, differences that
  stop at zero, and the magnitude of a signed 64-bit value, the least one included.
* `applyPositionDelta_toInt`: a position moves exactly while it stays in range.
* `positionLimitExceeded_eq_false`: an order that passes the position check leaves the exposure of its
  side within the limit even when it is filled in full.
-/

namespace ExchangeLab

theorem saturatingAdd_toNat (a b : UInt64) :
    (saturatingAdd a b).toNat = min (a.toNat + b.toNat) (2 ^ 64 - 1) := by
  have ha := a.toNat_lt
  have hb := b.toNat_lt
  have hsub : (0xFFFFFFFFFFFFFFFF - a).toNat = 2 ^ 64 - 1 - a.toNat :=
    UInt64.toNat_sub_of_le _ _ (UInt64.le_iff_toNat_le.mpr (by simp; omega))
  unfold saturatingAdd
  split
  · rename_i h
    have := UInt64.lt_iff_toNat_lt.mp h
    rw [hsub] at this
    simp
    omega
  · rename_i h
    have : ¬ _ := fun h' => h (UInt64.lt_iff_toNat_lt.mpr h')
    rw [hsub] at this
    rw [UInt64.toNat_add]
    omega

theorem floorSub_toNat (a b : UInt64) : (floorSub a b).toNat = a.toNat - b.toNat := by
  unfold floorSub
  split
  · rename_i h
    exact UInt64.toNat_sub_of_le _ _ h
  · rename_i h
    rw [ge_iff_le, UInt64.le_iff_toNat_le] at h
    simp
    omega

theorem toUInt64_toNat (v : Int64) : (v.toUInt64.toNat : Int) = v.toInt % 2 ^ 64 := by
  have h : v.toInt = _ := BitVec.toInt_eq_toNat_cond v.toBitVec
  have hn : v.toBitVec.toNat = v.toUInt64.toNat := rfl
  have hlt := v.toUInt64.toNat_lt
  rw [hn] at h
  split at h <;> omega

theorem quantity_toInt (q : Quantity) : q.toUInt64.toInt64.toInt = q.toNat := by
  have h : q.toUInt64.toInt64.toInt = _ := BitVec.toInt_eq_toNat_cond q.toUInt64.toInt64.toBitVec
  have hn : q.toUInt64.toInt64.toBitVec.toNat = q.toNat := by simp
  have hlt := q.toNat_lt
  rw [hn] at h
  rw [h, if_pos (by omega)]

theorem absoluteValue_toNat (v : Int64) : (absoluteValue v).toNat = v.toInt.natAbs := by
  have hv := toUInt64_toNat v
  have hlt := v.toInt_lt
  have hge := v.le_toInt
  unfold absoluteValue
  split
  · rename_i h
    have h0 : 0 ≤ v.toInt := by simpa [Int64.le_iff_toInt_le] using h
    omega
  rename_i h
  have h0 : v.toInt < 0 := by simpa [Int64.le_iff_toInt_le] using h
  split
  · rename_i hmin
    subst hmin
    decide
  · rename_i hmin
    have hne : v.toInt ≠ -2 ^ 63 := fun he => hmin (Int64.toInt_inj.mp (by simpa using he))
    have hneg := toUInt64_toNat (-v)
    rw [Int64.toInt_neg, Int.bmod_eq_of_le (by omega) (by omega)] at hneg
    omega

/-- The signed quantity a trade adds to the position of a side. -/
def signed : Side → Nat → Int
  | .buy, q => q
  | .sell, q => -q

/-- A position moves by the traded quantity as long as it stays in range. -/
theorem applyPositionDelta_toInt {state : SymbolState} {side : Side} {q : Quantity}
    (hlow : -2 ^ 63 ≤ state.position.toInt + signed side q.toNat)
    (hhigh : state.position.toInt + signed side q.toNat < 2 ^ 63) :
    (state.applyPositionDelta side q).position.toInt =
      state.position.toInt + signed side q.toNat := by
  have hq := quantity_toInt q
  have hqlt := q.toNat_lt
  have hmax : (Int64.maxValue - q.toUInt64.toInt64).toInt = 2 ^ 63 - 1 - q.toNat := by
    rw [Int64.toInt_sub, hq, Int64.toInt_maxValue]
    exact Int.bmod_eq_of_le (by omega) (by omega)
  have hmin : (Int64.minValue + q.toUInt64.toInt64).toInt = -2 ^ 63 + q.toNat := by
    rw [Int64.toInt_add, hq, Int64.toInt_minValue]
    exact Int.bmod_eq_of_le (by omega) (by omega)
  cases side with
  | buy =>
    simp only [signed] at *
    have hno : ¬ state.position > Int64.maxValue - q.toUInt64.toInt64 := by
      rw [gt_iff_lt, Int64.lt_iff_toInt_lt, hmax]
      omega
    simp only [SymbolState.applyPositionDelta, if_neg hno]
    rw [Int64.toInt_add, hq]
    exact Int.bmod_eq_of_le (by omega) (by omega)
  | sell =>
    simp only [signed] at *
    have hno : ¬ state.position < Int64.minValue + q.toUInt64.toInt64 := by
      rw [Int64.lt_iff_toInt_lt, hmin]
      omega
    simp only [SymbolState.applyPositionDelta, if_neg hno]
    rw [Int64.toInt_sub, hq]
    exact Int.bmod_eq_of_le (by omega) (by omega)

/-! ## The position check -/

/-- How far the position can move to one side if every working order of that side is filled. -/
def exposure : Side → Int → Nat → Int
  | .buy, position, openQuantity => position + openQuantity
  | .sell, position, openQuantity => openQuantity - position

def RiskLimits.position (limits : RiskLimits) : Nat := limits.maxPositionPerSymbol.toNat

/-- The magnitude of a position and the exposure of a side, which the position adds to or takes from. -/
def projected (adds : Bool) (magnitude exposure : UInt64) : UInt64 :=
  if adds then saturatingAdd magnitude exposure
  else if exposure > magnitude then exposure - magnitude else 0

theorem projected_toNat (adds : Bool) (magnitude exposure : UInt64) :
    (projected adds magnitude exposure).toNat =
      if adds then min (magnitude.toNat + exposure.toNat) (2 ^ 64 - 1)
      else exposure.toNat - magnitude.toNat := by
  rw [projected]
  cases adds with
  | true =>
    rw [if_pos rfl, if_pos rfl]
    exact saturatingAdd_toNat magnitude exposure
  | false =>
    rw [if_neg Bool.false_ne_true, if_neg Bool.false_ne_true]
    split
    · rename_i hlt
      exact UInt64.toNat_sub_of_le _ _ (UInt64.le_of_lt hlt)
    · rename_i hlt
      rw [gt_iff_lt, UInt64.lt_iff_toNat_lt] at hlt
      rw [Nat.sub_eq_zero_of_le (Nat.not_lt.mp hlt)]
      rfl

/-- Whether a position is on the side, or zero. -/
def addsTo : Side → Int64 → Bool
  | .buy, position => position ≥ 0
  | .sell, position => position ≤ 0

theorem positionLimitExceeded_eq (risk : RiskEngine) (symbolState : Option SymbolState) (side : Side)
    (q : Quantity) (openBuy openSell : UInt64) :
    risk.positionLimitExceeded symbolState side q openBuy openSell =
      decide (projected (addsTo side (symbolState.getD {}).position)
        (absoluteValue (symbolState.getD {}).position)
        (saturatingAdd (match side with | .buy => openBuy | .sell => openSell) q.toUInt64) >
          risk.limits.maxPositionPerSymbol) := by
  obtain ⟨p, hstate, hcheck⟩ : ∃ p, (symbolState.getD {}).position = p ∧
      risk.positionLimitExceeded symbolState side q openBuy openSell =
        risk.positionLimitExceeded (some { position := p }) side q openBuy openSell := by
    cases symbolState <;> exact ⟨_, rfl, rfl⟩
  rw [hcheck, hstate]
  cases side with
  | buy =>
    by_cases h : p ≥ 0
    · simp only [RiskEngine.positionLimitExceeded, projected, addsTo, absoluteValue, if_pos h,
        decide_eq_true h, if_true]
    · simp only [RiskEngine.positionLimitExceeded, projected, addsTo, if_neg h, decide_eq_false h,
        absolutePosition, Bool.false_eq_true, if_false]
      rfl
  | sell =>
    by_cases h : p ≤ 0
    · simp only [RiskEngine.positionLimitExceeded, projected, addsTo, if_pos h, decide_eq_true h,
        absolutePosition, if_true]
    · have hpos : p ≥ 0 := by grind
      simp only [RiskEngine.positionLimitExceeded, projected, addsTo, if_neg h, decide_eq_false h,
        absoluteValue, if_pos hpos, Bool.false_eq_true, if_false]

/-- With the position within the limit on both sides the check is exact where it accepts. -/
theorem positionLimitExceeded_eq_false {risk : RiskEngine} {symbolState : Option SymbolState}
    {side : Side} {q : Quantity} {openBuy openSell : UInt64}
    (hlimit : risk.limits.position < 2 ^ 63)
    (hlow : -(risk.limits.position : Int) ≤ (symbolState.getD {}).position.toInt)
    (hhigh : (symbolState.getD {}).position.toInt ≤ risk.limits.position)
    (h : risk.positionLimitExceeded symbolState side q openBuy openSell = false) :
    exposure side (symbolState.getD {}).position.toInt
        ((match side with | .buy => openBuy | .sell => openSell).toNat + q.toNat) ≤
      risk.limits.position := by
  have hq : q.toUInt64.toNat = q.toNat := UInt32.toNat_toUInt64 q
  rw [positionLimitExceeded_eq, decide_eq_false_iff_not, gt_iff_lt, UInt64.lt_iff_toNat_lt,
    projected_toNat, absoluteValue_toNat, saturatingAdd_toNat, hq] at h
  simp only [RiskLimits.position] at *
  generalize (symbolState.getD {}).position = p at *
  cases side with
  | buy =>
    simp only [exposure, addsTo, decide_eq_true_eq, ge_iff_le, Int64.le_iff_toInt_le] at *
    split at h <;> simp at * <;> omega
  | sell =>
    simp only [exposure, addsTo, decide_eq_true_eq, Int64.le_iff_toInt_le] at *
    split at h <;> simp at * <;> omega

end ExchangeLab
