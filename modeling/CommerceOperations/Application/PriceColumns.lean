/-
  Pricing decisions and the table they are stored in: `Numeric(19, 4)` for money, `Numeric(9, 4)`
  for percentages, and the check constraints of the table.

  Profits and the margin follow the price.  The return on the landed cost and the change of price
  do not: they are quotients by amounts that may be as small as the schema allows, and the amounts
  themselves have no upper bound.  The crux is that everything else a row can fail by is said of
  the request: the price it leads to is bounded by a multiple of the increment that covers the
  costs, and the target margin, which a column of four decimals rounds up to one, by half a
  ten-thousandth.
-/
import CommerceOperations.Application.Pricing
import CommerceOperations.Domains.PriceRoom
import CommerceOperations.Persistence.Money

namespace CommerceOperations

open Decimals Pricing

/-! ## The request -/

/-- The settings of the API that pricing reads. -/
structure PricingSettings where
  pricingTargetMargin : Rat
  pricingMinimumMargin : Rat
  pricingMinimumPrice : Rat
  pricingMaximumPrice : Option Rat
  pricingRoundingIncrement : Rat
  significantPriceChangePercent : Rat

/-- `PricingDecisionRequest`: the body of the request, as its schema admits it. -/
structure PricingDecisionRequest where
  inventoryItemId : Uuid
  landedCost : Option Rat
  marketplaceFees : Rat
  fulfilmentCosts : Rat
  targetMargin : Option Rat
  minimumMargin : Option Rat
  currentSellingPrice : Option Rat
  currency : String
  reason : String
  requester : String
  minimumPrice : Option Rat
  maximumPrice : Option Rat
  roundingIncrement : Option Rat

namespace PricingDecisionRequest

/-- What the schema admits; `decimal_places=4` is `IsMoney`. -/
structure Admitted (request : PricingDecisionRequest) : Prop where
  landedCost : ∀ x ∈ request.landedCost, 0 ≤ x ∧ IsMoney x
  marketplaceFees : 0 ≤ request.marketplaceFees ∧ IsMoney request.marketplaceFees
  fulfilmentCosts : 0 ≤ request.fulfilmentCosts ∧ IsMoney request.fulfilmentCosts
  targetMargin : ∀ x ∈ request.targetMargin, 0 ≤ x ∧ x < 1
  minimumMargin : ∀ x ∈ request.minimumMargin, 0 ≤ x ∧ x < 1
  currentSellingPrice : ∀ x ∈ request.currentSellingPrice, 0 < x ∧ IsMoney x
  currency : request.currency.length = 3
  reason : 1 ≤ request.reason.length ∧ request.reason.length ≤ 2000
  requester : 1 ≤ request.requester.length ∧ request.requester.length ≤ 255
  minimumPrice : ∀ x ∈ request.minimumPrice, 0 ≤ x
  maximumPrice : ∀ x ∈ request.maximumPrice, 0 < x
  roundingIncrement : ∀ x ∈ request.roundingIncrement, 0 < x
  margins : ∀ x ∈ request.targetMargin, ∀ y ∈ request.minimumMargin, y ≤ x

/-- The command that `create_pricing_decision` builds. -/
def command (request : PricingDecisionRequest) (settings : PricingSettings) :
    CreatePricingDecision where
  inventoryItemId := request.inventoryItemId
  marketplaceFees := request.marketplaceFees
  fulfilmentCosts := request.fulfilmentCosts
  targetMargin := request.targetMargin.getD settings.pricingTargetMargin
  minimumMargin := request.minimumMargin.getD settings.pricingMinimumMargin
  currentSellingPrice := request.currentSellingPrice
  currency := request.currency
  reason := request.reason
  requester := request.requester
  landedCost := request.landedCost
  rules :=
    { minimumPrice := request.minimumPrice.getD settings.pricingMinimumPrice
      maximumPrice := request.maximumPrice <|> settings.pricingMaximumPrice
      roundingIncrement := request.roundingIncrement.getD settings.pricingRoundingIncrement
      maximumAutomaticChangePercent := settings.significantPriceChangePercent }

end PricingDecisionRequest

/-! ## The columns -/

/-- `Numeric(19, 4)` has room: at most fifteen digits stand before the point. -/
def FitsMoney (x : Rat) : Prop := |x| < 10 ^ 15

/-- `Numeric(9, 4)` has room: at most five digits stand before the point. -/
def FitsPercent (x : Rat) : Prop := |x| < 10 ^ 5

/-- The row can be inserted: every numeric column has room for its value, and the values, as the
    columns round them, pass the check constraints of the table. -/
structure PricingDecision.Storable (decision : PricingDecision) : Prop where
  /-- the columns of money and of percentages have room -/
  landedCost : FitsMoney decision.landedCost
  marketplaceFees : FitsMoney decision.marketplaceFees
  fulfilmentCosts : FitsMoney decision.fulfilmentCosts
  targetMargin : FitsPercent decision.targetMargin
  minimumMargin : FitsPercent decision.minimumMargin
  minimumPrice : FitsMoney decision.minimumPrice
  currentPrice : ∀ price ∈ decision.currentPrice, FitsMoney price
  proposedPrice : FitsMoney decision.proposedPrice
  contributionMargin : FitsMoney decision.contributionMargin
  grossProfit : FitsMoney decision.grossProfit
  contributionProfit : FitsMoney decision.contributionProfit
  marginPercentage : FitsPercent decision.marginPercentage
  roiPercentage : ∀ roi ∈ decision.roiPercentage, FitsPercent roi
  recommendedPrice : FitsMoney decision.recommendedPrice
  priceChangePercentage : ∀ change ∈ decision.priceChangePercentage, FitsPercent change
  /-- and the constraints of the table hold, one a field -/
  nonnegativeLandedCost : 0 ≤ decision.landedCost
  nonnegativeFulfilmentCosts : 0 ≤ decision.fulfilmentCosts
  nonnegativeMinimumPrice : 0 ≤ decision.minimumPrice
  priceAboveFloor : decision.minimumPrice ≤ decision.proposedPrice
  validMinimumMargin : 0 ≤ decision.minimumMargin ∧ decision.minimumMargin < 1
  validTargetMargin : decision.minimumMargin ≤ decision.targetMargin ∧ decision.targetMargin < 1

/-! ### Rounded values in a column -/

/-- A value that the column rounds fits if it rounds to less than ten to the 15th. -/
theorem fitsMoney_money {x : Rat} (hx : 0 ≤ x) :
    FitsMoney (money x) ↔ x < 10 ^ 15 - 1 / 20000 := by
  have := money_lt_iff hx (10 ^ 15)
  rw [Int.cast_pow, Int.cast_ofNat] at this
  unfold FitsMoney
  rw [abs_of_nonneg (money_nonneg hx), this]

/-- A margin has room in its column. -/
theorem fitsPercent_money {x : Rat} (hx : 0 ≤ x) (h : x < 1) : FitsPercent (money x) := by
  have := money_lt_iff hx (10 ^ 5)
  rw [Int.cast_pow, Int.cast_ofNat] at this
  unfold FitsPercent
  rw [abs_of_nonneg (money_nonneg hx), this]
  linarith

/-- A value of four decimals is below a whole number until half a ten-thousandth below it.  The
    number itself is even in ten-thousandths, so the half is rounded up to it. -/
theorem abs_toPlaces_lt_iff {x : Rat} {n : Nat} :
    |toPlaces 4 x| < n ↔ |x| < n - 1 / 20000 := by
  have hround := @natAbs_roundHalfEven_lt (x * 10 ^ 4) (n * 10000) (by omega)
  rw [abs_mul, abs_of_pos (show (0 : Rat) < 10 ^ 4 by norm_num)] at hround
  push_cast at hround
  have hcast : |toPlaces 4 x| < n ↔ (roundHalfEven (x * 10 ^ 4)).natAbs < n * 10000 := by
    unfold toPlaces
    rw [abs_div, abs_of_pos (show (0 : Rat) < 10 ^ 4 by norm_num), div_lt_iff₀ (by norm_num),
      ← Int.cast_abs, ← Nat.cast_natAbs]
    constructor
    · intro h
      have : ((roundHalfEven (x * 10 ^ 4)).natAbs : Rat) < ((n * 10000 : Nat) : Rat) := by
        push_cast
        linarith
      exact_mod_cast this
    · intro h
      have : ((roundHalfEven (x * 10 ^ 4)).natAbs : Rat) < ((n * 10000 : Nat) : Rat) := by
        exact_mod_cast h
      push_cast at this
      linarith
  rw [hcast, hround]
  constructor
  · intro h
    linarith
  · intro h
    linarith

/-- When an amount of the result fits its column. -/
theorem fitsMoney_toPlaces {x : Rat} : FitsMoney (toPlaces 4 x) ↔ |x| < 10 ^ 15 - 1 / 20000 := by
  have := @abs_toPlaces_lt_iff x (10 ^ 15)
  push_cast at this
  exact this

/-- When a percentage of the result fits its column. -/
theorem fitsPercent_toPlaces {x : Rat} :
    FitsPercent (toPlaces 4 x) ↔ |x| < 10 ^ 5 - 1 / 20000 := by
  have := @abs_toPlaces_lt_iff x (10 ^ 5)
  push_cast at this
  exact this

/-- A margin below one is stored as one from half a ten-thousandth below it on. -/
theorem money_lt_one_iff {x : Rat} (hx : 0 ≤ x) : money x < 1 ↔ x < 1 - 1 / 20000 := by
  have := money_lt_iff hx 1
  push_cast at this
  exact this

/-! ## When a decision fits -/

/-- What the request has to be for its decision to fit: the amounts are small enough, the target
    margin is not rounded to one, and some price, `units n` increments where `n` of them cover the
    bounds, leaves the prices, the return and the change, all times `s`, small enough. -/
structure CreatePricingDecision.Fits (command : CreatePricingDecision) (landedCost s : Rat)
    (units : Int → Int) : Prop where
  /-- the amounts of the request -/
  landed : landedCost < 10 ^ 15 - 1 / 20000
  marketplaceFees : command.marketplaceFees < 10 ^ 15 - 1 / 20000
  fulfilmentCosts : command.fulfilmentCosts < 10 ^ 15 - 1 / 20000
  currentSellingPrice : ∀ price ∈ command.currentSellingPrice, price < 10 ^ 15 - 1 / 20000
  /-- its margin -/
  targetMargin : command.targetMargin < 1 - 1 / 20000
  /-- and a price that it leaves -/
  affordable : Affordable (PricingService.inputs command landedCost) command.rules
    (10 ^ 15 - 1 / 20000) (10 ^ 5 - 1 / 20000) s units

/-- An amount of the schema is in range as soon as it is small enough for its column. -/
theorem IsMoney.inRange {x : Rat} (h : IsMoney x) (hx : 0 ≤ x) (hlt : x < 10 ^ 15 - 1 / 20000) :
    InRange x := by
  obtain ⟨k, rfl⟩ := h
  rcases eq_or_lt_of_le hx with hzero | hpos
  · exact .inl hzero.symm
  · have hk : (1 : Rat) ≤ k := by
      have : (0 : Rat) < k := by
        by_contra hle
        have := div_nonpos_of_nonpos_of_nonneg (not_lt.mp hle) (show (0 : Rat) ≤ 10000 by norm_num)
        linarith
      exact_mod_cast this
    refine inRange_of_le ?_ ?_
    · norm_num
      linarith
    · norm_num at hlt ⊢
      linarith

/-- The amounts of an admitted request are in range as soon as they fit their columns.  Only the
    minimum price and the increment are not bounded by the schema or the columns. -/
theorem PricingDecisionRequest.Admitted.ordinary {request : PricingDecisionRequest}
    {settings : PricingSettings} {landedCost : Rat} (hadmitted : request.Admitted)
    (hmoney : IsMoney landedCost)
    (hminimum : InRange (request.command settings).rules.minimumPrice)
    (hincrement : InRange (request.command settings).rules.roundingIncrement)
    (h : Valid (PricingService.inputs (request.command settings) landedCost)
      (request.command settings).rules)
    (hlanded : landedCost < 10 ^ 15 - 1 / 20000)
    (hfees : request.marketplaceFees < 10 ^ 15 - 1 / 20000)
    (hfulfilment : request.fulfilmentCosts < 10 ^ 15 - 1 / 20000)
    (hcurrent : ∀ price ∈ request.currentSellingPrice, price < 10 ^ 15 - 1 / 20000)
    (htarget : (request.command settings).targetMargin < 1 - 1 / 20000) :
    Ordinary (PricingService.inputs (request.command settings) landedCost)
      (request.command settings).rules where
  landedCost := hmoney.inRange h.landedCost hlanded
  marketplaceFees := hadmitted.marketplaceFees.2.inRange h.marketplaceFees hfees
  fulfilmentCosts := hadmitted.fulfilmentCosts.2.inRange h.fulfilmentCosts hfulfilment
  targetLeft := by
    have hspan : (10 : Rat) ^ (-span) ≤ 10 ^ (-5 : Int) :=
      zpow_le_zpow_right₀ (by norm_num) (by decide)
    refine hspan.trans ?_
    show (10 : Rat) ^ (-5 : Int) ≤ 1 - (request.command settings).targetMargin
    norm_num
    linarith
  currentSellingPrice := fun price hmem => (hadmitted.currentSellingPrice price hmem).2.inRange
    (h.currentSellingPrice price hmem).le (hcurrent price hmem)
  minimumPrice := hminimum
  roundingIncrement := hincrement

/-- The recommended price is not below the floor, unless the increment is so small that a count of
    them loses its last digits.  The floor is some increments, rounded; the price is rounded up from
    it, and below ten to the 26th no count is rounded. -/
theorem floorPrice_le_salePrice {inputs : PricingInputs} {rules : CommercialPricingRules}
    (h : Valid inputs rules) (ho : Ordinary inputs rules)
    (hfew : Covers inputs rules slack (10 ^ 26)) :
    floorPrice defaultContext inputs rules ≤ salePrice defaultContext inputs rules := by
  have hspan : span = 300000 := rfl
  have hincrement := h.roundingIncrement
  have hunit := defaultLimits.unit_pos
  set floorUnits := units defaultContext (floorValue defaultContext inputs rules)
    rules.roundingIncrement with hfloorUnits
  have hfew : floorUnits ≤ 10 ^ 26 := floorUnits_le h ho hfew
  -- dividing the floor by the increment again loses less than one unit
  have hnear := (near_nextMultiple (sized_floorValue h ho) (by omega) ho.roundingIncrement
    hincrement).2
  have hquotient := (near_fix ((sized_floorPrice h ho).div ho.roundingIncrement hincrement)
    (by omega)).2
  rw [pow_one] at hnear hquotient
  have hback : (floorUnits : Rat) ≤ defaultContext.fix
      (floorPrice defaultContext inputs rules / rules.roundingIncrement) *
        ((1 + defaultLimits.unit) * (1 + defaultLimits.unit)) := by
    have hdiv : (floorUnits : Rat) ≤ floorPrice defaultContext inputs rules /
        rules.roundingIncrement * (1 + defaultLimits.unit) := by
      rw [div_mul_eq_mul_div, le_div_iff₀ hincrement]
      exact hnear
    calc (floorUnits : Rat) ≤ floorPrice defaultContext inputs rules /
          rules.roundingIncrement * (1 + defaultLimits.unit) := hdiv
      _ ≤ defaultContext.fix (floorPrice defaultContext inputs rules / rules.roundingIncrement) *
            (1 + defaultLimits.unit) * (1 + defaultLimits.unit) := by gcongr
      _ = _ := by ring
  have hunits : floorUnits ≤ units defaultContext (saleValue defaultContext inputs rules)
      rules.roundingIncrement := by
    refine Int.le_of_lt_add_one (Int.lt_add_one_iff.mpr ?_)
    refine le_trans ?_
      (Int.ceil_le_ceil (Context.fix_mono defaultContext (div_le_div_of_nonneg_right
      (le_max_right (withMargin defaultContext inputs inputs.targetMargin) _) hincrement.le)))
    refine Int.le_of_sub_one_lt (Int.lt_ceil.mpr ?_)
    have hcast : (floorUnits : Rat) ≤ 10 ^ 26 := by exact_mod_cast hfew
    have hfix := Context.fix_nonneg defaultContext
      (div_nonneg (sized_floorPrice h ho).nonneg hincrement.le)
    rw [unit_default] at hback
    push_cast
    norm_num at hback hcast ⊢
    linarith
  refine Context.fix_mono _ ?_
  have : (floorUnits : Rat) ≤ units defaultContext (saleValue defaultContext inputs rules)
      rules.roundingIncrement := by exact_mod_cast hunits
  gcongr

/-- The settings the service starts with. -/
def defaultSettings : PricingSettings where
  pricingTargetMargin := 3 / 10
  pricingMinimumMargin := 15 / 100
  pricingMinimumPrice := 0
  pricingMaximumPrice := none
  pricingRoundingIncrement := 1 / 100
  significantPriceChangePercent := 10

/-- A request that only says what the product costs and its least price. -/
def costing (landedCost minimumPrice : Rat) : PricingDecisionRequest where
  inventoryItemId := Uuid.ofNat 1
  landedCost := some landedCost
  marketplaceFees := 0
  fulfilmentCosts := 0
  targetMargin := none
  minimumMargin := none
  currentSellingPrice := none
  currency := "GBP"
  reason := "pricing"
  requester := "seller"
  minimumPrice := some minimumPrice
  maximumPrice := none
  roundingIncrement := none

/-- The schema admits a request of that kind. -/
theorem costing_admitted {landedCost minimumPrice : Rat} (hlanded : 0 ≤ landedCost)
    (hmoney : IsMoney landedCost) (h : 0 ≤ minimumPrice) :
    (costing landedCost minimumPrice).Admitted := by
  have hzero : IsMoney 0 := ⟨0, by norm_num⟩
  refine
    { landedCost := ?_
      marketplaceFees := ⟨le_rfl, hzero⟩
      fulfilmentCosts := ⟨le_rfl, hzero⟩
      targetMargin := by rintro _ ⟨⟩
      minimumMargin := by rintro _ ⟨⟩
      currentSellingPrice := by rintro _ ⟨⟩
      currency := (by decide : "GBP".length = 3)
      reason := ⟨(by decide : 1 ≤ "pricing".length), (by decide : "pricing".length ≤ 2000)⟩
      requester := ⟨(by decide : 1 ≤ "seller".length), (by decide : "seller".length ≤ 255)⟩
      minimumPrice := ?_
      maximumPrice := by rintro _ ⟨⟩
      roundingIncrement := by rintro _ ⟨⟩
      margins := by rintro _ ⟨⟩ }
  · rintro _ ⟨⟩
    exact ⟨hlanded, hmoney⟩
  · rintro _ ⟨⟩
    exact h

/-- The result of such a request. -/
def costed (landedCost minimumPrice : Rat) : Except Error PricingCalculation :=
  calculatePrice defaultContext
    (PricingService.inputs ((costing landedCost minimumPrice).command defaultSettings) landedCost)
    ((costing landedCost minimumPrice).command defaultSettings).rules

end CommerceOperations
