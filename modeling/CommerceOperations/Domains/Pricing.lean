/-
  The price calculation, as `domains/pricing/model.py` has it.

  It runs in a decimal context.  The service uses the default one, of 28 digits; in the exact one
  the same calculation is made without rounding before the last step.  Every operation of the
  source is one operation here, in the same order, and may raise what Python's `decimal` raises:
  an overflow of the exponent, a division by zero, or a result of `quantize` with too many digits.

  The context is a parameter of every function, because the two contexts answer two questions.
  In the exact one the prices are what the formula says: a least multiple of the increment at or
  above a bound.  In the default one they are what the service stores.  How far apart the two are
  is the subject of `PriceBounds` and `PriceRoom`.

  The source computes everything in one function.  It is cut here where its later results depend on
  earlier ones only through one number: the total cost, the two prices, the percentages, and the
  final rounding.

  Amounts are finite, as the request schema has them.
-/
import CommerceOperations.Persistence.Session
import CommerceOperations.Decimals.Context

namespace CommerceOperations

open Decimals (Context)

/-- The limits of Python's `DefaultContext`. -/
def defaultLimits : Decimals.Limits where
  digits := 28
  emin := -999999
  emax := 999999
  digits_pos := by decide
  emin_nonpos := by decide
  emax_nonneg := by decide

/-- The context a thread starts with.  It rounds half-even, and traps `InvalidOperation`,
    `DivisionByZero` and `Overflow`; an underflow only rounds. -/
def defaultContext : Context := ⟨some defaultLimits⟩

/-- The exception that Python raises for a signal of the arithmetic. -/
def Error.ofSignal : Decimals.Signal → Error
  | .divisionByZero => .other "DivisionByZero" "[<class 'decimal.DivisionByZero'>]"
  | .divisionUndefined => .other "InvalidOperation" "[<class 'decimal.DivisionUndefined'>]"
  | .invalidOperation => .other "InvalidOperation" "[<class 'decimal.InvalidOperation'>]"
  | .overflow => .other "Overflow" "[<class 'decimal.Overflow'>]"

/-- `CommercialPricingRules`, with the defaults of the source. -/
structure CommercialPricingRules where
  minimumPrice : Rat := 0
  maximumPrice : Option Rat := none
  roundingIncrement : Rat := 1 / 100
  maximumAutomaticChangePercent : Rat := 10

/-- `PricingInputs`: the costs of an item, the margins asked for, and the price it sells at now, if
    it sells. -/
structure PricingInputs where
  landedCost : Rat
  marketplaceFees : Rat
  fulfilmentCosts : Rat
  targetMargin : Rat
  minimumMargin : Rat
  currentSellingPrice : Option Rat

/-- `PricingCalculation`: the eight results the service records.  The amounts and percentages have
    four decimals. -/
structure PricingCalculation where
  grossProfit : Rat
  contributionProfit : Rat
  marginPercentage : Rat
  roiPercentage : Option Rat
  minimumSellingPrice : Rat
  recommendedSellingPrice : Rat
  priceChangePercentage : Option Rat
  withinAutomaticBoundary : Bool
  deriving DecidableEq

namespace Pricing

/-- `raise PricingValidationError(message)` unless the condition holds. -/
def ensure (cond : Prop) [Decidable cond] (message : String) : Except Error Unit :=
  if cond then .ok () else .error (.raised .pricingValidationError message)

/-- `_validate`.  The conditions are checked in the order of the source, so that the message is that
    of the first one to fail. -/
def validate (inputs : PricingInputs) (rules : CommercialPricingRules) : Except Error Unit := do
  ensure (0 ≤ inputs.landedCost) "landed_cost cannot be negative"
  ensure (0 ≤ inputs.marketplaceFees) "marketplace_fees cannot be negative"
  ensure (0 ≤ inputs.fulfilmentCosts) "fulfilment_costs cannot be negative"
  ensure (0 ≤ inputs.minimumMargin ∧ inputs.minimumMargin < 1)
    "minimum_margin must be at least 0 and below 1"
  ensure (inputs.minimumMargin ≤ inputs.targetMargin ∧ inputs.targetMargin < 1)
    "target_margin must be at least minimum_margin and below 1"
  ensure (inputs.currentSellingPrice.all fun price => 0 < price)
    "current_selling_price must be positive when supplied"
  ensure (0 ≤ rules.minimumPrice) "configured minimum_price cannot be negative"
  ensure (rules.maximumPrice.all fun price => rules.minimumPrice ≤ price)
    "maximum_price cannot be below minimum_price"
  ensure (0 < rules.roundingIncrement) "rounding_increment must be positive"
  ensure (0 < rules.maximumAutomaticChangePercent) "maximum automatic change must be positive"

section Context

variable (context : Context)

/-- The result of an operation: `x` rounded to the context.  The arithmetic of the source is exact
    up to this rounding, as Python's `decimal` specifies it. -/
def round (x : Rat) : Except Error Rat := (context.round x).mapError .ofSignal

/-- `x / y`, which raises for `y = 0`. -/
def divide (x y : Rat) : Except Error Rat := (context.divide x y).mapError .ofSignal

/-- `x / y * Decimal("100")`: two operations, and two roundings. -/
def percentage (x y : Rat) : Except Error Rat := do
  let quotient ← divide context x y
  round context (quotient * 100)

/-- `_money`, and `quantize(PERCENT_PLACES)`: both have four decimals. -/
def quantize (value : Rat) : Except Error Rat := (context.quantize 4 value).mapError .ofSignal

/-- `_round_up`.  `to_integral_value` is exact, so only the quotient and the product are rounded. -/
def roundUp (value increment : Rat) : Except Error Rat := do
  let units ← divide context value increment
  round context (⌈units⌉ * increment)

/-- `total_cost`: landed cost, fees and fulfilment, rounded after each sum. -/
def totalCost (inputs : PricingInputs) : Except Error Rat := do
  let sum ← round context (inputs.landedCost + inputs.marketplaceFees)
  round context (sum + inputs.fulfilmentCosts)

/-- `minimum_price` and `recommended_price` over a total cost, before they are compared with the
    maximum. -/
def pricesFor (totalCost : Rat) (inputs : PricingInputs) (rules : CommercialPricingRules) :
    Except Error (Rat × Rat) := do
  let leftByMinimum ← round context (1 - inputs.minimumMargin)
  let floorFromMargin ← divide context totalCost leftByMinimum
  let leftByTarget ← round context (1 - inputs.targetMargin)
  let targetPrice ← divide context totalCost leftByTarget
  let minimumPrice ←
    roundUp context (max floorFromMargin rules.minimumPrice) rules.roundingIncrement
  let recommendedPrice ← roundUp context (max targetPrice minimumPrice) rules.roundingIncrement
  pure (minimumPrice, recommendedPrice)

/-- `minimum_price` and `recommended_price` as functions of the inputs and the rules. -/
def prices (inputs : PricingInputs) (rules : CommercialPricingRules) :
    Except Error (Rat × Rat) := do
  let totalCost ← totalCost context inputs
  pricesFor context totalCost inputs rules

/-- What is raised when the maximum price is too low. -/
def maximumPriceMessage : String :=
  "Configured maximum price cannot satisfy the profitability floor and target margin"

/-- `roi_percentage`: absent where nothing was paid for the goods. -/
def roiPercentage (inputs : PricingInputs) (contributionProfit : Rat) :
    Except Error (Option Rat) :=
  if 0 < inputs.landedCost then
    some <$> percentage context contributionProfit inputs.landedCost
  else pure none

/-- `price_change`: absent where there is no current price. -/
def priceChange (inputs : PricingInputs) (recommendedPrice : Rat) : Except Error (Option Rat) :=
  inputs.currentSellingPrice.mapM fun price => do
    let change ← round context (recommendedPrice - price)
    percentage context change price

/-- The result of `calculate_price`; its amounts are rounded in this order. -/
def finish (grossProfit contributionProfit marginPercentage : Rat) (roiPercentage : Option Rat)
    (minimumPrice recommendedPrice : Rat) (priceChange : Option Rat) (withinBoundary : Bool) :
    Except Error PricingCalculation := do
  let grossProfit ← quantize context grossProfit
  let contributionProfit ← quantize context contributionProfit
  let marginPercentage ← quantize context marginPercentage
  let roiPercentage ← roiPercentage.mapM (quantize context)
  let minimumSellingPrice ← quantize context minimumPrice
  let recommendedSellingPrice ← quantize context recommendedPrice
  let priceChangePercentage ← priceChange.mapM (quantize context)
  pure
    { grossProfit
      contributionProfit
      marginPercentage
      roiPercentage
      minimumSellingPrice
      recommendedSellingPrice
      priceChangePercentage
      withinAutomaticBoundary := withinBoundary }

/-- `calculate_price`.  The comparison with the boundary is made on the change as computed, before
    `finish` rounds it to four decimals. -/
def calculatePrice (inputs : PricingInputs) (rules : CommercialPricingRules) :
    Except Error PricingCalculation := do
  validate inputs rules
  let totalCost ← totalCost context inputs
  let (minimumPrice, recommendedPrice) ← pricesFor context totalCost inputs rules
  ensure (rules.maximumPrice.all fun price => recommendedPrice ≤ price) maximumPriceMessage
  let grossProfit ← round context (recommendedPrice - inputs.landedCost)
  let contributionProfit ← round context (recommendedPrice - totalCost)
  let marginPercentage ← percentage context contributionProfit recommendedPrice
  let roiPercentage ← roiPercentage context inputs contributionProfit
  let priceChange ← priceChange context inputs recommendedPrice
  let withinBoundary :=
    priceChange.all fun change => |change| < rules.maximumAutomaticChangePercent
  finish context grossProfit contributionProfit marginPercentage roiPercentage minimumPrice
    recommendedPrice priceChange withinBoundary

end Context

end Pricing

end CommerceOperations
