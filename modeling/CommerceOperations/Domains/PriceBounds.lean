/-
  What the price calculation gives.

  The two prices are closed forms of the inputs: the next multiple of the increment above the
  floor, and above the target price.  A calculation returns exactly when the inputs are valid, no
  operation raises a signal, the price is within the maximum and every figure has room in the
  digits of the context, and then the result is made of the closed forms (`calculatePrice_eq_ok`).

  The crux is to have that as one equivalence.  An operation succeeds if and only if its divisor is
  not zero and its result does not overflow, and a sequence of operations succeeds if and only if
  each does; so the conditions of the whole are collected step by step, and later results take
  them apart without opening the calculation again.
-/
import CommerceOperations.Domains.Pricing
import Mathlib.Order.Bounds.Basic
import Mathlib.Data.Rat.Cast.Order

namespace CommerceOperations

namespace Pricing

open Decimals

/-! ## Accepted inputs -/

/-- What `_validate` accepts: the inputs and rules it raises nothing for. -/
structure Valid (inputs : PricingInputs) (rules : CommercialPricingRules) : Prop where
  /-- costs are not negative -/
  landedCost : 0 ≤ inputs.landedCost
  marketplaceFees : 0 ≤ inputs.marketplaceFees
  fulfilmentCosts : 0 ≤ inputs.fulfilmentCosts
  /-- nor are margins -/
  minimumMargin : 0 ≤ inputs.minimumMargin
  /-- the target is no lower than the minimum -/
  minimumMargin_le : inputs.minimumMargin ≤ inputs.targetMargin
  /-- and leaves something of the price -/
  targetMargin_lt : inputs.targetMargin < 1
  /-- a current price is positive -/
  currentSellingPrice : ∀ price ∈ inputs.currentSellingPrice, 0 < price
  /-- the commercial bounds are not negative -/
  minimumPrice : 0 ≤ rules.minimumPrice
  /-- and not the wrong way round -/
  maximumPrice : ∀ price ∈ rules.maximumPrice, rules.minimumPrice ≤ price
  /-- there is an increment to round up to -/
  roundingIncrement : 0 < rules.roundingIncrement
  /-- and a boundary to compare with -/
  maximumAutomaticChangePercent : 0 < rules.maximumAutomaticChangePercent

/-- A check passes exactly if its condition holds. -/
theorem ensure_eq_ok {cond : Prop} [Decidable cond] {message : String} :
    ensure cond message = .ok () ↔ cond := by
  unfold ensure
  split
  · rename_i h
    exact ⟨fun _ => h, fun _ => rfl⟩
  · rename_i h
    exact ⟨fun h' => (nomatch h'), fun h' => absurd h' h⟩

/-- A check in front of others: they pass together if each does. -/
theorem ensure_bind_eq_ok {cond : Prop} [Decidable cond] {message : String}
    {rest : Except Error Unit} :
    (do ensure cond message; rest) = .ok () ↔ cond ∧ rest = .ok () := by
  unfold ensure
  split
  · rename_i h
    exact ⟨fun h' => ⟨h, h'⟩, fun h' => h'.2⟩
  · rename_i h
    exact ⟨fun h' => (nomatch h'), fun h' => absurd h'.1 h⟩

/-- **What `_validate` accepts** is what `Valid` says, field by field in the order of the checks. -/
theorem validate_eq_ok {inputs : PricingInputs} {rules : CommercialPricingRules} :
    validate inputs rules = .ok () ↔ Valid inputs rules := by
  unfold validate
  simp only [ensure_bind_eq_ok, ensure_eq_ok, Option.all_eq_true, decide_eq_true_eq]
  constructor
  · rintro ⟨h1, h2, h3, ⟨h4, -⟩, ⟨h5, h6⟩, h7, h8, h9, h10, h11⟩
    exact ⟨h1, h2, h3, h4, h5, h6, h7, h8, h9, h10, h11⟩
  · intro h
    exact ⟨h.1, h.2, h.3, ⟨h.4, lt_of_le_of_lt h.5 h.6⟩, ⟨h.5, h.6⟩, h.7, h.8, h.9, h.10, h.11⟩

/-! ## The two prices in closed form -/

section Closed

variable (context : Context)

/-- The total cost, with both of its sums rounded. -/
def roundedCost (inputs : PricingInputs) : Rat :=
  context.fix (context.fix (inputs.landedCost + inputs.marketplaceFees) + inputs.fulfilmentCosts)

/-- The total cost with a margin on it. -/
def withMargin (inputs : PricingInputs) (margin : Rat) : Rat :=
  context.fix (roundedCost context inputs / context.fix (1 - margin))

/-- How many increments a value is rounded up to. -/
def units (value increment : Rat) : Int := ⌈context.fix (value / increment)⌉

/-- The next multiple of the increment. -/
def nextMultiple (value increment : Rat) : Rat :=
  context.fix (units context value increment * increment)

/-- What the floor is rounded up from. -/
def floorValue (inputs : PricingInputs) (rules : CommercialPricingRules) : Rat :=
  max (withMargin context inputs inputs.minimumMargin) rules.minimumPrice

/-- The minimum price of `calculate_price`. -/
def floorPrice (inputs : PricingInputs) (rules : CommercialPricingRules) : Rat :=
  nextMultiple context (floorValue context inputs rules) rules.roundingIncrement

/-- What the recommended price is rounded up from. -/
def saleValue (inputs : PricingInputs) (rules : CommercialPricingRules) : Rat :=
  max (withMargin context inputs inputs.targetMargin) (floorPrice context inputs rules)

/-- The recommended price of `calculate_price`. -/
def salePrice (inputs : PricingInputs) (rules : CommercialPricingRules) : Rat :=
  nextMultiple context (saleValue context inputs rules) rules.roundingIncrement

/-- `x` in percent of `y`, in the arithmetic of the context. -/
def percentOf (x y : Rat) : Rat := context.fix (context.fix (x / y) * 100)

/-- What a price leaves above the total cost. -/
def contributionOf (inputs : PricingInputs) (price : Rat) : Rat :=
  context.fix (price - roundedCost context inputs)

/-- The return on the landed cost. -/
def returnOn (inputs : PricingInputs) (price : Rat) : Option Rat :=
  if 0 < inputs.landedCost then
    some (percentOf context (contributionOf context inputs price) inputs.landedCost)
  else none

/-- How far `price` is from the current one, in percent. -/
def changeFrom (current price : Rat) : Rat :=
  percentOf context (context.fix (price - current)) current

/-- How far `price` is from the current one of the inputs, if there is one. -/
def changeTo (inputs : PricingInputs) (price : Rat) : Option Rat :=
  inputs.currentSellingPrice.map fun current => changeFrom context current price

end Closed

/-! ## The operations, one by one -/

/-- A sequence returns what its second part makes of the result of the first. -/
theorem bind_eq_ok {α β : Type} {x : Except Error α} {f : α → Except Error β} {b : β} :
    (x >>= f) = .ok b ↔ ∃ a, x = .ok a ∧ f a = .ok b := by
  cases x with
  | error e =>
    constructor
    · intro h
      cases h
    · rintro ⟨_, h, -⟩
      cases h
  | ok a =>
    constructor
    · exact fun h => ⟨a, rfl, h⟩
    · rintro ⟨_, ⟨⟩, h⟩
      exact h

/-- What the operations raise: the exception of a signal, never a validation error. -/
def Signals {α : Type} (x : Except Error α) : Prop := ∀ e, x = .error e → ∃ s, e = .ofSignal s

/-- A value that is returned is no error. -/
theorem signals_pure {α : Type} (a : α) : Signals (pure a) := by
  intro e h
  cases h

/-- A sequence of operations raises what one of them does. -/
theorem signals_bind {α β : Type} {x : Except Error α} {f : α → Except Error β}
    (hx : Signals x) (hf : ∀ a, Signals (f a)) : Signals (x >>= f) := by
  intro e h
  cases x with
  | error e' =>
    cases h
    exact hx e rfl
  | ok a => exact hf a e h

/-- An operation on a value that may be absent raises what the operation does. -/
theorem signals_mapM {α β : Type} {x : Option α} {f : α → Except Error β}
    (hf : ∀ a, Signals (f a)) : Signals (x.mapM f) := by
  cases x with
  | none => exact signals_pure none
  | some a => exact signals_bind (hf a) fun b => signals_pure (some b)

section Operations

variable {context : Context}

/-- Every operation of the model is one of the context with its signal translated, so all of them
    raise signals only. -/
theorem signals_mapError {α : Type} (x : Except Decimals.Signal α) :
    Signals (x.mapError Error.ofSignal) := by
  intro e h
  cases x with
  | error s =>
    cases h
    exact ⟨s, rfl⟩
  | ok a => cases h

/-- The translation of the signals leaves results alone. -/
theorem mapError_eq_ok {α : Type} {x : Except Decimals.Signal α} {a : α} :
    x.mapError Error.ofSignal = .ok a ↔ x = .ok a := by
  cases x with
  | error s =>
    constructor
    · intro h
      cases h
    · intro h
      cases h
  | ok b =>
    constructor
    · rintro ⟨⟩
      rfl
    · rintro ⟨⟩
      rfl

/-- When the rounding of a result succeeds, and what it gives. -/
theorem round_eq_ok {x y : Rat} :
    round context x = .ok y ↔ context.Holds x ∧ context.fix x = y :=
  mapError_eq_ok.trans Context.round_eq_ok

/-- A quotient that succeeds is that of numbers the context holds, with a divisor other than zero.
    -/
theorem divide_eq_ok {x y z : Rat} : divide context x y = .ok z ↔
    y ≠ 0 ∧ context.Holds (x / y) ∧ context.fix (x / y) = z := by
  unfold divide
  rw [mapError_eq_ok]
  by_cases hy : y = 0
  · constructor
    · intro h
      unfold Context.divide at h
      rw [if_pos hy] at h
      cases h
    · rintro ⟨h, -⟩
      exact absurd hy h
  · rw [Context.divide_of_ne_zero hy, Context.round_eq_ok]
    exact ⟨fun h => ⟨hy, h⟩, fun h => h.2⟩

/-- When a percentage succeeds: the quotient does, and so does its product with a hundred. -/
theorem percentage_eq_ok {x y z : Rat} : percentage context x y = .ok z ↔
    y ≠ 0 ∧ context.Holds (x / y) ∧ context.Holds (context.fix (x / y) * 100) ∧
      percentOf context x y = z := by
  unfold percentage
  rw [bind_eq_ok]
  simp only [divide_eq_ok, round_eq_ok]
  constructor
  · rintro ⟨_, ⟨hy, hquotient, rfl⟩, hpercent, rfl⟩
    exact ⟨hy, hquotient, hpercent, rfl⟩
  · rintro ⟨hy, hquotient, hpercent, rfl⟩
    exact ⟨_, ⟨hy, hquotient, rfl⟩, hpercent, rfl⟩

/-- When a rounding up succeeds: the quotient by the increment does, and so does the product of the
    increment with the units. -/
theorem roundUp_eq_ok {value increment z : Rat} : roundUp context value increment = .ok z ↔
    increment ≠ 0 ∧ context.Holds (value / increment) ∧
      context.Holds (units context value increment * increment) ∧
      nextMultiple context value increment = z := by
  unfold roundUp
  rw [bind_eq_ok]
  simp only [divide_eq_ok, round_eq_ok]
  constructor
  · rintro ⟨_, ⟨hincrement, hunits, rfl⟩, hproduct, rfl⟩
    exact ⟨hincrement, hunits, hproduct, rfl⟩
  · rintro ⟨hincrement, hunits, hproduct, rfl⟩
    exact ⟨_, ⟨hincrement, hunits, rfl⟩, hproduct, rfl⟩

/-! ## No operation up to the prices raises a signal -/

/-- The exact results that are rounded on the way to the two prices, in the order of the operations.
    -/
def priceResults (context : Context) (inputs : PricingInputs) (rules : CommercialPricingRules) :
    List Rat :=
  let increment := rules.roundingIncrement
  [inputs.landedCost + inputs.marketplaceFees,
    context.fix (inputs.landedCost + inputs.marketplaceFees) + inputs.fulfilmentCosts,
    1 - inputs.minimumMargin,
    roundedCost context inputs / context.fix (1 - inputs.minimumMargin),
    1 - inputs.targetMargin,
    roundedCost context inputs / context.fix (1 - inputs.targetMargin),
    floorValue context inputs rules / increment,
    units context (floorValue context inputs rules) increment * increment,
    saleValue context inputs rules / increment,
    units context (saleValue context inputs rules) increment * increment]

/-- The prices come out: a margin leaves something of one after rounding, and nothing overflows. -/
structure Priced (context : Context) (inputs : PricingInputs)
    (rules : CommercialPricingRules) : Prop where
  /-- what the minimum margin leaves is divided by -/
  minimumLeft : context.fix (1 - inputs.minimumMargin) ≠ 0
  /-- and so is what the target margin leaves -/
  targetLeft : context.fix (1 - inputs.targetMargin) ≠ 0
  /-- no result on the way overflows -/
  holds : ∀ x ∈ priceResults context inputs rules, context.Holds x

/-- When the total cost succeeds: both of its sums do. -/
theorem totalCost_eq_ok {inputs : PricingInputs} {total : Rat} :
    totalCost context inputs = .ok total ↔
      context.Holds (inputs.landedCost + inputs.marketplaceFees) ∧
        context.Holds (context.fix (inputs.landedCost + inputs.marketplaceFees) +
          inputs.fulfilmentCosts) ∧ roundedCost context inputs = total := by
  unfold totalCost
  rw [bind_eq_ok]
  simp only [round_eq_ok]
  constructor
  · rintro ⟨_, ⟨hsum, rfl⟩, htotal, rfl⟩
    exact ⟨hsum, htotal, rfl⟩
  · rintro ⟨hsum, htotal, rfl⟩
    exact ⟨_, ⟨hsum, rfl⟩, htotal, rfl⟩

/-- What the two prices are, and when there are any.  By the operations one after the other; the
    conditions they collect are the list of `priceResults` and the two divisors. -/
theorem prices_eq_ok {inputs : PricingInputs} {rules : CommercialPricingRules}
    (hincrement : 0 < rules.roundingIncrement) {result : Rat × Rat} :
    prices context inputs rules = .ok result ↔ Priced context inputs rules ∧
      (floorPrice context inputs rules, salePrice context inputs rules) = result := by
  unfold prices pricesFor
  simp only [bind_eq_ok, totalCost_eq_ok, round_eq_ok, divide_eq_ok, roundUp_eq_ok]
  constructor
  · rintro ⟨_, ⟨h1, h2, rfl⟩, _, ⟨h3, rfl⟩, _, ⟨hminimum, h4, rfl⟩, _, ⟨h5, rfl⟩, _,
      ⟨htarget, h6, rfl⟩, _, ⟨-, h7, h8, rfl⟩, _, ⟨-, h9, h10, rfl⟩, ⟨⟩⟩
    refine ⟨⟨hminimum, htarget, ?_⟩, rfl⟩
    simp only [priceResults, List.forall_mem_cons]
    exact ⟨h1, h2, h3, h4, h5, h6, h7, h8, h9, h10, by simp⟩
  · rintro ⟨⟨hminimum, htarget, hholds⟩, rfl⟩
    simp only [priceResults, List.forall_mem_cons] at hholds
    obtain ⟨h1, h2, h3, h4, h5, h6, h7, h8, h9, h10, -⟩ := hholds
    exact ⟨_, ⟨h1, h2, rfl⟩, _, ⟨h3, rfl⟩, _, ⟨hminimum, h4, rfl⟩, _, ⟨h5, rfl⟩, _,
      ⟨htarget, h6, rfl⟩, _, ⟨hincrement.ne', h7, h8, rfl⟩, _, ⟨hincrement.ne', h9, h10, rfl⟩, rfl⟩

/-! ## The figures of a price -/

/-- `quantize` has room for `x`. -/
def Quantizes (context : Context) (x : Rat) : Prop :=
  ∀ l ∈ context.limits, (roundHalfEven (x * 10 ^ 4)).natAbs < 10 ^ l.digits ∧
    l.etiny ≤ -(4 : Nat) ∧ Int.log 10 |toPlaces 4 x| ≤ l.emax

/-- When the rounding to four decimals succeeds, and what it gives. -/
theorem quantize_eq_ok {x y : Rat} :
    quantize context x = .ok y ↔ Quantizes context x ∧ toPlaces 4 x = y := by
  have hroom : (context.limits.all fun l => decide
      ((roundHalfEven (x * 10 ^ 4)).natAbs < 10 ^ l.digits ∧ l.etiny ≤ -((4 : Nat) : Int) ∧
        Int.log 10 |toPlaces 4 x| ≤ l.emax)) = true ↔ Quantizes context x := by
    rw [Option.all_eq_true]
    exact forall₂_congr fun _ _ => decide_eq_true_iff
  unfold quantize Context.quantize
  rw [mapError_eq_ok]
  dsimp only
  split
  · rename_i h
    constructor
    · rintro ⟨⟩
      exact ⟨hroom.mp h, rfl⟩
    · rintro ⟨-, rfl⟩
      rfl
  · rename_i h
    constructor
    · intro h'
      cases h'
    · intro h'
      exact absurd (hroom.mpr h'.1) h

/-- Quantizing a figure that may be absent succeeds where quantizing it does. -/
theorem mapM_quantize_eq_ok {x y : Option Rat} :
    x.mapM (quantize context) = .ok y ↔
      (∀ figure ∈ x, Quantizes context figure) ∧ x.map (toPlaces 4) = y := by
  cases x with
  | none =>
    constructor
    · rintro ⟨⟩
      exact ⟨by rintro _ ⟨⟩, rfl⟩
    · rintro ⟨-, rfl⟩
      rfl
  | some x =>
    have hstep : (some x).mapM (quantize context) = (quantize context x >>= fun y =>
      pure (some y)) := rfl
    rw [hstep, bind_eq_ok]
    simp only [quantize_eq_ok]
    constructor
    · rintro ⟨_, ⟨hx, rfl⟩, ⟨⟩⟩
      refine ⟨?_, rfl⟩
      rintro _ ⟨⟩
      exact hx
    · rintro ⟨hx, rfl⟩
      exact ⟨_, ⟨hx x rfl, rfl⟩, rfl⟩

/-- The exact results that are rounded to make the figures of a price.  Without a landed cost or a
    current price theirs are quotients by zero, which are zero here. -/
def figureResults (context : Context) (inputs : PricingInputs) (price : Rat) : List Rat :=
  let contribution := contributionOf context inputs price
  [price - inputs.landedCost, price - roundedCost context inputs,
    contribution / price, context.fix (contribution / price) * 100,
    contribution / inputs.landedCost, context.fix (contribution / inputs.landedCost) * 100]

/-- Those that make the change from a current price. -/
def changeResults (context : Context) (current price : Rat) : List Rat :=
  [price - current, context.fix (price - current) / current,
    context.fix (context.fix (price - current) / current) * 100]

/-- The figures that are rounded to four decimals, when the price is `price`. -/
def figures (context : Context) (inputs : PricingInputs) (rules : CommercialPricingRules)
    (price : Rat) : List Rat :=
  let contribution := contributionOf context inputs price
  [context.fix (price - inputs.landedCost), contribution, percentOf context contribution price] ++
    (returnOn context inputs price).toList ++ [floorPrice context inputs rules, price] ++
    (changeTo context inputs price).toList

/-- The figures come out: the price divides, and nothing overflows or has too many digits. -/
structure Figured (context : Context) (inputs : PricingInputs)
    (rules : CommercialPricingRules) (price : Rat) : Prop where
  /-- the margin is a quotient by the price -/
  ne_zero : price ≠ 0
  /-- no result on the way overflows -/
  holds : ∀ x ∈ figureResults context inputs price, context.Holds x
  /-- nor one for the change from a current price -/
  change : ∀ current ∈ inputs.currentSellingPrice,
    ∀ x ∈ changeResults context current price, context.Holds x
  /-- and every figure has room for its four decimals -/
  quantizes : ∀ x ∈ figures context inputs rules price, Quantizes context x

/-- The result when `price` is recommended. -/
def calculation (context : Context) (inputs : PricingInputs) (rules : CommercialPricingRules)
    (price : Rat) : PricingCalculation :=
  let contribution := contributionOf context inputs price
  { grossProfit := toPlaces 4 (context.fix (price - inputs.landedCost))
    contributionProfit := toPlaces 4 contribution
    marginPercentage := toPlaces 4 (percentOf context contribution price)
    roiPercentage := (returnOn context inputs price).map (toPlaces 4)
    minimumSellingPrice := toPlaces 4 (floorPrice context inputs rules)
    recommendedSellingPrice := toPlaces 4 price
    priceChangePercentage := (changeTo context inputs price).map (toPlaces 4)
    withinAutomaticBoundary := (changeTo context inputs price).all fun change =>
      |change| < rules.maximumAutomaticChangePercent }

/-- When the return succeeds.  Without a landed cost nothing is computed; the conditions are then
    about quotients by zero, which are zero and never too large. -/
theorem roiPercentage_eq_ok {inputs : PricingInputs} (h : 0 ≤ inputs.landedCost) {price : Rat}
    {roi : Option Rat} :
    roiPercentage context inputs (contributionOf context inputs price) = .ok roi ↔
      context.Holds (contributionOf context inputs price / inputs.landedCost) ∧
        context.Holds (context.fix
          (contributionOf context inputs price / inputs.landedCost) * 100) ∧
        returnOn context inputs price = roi := by
  unfold roiPercentage returnOn
  split
  · rename_i hlanded
    have hmap : ∀ x : Except Error Rat, (some <$> x) = (x >>= fun y => pure (some y)) := by
      intro x
      cases x <;> rfl
    rw [hmap, bind_eq_ok]
    simp only [percentage_eq_ok]
    constructor
    · rintro ⟨_, ⟨-, h1, h2, rfl⟩, ⟨⟩⟩
      exact ⟨h1, h2, rfl⟩
    · rintro ⟨h1, h2, rfl⟩
      exact ⟨_, ⟨hlanded.ne', h1, h2, rfl⟩, rfl⟩
  · rename_i hlanded
    have hzero : inputs.landedCost = 0 := le_antisymm (not_lt.mp hlanded) h
    have hholds : context.Holds 0 := by
      intro l _
      rw [Context.fix_zero, abs_zero, Int.log_zero_right]
      exact l.emax_nonneg
    rw [hzero, div_zero, Context.fix_zero, zero_mul]
    constructor
    · rintro ⟨⟩
      exact ⟨hholds, hholds, rfl⟩
    · rintro ⟨-, -, rfl⟩
      rfl

/-- When the price change succeeds; without a current price nothing is computed. -/
theorem priceChange_eq_ok {inputs : PricingInputs}
    (h : ∀ current ∈ inputs.currentSellingPrice, 0 < current) {price : Rat}
    {change : Option Rat} :
    priceChange context inputs price = .ok change ↔
      (∀ current ∈ inputs.currentSellingPrice,
        ∀ x ∈ changeResults context current price, context.Holds x) ∧
      changeTo context inputs price = change := by
  unfold priceChange changeTo
  cases hcurrent : inputs.currentSellingPrice with
  | none =>
    constructor
    · rintro ⟨⟩
      exact ⟨by rintro _ ⟨⟩, rfl⟩
    · rintro ⟨-, rfl⟩
      rfl
  | some current =>
    have hpos := h current hcurrent
    have hstep : (some current).mapM (fun current => (do
        let change ← round context (price - current)
        percentage context change current : Except Error Rat)) =
      ((do
        let change ← round context (price - current)
        percentage context change current : Except Error Rat) >>= fun y => pure (some y)) := rfl
    rw [hstep]
    simp only [bind_eq_ok, round_eq_ok, percentage_eq_ok, changeResults]
    constructor
    · rintro ⟨_, ⟨_, ⟨h1, rfl⟩, -, h2, h3, rfl⟩, ⟨⟩⟩
      refine ⟨?_, rfl⟩
      rintro _ ⟨⟩
      simp only [List.forall_mem_cons]
      exact ⟨h1, h2, h3, by simp⟩
    · rintro ⟨hall, rfl⟩
      have hthis := hall current rfl
      simp only [List.forall_mem_cons] at hthis
      obtain ⟨h1, h2, h3, -⟩ := hthis
      exact ⟨_, ⟨_, ⟨h1, rfl⟩, hpos.ne', h2, h3, rfl⟩, rfl⟩

end Operations

/-! ## The whole calculation -/

/-- The recommended price is above the maximum. -/
def Exceeds (rules : CommercialPricingRules) (price : Rat) : Prop :=
  ∃ maximum ∈ rules.maximumPrice, maximum < price

/-- The comparison with the maximum passes unless the price exceeds it. -/
theorem all_le_iff_not_exceeds {rules : CommercialPricingRules} {price : Rat} :
    (rules.maximumPrice.all fun maximum => price ≤ maximum) = true ↔ ¬ Exceeds rules price := by
  unfold Exceeds
  rw [Option.all_eq_true]
  simp

section Calculation

variable {context : Context}

/-- The roundings at the end succeed exactly when there is room for all figures. -/
theorem finish_eq_ok {gross contribution margin minimum price : Rat} {roi change : Option Rat}
    {within : Bool} {r : PricingCalculation} :
    finish context gross contribution margin roi minimum price change within = .ok r ↔
      (∀ x ∈ [gross, contribution, margin] ++ roi.toList ++ [minimum, price] ++ change.toList,
        Quantizes context x) ∧
      { grossProfit := toPlaces 4 gross
        contributionProfit := toPlaces 4 contribution
        marginPercentage := toPlaces 4 margin
        roiPercentage := roi.map (toPlaces 4)
        minimumSellingPrice := toPlaces 4 minimum
        recommendedSellingPrice := toPlaces 4 price
        priceChangePercentage := change.map (toPlaces 4)
        withinAutomaticBoundary := within } = r := by
  have hall : (∀ x ∈ [gross, contribution, margin] ++ roi.toList ++ [minimum, price] ++
        change.toList, Quantizes context x) ↔
      Quantizes context gross ∧ Quantizes context contribution ∧ Quantizes context margin ∧
        (∀ x ∈ roi, Quantizes context x) ∧ Quantizes context minimum ∧ Quantizes context price ∧
        ∀ x ∈ change, Quantizes context x := by
    simp only [List.forall_mem_append, List.forall_mem_cons, List.not_mem_nil, false_imp_iff,
      implies_true, and_true, Option.mem_toList]
    tauto
  rw [hall]
  unfold finish
  simp only [bind_eq_ok, quantize_eq_ok, mapM_quantize_eq_ok]
  constructor
  · rintro ⟨_, ⟨h1, rfl⟩, _, ⟨h2, rfl⟩, _, ⟨h3, rfl⟩, _, ⟨h4, rfl⟩, _, ⟨h5, rfl⟩, _, ⟨h6, rfl⟩, _,
      ⟨h7, rfl⟩, ⟨⟩⟩
    exact ⟨⟨h1, h2, h3, h4, h5, h6, h7⟩, rfl⟩
  · rintro ⟨⟨h1, h2, h3, h4, h5, h6, h7⟩, rfl⟩
    exact ⟨_, ⟨h1, rfl⟩, _, ⟨h2, rfl⟩, _, ⟨h3, rfl⟩, _, ⟨h4, rfl⟩, _, ⟨h5, rfl⟩, _, ⟨h6, rfl⟩, _,
      ⟨h7, rfl⟩, rfl⟩

/-- What follows the comparison with the maximum. -/
def figuring (context : Context) (inputs : PricingInputs) (rules : CommercialPricingRules)
    (totalCost minimumPrice recommendedPrice : Rat) : Except Error PricingCalculation := do
  let grossProfit ← round context (recommendedPrice - inputs.landedCost)
  let contributionProfit ← round context (recommendedPrice - totalCost)
  let marginPercentage ← percentage context contributionProfit recommendedPrice
  let roiPercentage ← roiPercentage context inputs contributionProfit
  let priceChange ← priceChange context inputs recommendedPrice
  finish context grossProfit contributionProfit marginPercentage roiPercentage minimumPrice
    recommendedPrice priceChange
    (priceChange.all fun change => |change| < rules.maximumAutomaticChangePercent)

/-- The calculation in three parts: the inputs, the prices, and what follows from them. -/
theorem calculatePrice_eq (inputs : PricingInputs) (rules : CommercialPricingRules) :
    calculatePrice context inputs rules = (do
      validate inputs rules
      let totalCost ← totalCost context inputs
      let prices ← pricesFor context totalCost inputs rules
      ensure (rules.maximumPrice.all fun price => prices.2 ≤ price) maximumPriceMessage
      figuring context inputs rules totalCost prices.1 prices.2) := rfl

/-- When the figures of a price succeed, and what they give. -/
theorem figuring_eq_ok {inputs : PricingInputs} {rules : CommercialPricingRules}
    (h : Valid inputs rules) {price : Rat} {r : PricingCalculation} :
    figuring context inputs rules (roundedCost context inputs) (floorPrice context inputs rules)
        price = .ok r ↔
      Figured context inputs rules price ∧ calculation context inputs rules price = r := by
  have hgross : context.fix (price - roundedCost context inputs) =
    contributionOf context inputs price := rfl
  unfold figuring
  simp only [bind_eq_ok, round_eq_ok, hgross, percentage_eq_ok, finish_eq_ok]
  constructor
  · rintro ⟨_, ⟨h1, rfl⟩, _, ⟨h2, rfl⟩, _, ⟨hprice, h3, h4, rfl⟩, _, hroi, _, hchange, hroom, rfl⟩
    obtain ⟨h5, h6, rfl⟩ := (roiPercentage_eq_ok h.landedCost).mp hroi
    obtain ⟨h7, rfl⟩ := (priceChange_eq_ok h.currentSellingPrice).mp hchange
    refine ⟨⟨hprice, ?_, h7, hroom⟩, rfl⟩
    simp only [figureResults, List.forall_mem_cons]
    exact ⟨h1, h2, h3, h4, h5, h6, by simp⟩
  · rintro ⟨⟨hprice, hholds, h7, hroom⟩, rfl⟩
    simp only [figureResults, List.forall_mem_cons] at hholds
    obtain ⟨h1, h2, h3, h4, h5, h6, -⟩ := hholds
    exact ⟨_, ⟨h1, rfl⟩, _, ⟨h2, rfl⟩, _, ⟨hprice, h3, h4, rfl⟩, _,
      (roiPercentage_eq_ok h.landedCost).mpr ⟨h5, h6, rfl⟩, _,
      (priceChange_eq_ok h.currentSellingPrice).mpr ⟨h7, rfl⟩, hroom, rfl⟩

/-- **The calculation returns** exactly when the inputs are valid, the prices come out, the
    recommended one is within the maximum and its figures come out.  The equivalences of the parts
    are put one after the other; nothing of the calculation is opened again after this. -/
theorem calculatePrice_eq_ok {inputs : PricingInputs} {rules : CommercialPricingRules}
    {r : PricingCalculation} :
    calculatePrice context inputs rules = .ok r ↔
      Valid inputs rules ∧ Priced context inputs rules ∧
        ¬ Exceeds rules (salePrice context inputs rules) ∧
        Figured context inputs rules (salePrice context inputs rules) ∧
        calculation context inputs rules (salePrice context inputs rules) = r := by
  rw [calculatePrice_eq]
  simp only [bind_eq_ok]
  constructor
  · rintro ⟨_, hv, total, htotal, ⟨minimum, price⟩, hprices, _, hmax, hfiguring⟩
    have h := validate_eq_ok.mp hv
    obtain ⟨hpriced, hpair⟩ :=
      (prices_eq_ok h.roundingIncrement).mp (bind_eq_ok.mpr ⟨total, htotal, hprices⟩)
    obtain ⟨-, -, rfl⟩ := totalCost_eq_ok.mp htotal
    cases hpair
    exact ⟨h, hpriced, all_le_iff_not_exceeds.mp (ensure_eq_ok.mp hmax),
      (figuring_eq_ok h).mp hfiguring⟩
  · rintro ⟨h, hpriced, hmax, hfigured⟩
    obtain ⟨total, htotal, hprices⟩ := bind_eq_ok.mp
      ((prices_eq_ok h.roundingIncrement).mpr ⟨hpriced, rfl⟩)
    obtain ⟨-, -, rfl⟩ := totalCost_eq_ok.mp htotal
    exact ⟨(), validate_eq_ok.mpr h, _, htotal, _, hprices, (),
      ensure_eq_ok.mpr (all_le_iff_not_exceeds.mpr hmax), (figuring_eq_ok h).mpr hfigured⟩

/-- A result comes from valid inputs, and is what `calculation` makes of a price that does not
    exceed the maximum. -/
theorem eq_calculation {inputs : PricingInputs} {rules : CommercialPricingRules}
    {r : PricingCalculation} (hr : calculatePrice context inputs rules = .ok r) :
    Valid inputs rules ∧ ¬ Exceeds rules (salePrice context inputs rules) ∧
      r = calculation context inputs rules (salePrice context inputs rules) := by
  obtain ⟨h, -, hmax, -, rfl⟩ := calculatePrice_eq_ok.mp hr
  exact ⟨h, hmax, rfl⟩

/-! ## The calculation refuses -/

/-- A check that fails raises its message. -/
theorem ensure_eq_error {cond : Prop} [Decidable cond] {message : String} (h : ¬ cond) :
    ensure cond message = .error (.raised .pricingValidationError message) := if_neg h

/-- A price above the maximum is refused with the message about it. -/
theorem calculatePrice_eq_exceeds {inputs : PricingInputs} {rules : CommercialPricingRules}
    (h : Valid inputs rules) (hpriced : Priced context inputs rules)
    (hmax : Exceeds rules (salePrice context inputs rules)) :
    calculatePrice context inputs rules =
      .error (.raised .pricingValidationError maximumPriceMessage) := by
  obtain ⟨total, htotal, hprices⟩ := bind_eq_ok.mp
    ((prices_eq_ok h.roundingIncrement).mpr ⟨hpriced, rfl⟩)
  rw [calculatePrice_eq, validate_eq_ok.mpr h, htotal]
  show (pricesFor context total inputs rules >>= _) = _
  rw [hprices]
  show (ensure _ _ >>= _) = _
  rw [ensure_eq_error fun h' => all_le_iff_not_exceeds.mp h' hmax]
  rfl

/-- The rounding to four decimals raises signals only. -/
theorem signals_quantize (x : Rat) : Signals (quantize context x) := signals_mapError _

/-- The rounding of a result raises signals of the arithmetic only. -/
theorem signals_round (x : Rat) : Signals (round context x) := signals_mapError _

/-- A quotient raises signals of the arithmetic only. -/
theorem signals_divide (x y : Rat) : Signals (divide context x y) := signals_mapError _

/-- A percentage is two such operations. -/
theorem signals_percentage (x y : Rat) : Signals (percentage context x y) :=
  signals_bind (signals_divide x y) fun _ => signals_round _

/-- Rounding up to an increment raises signals of the arithmetic only. -/
theorem signals_roundUp (x y : Rat) : Signals (roundUp context x y) :=
  signals_bind (signals_divide x y) fun _ => signals_round _

/-- No validation error is raised on the way to the prices. -/
theorem signals_prices (inputs : PricingInputs) (rules : CommercialPricingRules) :
    Signals (prices context inputs rules) := by
  refine signals_bind ?_ fun total => ?_
  · exact signals_bind (signals_round _) fun _ => signals_round _
  · exact signals_bind (signals_round _) fun _ => signals_bind (signals_divide _ _) fun _ =>
      signals_bind (signals_round _) fun _ => signals_bind (signals_divide _ _) fun _ =>
      signals_bind (signals_roundUp _ _) fun _ => signals_bind (signals_roundUp _ _) fun _ =>
      signals_pure _

/-- The return raises signals only, whether or not there is a landed cost. -/
theorem signals_roiPercentage (inputs : PricingInputs) (contribution : Rat) :
    Signals (roiPercentage context inputs contribution) := by
  unfold roiPercentage
  split
  · have hmap : (some <$> percentage context contribution inputs.landedCost) =
        (percentage context contribution inputs.landedCost >>= fun y => pure (some y)) := by
      cases percentage context contribution inputs.landedCost <;> rfl
    rw [hmap]
    exact signals_bind (signals_percentage _ _) fun _ => signals_pure _
  · exact signals_pure none

/-- The figures of a price raise signals of the arithmetic only.  A validation error therefore comes
    from `_validate` or from the maximum. -/
theorem signals_figuring (inputs : PricingInputs) (rules : CommercialPricingRules)
    (total minimum price : Rat) : Signals (figuring context inputs rules total minimum price) :=
  signals_bind (signals_round _) fun _ => signals_bind (signals_round _) fun _ =>
    signals_bind (signals_percentage _ _) fun _ =>
    signals_bind (signals_roiPercentage _ _) fun _ =>
    signals_bind (signals_mapM fun _ => signals_bind (signals_round _) fun _ =>
      signals_percentage _ _) fun _ =>
    signals_bind (signals_quantize _) fun _ => signals_bind (signals_quantize _) fun _ =>
    signals_bind (signals_quantize _) fun _ =>
    signals_bind (signals_mapM signals_quantize) fun _ =>
    signals_bind (signals_quantize _) fun _ => signals_bind (signals_quantize _) fun _ =>
    signals_bind (signals_mapM signals_quantize) fun _ => signals_pure _

/-- The exception of a signal is no exception of the source. -/
theorem ofSignal_ne_raised {s : Signal} {type : ExceptionType} {message : String} :
    Error.ofSignal s ≠ .raised type message := by
  cases s <;> simp [Error.ofSignal]

/-- Valid inputs get a price or are refused exactly when the prices come out and either the price is
    above the maximum or its figures come out.  Every other end is the signal of an operation. -/
theorem ends_iff {inputs : PricingInputs} {rules : CommercialPricingRules}
    (h : Valid inputs rules) :
    ((∃ r, calculatePrice context inputs rules = .ok r) ∨
      ∃ message, calculatePrice context inputs rules =
        .error (.raised .pricingValidationError message)) ↔
    Priced context inputs rules ∧ (Exceeds rules (salePrice context inputs rules) ∨
      Figured context inputs rules (salePrice context inputs rules)) := by
  constructor
  · rintro (⟨r, hr⟩ | ⟨message, hr⟩)
    · obtain ⟨-, hpriced, -, hfigured, -⟩ := calculatePrice_eq_ok.mp hr
      exact ⟨hpriced, .inr hfigured⟩
    · rw [calculatePrice_eq, validate_eq_ok.mpr h] at hr
      cases hprices : prices context inputs rules with
      | error e =>
        -- the signal of an operation is what is raised
        obtain ⟨s, rfl⟩ := signals_prices inputs rules e hprices
        unfold prices at hprices
        cases htotal : totalCost context inputs with
        | error e =>
          rw [htotal] at hprices hr
          cases hprices
          exact absurd (Except.error.inj hr) ofSignal_ne_raised
        | ok total =>
          rw [htotal] at hprices hr
          replace hprices : pricesFor context total inputs rules = .error (.ofSignal s) := hprices
          replace hr : (pricesFor context total inputs rules >>= _) = _ := hr
          rw [hprices] at hr
          exact absurd (Except.error.inj hr) ofSignal_ne_raised
      | ok pair =>
        obtain ⟨hpriced, hpair⟩ := (prices_eq_ok h.roundingIncrement).mp hprices
        refine ⟨hpriced, .inl ?_⟩
        by_contra hmax
        obtain ⟨total, htotal, hpricesFor⟩ := bind_eq_ok.mp hprices
        rw [htotal] at hr
        replace hr : (pricesFor context total inputs rules >>= _) = _ := hr
        rw [hpricesFor, ← hpair] at hr
        replace hr : (ensure _ _ >>= _) = _ := hr
        rw [ensure_eq_ok.mpr (all_le_iff_not_exceeds.mpr hmax)] at hr
        obtain ⟨s, hs⟩ := signals_figuring inputs rules total _ _ _ hr
        exact ofSignal_ne_raised hs.symm
  · rintro ⟨hpriced, hmax | hfigured⟩
    · exact .inr ⟨_, calculatePrice_eq_exceeds h hpriced hmax⟩
    · by_cases hmax : Exceeds rules (salePrice context inputs rules)
      · exact .inr ⟨_, calculatePrice_eq_exceeds h hpriced hmax⟩
      · exact .inl ⟨_, calculatePrice_eq_ok.mpr ⟨h, hpriced, hmax, hfigured, rfl⟩⟩

end Calculation

end Pricing

end CommerceOperations
