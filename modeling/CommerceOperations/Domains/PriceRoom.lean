/-
  When a price comes out, in the inputs and the rules alone.

  The conditions are about multiples of the increment: one that covers the costs and the minimum,
  and leaves the figures below the limits.  They are exact arithmetic on what the caller passes; no
  value that the calculation makes on its way occurs in them.  The calculation rounds to 28 digits
  at every step, so a condition is stated with a factor `s` on the bounds, and there are two
  theorems: with a factor just above one the condition is sufficient, with its reciprocal it is
  necessary.  The factor is one part in ten to the 25th, and between the two only the digits
  decide.

  The crux is the return on the landed cost.  It is a quotient of a difference, and a difference
  of near numbers has no relative error bound; but the condition compares the difference with a
  share of the landed cost, and that share is a bound which one rounding can be charged to.
-/
import CommerceOperations.Domains.PriceFigures

namespace CommerceOperations

namespace Pricing

open Decimals

/-! ## Multiples of the increment -/

/-- The room that the roundings need: one part in ten to the 25th. -/
def slack : Rat := 1 + 1 / 10 ^ 25

/-- A number of at most 28 digits. -/
def Written (x : Rat) : Prop := defaultContext.fix x = x

instance (x : Rat) : Decidable (Written x) := inferInstanceAs (Decidable (_ = _))

/-- `n` increments cover the costs with the target margin and the minimum price, both times `s`.
    The floor margin is not above the target margin, so it asks for nothing more. -/
structure Covers (inputs : PricingInputs) (rules : CommercialPricingRules) (s : Rat)
    (n : Int) : Prop where
  /-- the price keeps the target margin -/
  costs : s * cost inputs ≤ n * rules.roundingIncrement * (1 - inputs.targetMargin)
  /-- and the commercial minimum -/
  minimum : s * rules.minimumPrice ≤ n * rules.roundingIncrement

/-- The increments that a price of `n` of them may have: one more where the multiple is not a
    number of 28 digits, since the floor is rounded up twice. -/
def reach (increment : Rat) (n : Int) : Int :=
  if Written n ∧ Written (n * increment) then n else n + 1

/-- A price, times `s`, is below `amount`, and its return on the landed cost and the change from
    the current price, in percent, are below `percent`. -/
structure Below (inputs : PricingInputs) (amount percent s price : Rat) : Prop where
  /-- the price has room as an amount -/
  amounts : s * price < amount
  /-- the return has room as a percentage -/
  returned : 0 < inputs.landedCost →
    s * (s * price - cost inputs) * 100 < percent * inputs.landedCost
  /-- and so has the change, on the side on which it can be large -/
  changed : ∀ current ∈ inputs.currentSellingPrice,
    s * (s * price - current) * 100 < percent * current

section Numbers

/-- A dozen roundings are well within the slack. -/
theorem unit_pow_lt_slack : (1 + defaultLimits.unit) ^ 12 < slack := by
  rw [unit_default]
  unfold slack
  norm_num

/-- The slack is more than nothing. -/
theorem one_lt_slack : 1 < slack := by
  unfold slack
  norm_num

/-- Up to a dozen roundings are at most a dozen. -/
theorem unit_pow_le {k : ℕ} (hk : k ≤ 12) :
    (1 + defaultLimits.unit) ^ k ≤ (1 + defaultLimits.unit) ^ 12 :=
  pow_le_pow_right₀ (by linarith [defaultLimits.unit_pos]) hk

/-- A few roundings of 28 digits are within the slack. -/
theorem unit_pow_lt {k : ℕ} (hk : k ≤ 12) : (1 + defaultLimits.unit) ^ k < slack :=
  lt_of_le_of_lt (unit_pow_le hk) unit_pow_lt_slack

end Numbers

section Prices

variable {inputs : PricingInputs} {rules : CommercialPricingRules} {n : Int}

/-- What covers the costs with their margin covers the costs. -/
theorem Covers.cost_le (hc : Covers inputs rules slack n) (h : Valid inputs rules)
    (hn : 0 ≤ (n : Rat) * rules.roundingIncrement) :
    slack * cost inputs ≤ n * rules.roundingIncrement := by
  have hmargin := h.minimumMargin.trans h.minimumMargin_le
  refine hc.costs.trans (mul_le_of_le_one_right hn ?_)
  linarith

/-- A multiple that covers the minimum price is not negative. -/
theorem Covers.nonneg (hc : Covers inputs rules slack n) (h : Valid inputs rules) :
    0 ≤ (n : Rat) * rules.roundingIncrement :=
  le_trans (mul_nonneg (by linarith [one_lt_slack]) h.minimumPrice) hc.minimum

/-- Both bounds on the price, times the slack, are at most a multiple that covers them. -/
theorem Covers.bounds_le (hc : Covers inputs rules slack n) (h : Valid inputs rules) :
    slack * targetBound inputs ≤ n * rules.roundingIncrement ∧
      slack * floorBound inputs rules ≤ n * rules.roundingIncrement := by
  have hslack := one_lt_slack
  have htarget := h.targetMargin_lt
  have hmargin := h.minimumMargin_le
  have hcost := cost_nonneg h
  have hbound : slack * targetBound inputs ≤ n * rules.roundingIncrement := by
    unfold targetBound
    rw [← mul_div_assoc, div_le_iff₀ (by linarith)]
    exact hc.costs
  have hle : cost inputs / (1 - inputs.minimumMargin) ≤ targetBound inputs :=
    div_le_div_of_nonneg_left hcost (by linarith) (by linarith)
  refine ⟨hbound, ?_⟩
  unfold floorBound
  rw [mul_max_of_nonneg _ _ (by linarith)]
  exact max_le (le_trans (by gcongr) hbound) hc.minimum

/-- Some roundings of a number, within the slack of it. -/
theorem mul_unit_pow_le {x y : Rat} {k : ℕ} (hx : 0 ≤ x) (hk : k ≤ 12) (h : slack * x ≤ y) :
    x * (1 + defaultLimits.unit) ^ k ≤ y := by
  have hpow := (unit_pow_lt hk).le
  calc x * (1 + defaultLimits.unit) ^ k ≤ x * slack := by gcongr
    _ = slack * x := mul_comm _ _
    _ ≤ y := h

/-- A multiple is rounded up by one rounding at most. -/
theorem fix_multiple_le (ho : Ordinary inputs rules) (h : Valid inputs rules) (hn : 0 ≤ n) :
    defaultContext.fix (n * rules.roundingIncrement) ≤
      n * rules.roundingIncrement * (1 + defaultLimits.unit) := by
  rcases Int.lt_or_eq_of_le hn with hpos | hzero
  · have hone : (1 : Rat) ≤ n := by exact_mod_cast hpos
    have hle : rules.roundingIncrement ≤ n * rules.roundingIncrement :=
      le_mul_of_one_le_left h.roundingIncrement.le hone
    have hemin : (10 : Rat) ^ defaultLimits.emin ≤ 10 ^ (-span) := by
      have hspan : span = 300000 := rfl
      have := emin_default
      exact zpow_le_zpow_right₀ (by norm_num) (by omega)
    have hnear := Context.near_fix limits_default
      (hemin.trans ((ho.roundingIncrement.zpow_le h.roundingIncrement).trans hle))
    rw [Near, pow_one] at hnear
    exact hnear.1
  · rw [← hzero, Int.cast_zero, zero_mul, Context.fix_zero, zero_mul]

/-- A multiple that covers the bounds with slack is not exceeded by the floor. -/
theorem floorUnits_le (h : Valid inputs rules) (ho : Ordinary inputs rules)
    (hc : Covers inputs rules slack n) :
    units defaultContext (floorValue defaultContext inputs rules) rules.roundingIncrement ≤ n := by
  have hunit := defaultLimits.unit_pos
  have hfloorBound : 0 ≤ floorBound inputs rules := h.minimumPrice.trans (le_max_right _ _)
  refine units_le (sized_floorValue h ho) ho.roundingIncrement h.roundingIncrement ?_
  calc floorValue defaultContext inputs rules * (1 + defaultLimits.unit)
      ≤ floorBound inputs rules * (1 + defaultLimits.unit) ^ 4 * (1 + defaultLimits.unit) := by
        have := (near_floorValue h ho).1
        gcongr
    _ = floorBound inputs rules * (1 + defaultLimits.unit) ^ 5 := by ring
    _ ≤ n * rules.roundingIncrement := mul_unit_pow_le hfloorBound (by omega) (hc.bounds_le h).2

/-- **An upper bound.**  A multiple that covers the bounds with slack bounds both prices, as it is
    if it has 28 digits, and otherwise with one increment more and three roundings.  The floor takes
    at most `n` units.  It is then a number a rounding away from a multiple; the price is rounded up
    from there, and goes to the next unit only where that rounding went up. -/
theorem prices_le (h : Valid inputs rules) (ho : Ordinary inputs rules)
    (hc : Covers inputs rules slack n) :
    floorPrice defaultContext inputs rules ≤ reach rules.roundingIncrement n *
        rules.roundingIncrement * (1 + defaultLimits.unit) ^ 3 ∧
      salePrice defaultContext inputs rules ≤ reach rules.roundingIncrement n *
        rules.roundingIncrement * (1 + defaultLimits.unit) ^ 3 := by
  have hincrement := h.roundingIncrement
  have hunit := defaultLimits.unit_pos
  have hn : 0 ≤ n := by
    have := hc.nonneg h
    exact_mod_cast nonneg_of_mul_nonneg_left this hincrement
  have hcubed : (1 : Rat) ≤ (1 + defaultLimits.unit) ^ 3 := one_le_pow₀ (by linarith)
  have htarget := (hc.bounds_le h).1
  have htargetBound : 0 ≤ targetBound inputs :=
    div_nonneg (cost_nonneg h) (by linarith [h.targetMargin_lt])
  have hfloorUnits := floorUnits_le h ho hc
  have hfloorPrice : floorPrice defaultContext inputs rules ≤
      defaultContext.fix (n * rules.roundingIncrement) := by
    refine Context.fix_mono _ ?_
    have : (units defaultContext (floorValue defaultContext inputs rules)
        rules.roundingIncrement : Rat) ≤ n := by exact_mod_cast hfloorUnits
    gcongr
  -- and the target price is not above the multiple
  have hwithMargin : withMargin defaultContext inputs inputs.targetMargin ≤
      n * rules.roundingIncrement := by
    refine (near_withMargin h ho (h.minimumMargin.trans h.minimumMargin_le) le_rfl).1.trans ?_
    exact mul_unit_pow_le htargetBound (by omega) htarget
  unfold reach
  split
  -- the multiple has 28 digits: both prices stop there
  · rename_i hwritten
    obtain ⟨hunits, hmultiple⟩ := hwritten
    rw [hmultiple] at hfloorPrice
    have hsaleUnits : units defaultContext (saleValue defaultContext inputs rules)
        rules.roundingIncrement ≤ n :=
      units_le_of_written hincrement hunits (max_le hwithMargin hfloorPrice)
    have hsale : salePrice defaultContext inputs rules ≤ n * rules.roundingIncrement := by
      rw [← hmultiple]
      refine Context.fix_mono _ ?_
      have : (units defaultContext (saleValue defaultContext inputs rules)
          rules.roundingIncrement : Rat) ≤ n := by exact_mod_cast hsaleUnits
      gcongr
    have hwide : n * rules.roundingIncrement ≤
        n * rules.roundingIncrement * (1 + defaultLimits.unit) ^ 3 :=
      le_mul_of_one_le_right (hc.nonneg h) hcubed
    exact ⟨hfloorPrice.trans hwide, hsale.trans hwide⟩
  -- it has more: the floor is a rounding away from it, and the price one increment more at most
  · have hfix := fix_multiple_le ho h hn
    have hmultiple := hc.nonneg h
    have hsaleValue : saleValue defaultContext inputs rules ≤
        n * rules.roundingIncrement * (1 + defaultLimits.unit) := by
      refine max_le (hwithMargin.trans (le_mul_of_one_le_right hmultiple ?_))
        (hfloorPrice.trans hfix)
      linarith
    have hlt := units_lt (sized_saleValue h ho) ho.roundingIncrement hincrement
    have hnear := (near_salePrice h ho).1
    push_cast
    constructor
    · calc floorPrice defaultContext inputs rules
          ≤ n * rules.roundingIncrement * (1 + defaultLimits.unit) := hfloorPrice.trans hfix
        _ ≤ (n + 1) * rules.roundingIncrement * (1 + defaultLimits.unit) ^ 3 := by
            have hpow : 1 + defaultLimits.unit ≤ (1 + defaultLimits.unit) ^ 3 :=
              le_self_pow₀ (by linarith) (by omega)
            gcongr
            linarith
    · rw [pow_one] at hnear
      calc salePrice defaultContext inputs rules
          ≤ saleUnits inputs rules * rules.roundingIncrement * (1 + defaultLimits.unit) := hnear
        _ ≤ (saleValue defaultContext inputs rules * (1 + defaultLimits.unit) +
              rules.roundingIncrement) * (1 + defaultLimits.unit) := by
            unfold saleUnits
            gcongr
        _ ≤ (n * rules.roundingIncrement * (1 + defaultLimits.unit) * (1 + defaultLimits.unit) +
              rules.roundingIncrement * ((1 + defaultLimits.unit) * (1 + defaultLimits.unit))) *
                (1 + defaultLimits.unit) := by
            have hsquare : (1 : Rat) ≤ (1 + defaultLimits.unit) * (1 + defaultLimits.unit) := by
              nlinarith
            gcongr
            exact le_mul_of_one_le_right hincrement.le hsquare
        _ = (n + 1) * rules.roundingIncrement * (1 + defaultLimits.unit) ^ 3 := by ring

/-- **A lower bound.**  The multiple that the price is covers the bounds but for five roundings:
    four of the bound itself and one of the quotient that is rounded up. -/
theorem le_saleUnits (h : Valid inputs rules) (ho : Ordinary inputs rules) :
    targetBound inputs ≤ saleUnits inputs rules * rules.roundingIncrement *
        (1 + defaultLimits.unit) ^ 5 ∧
      rules.minimumPrice ≤ saleUnits inputs rules * rules.roundingIncrement *
        (1 + defaultLimits.unit) ^ 5 := by
  have hincrement := h.roundingIncrement
  have hunit := defaultLimits.unit_pos
  have hsale := le_units (sized_saleValue h ho) ho.roundingIncrement hincrement
  have hfloor := le_units (sized_floorValue h ho) ho.roundingIncrement hincrement
  have hnear := (near_nextMultiple (sized_floorValue h ho) (by
    have hspan : span = 300000 := rfl
    omega) ho.roundingIncrement hincrement).2
  rw [pow_one] at hnear
  have hunits : 0 ≤ (saleUnits inputs rules : Rat) * rules.roundingIncrement := by
    have hvalue := (sized_saleValue h ho).nonneg
    have : (0 : Rat) ≤ saleUnits inputs rules := by exact_mod_cast units_nonneg hvalue hincrement
    positivity
  -- the target margin bounds the price from below; the least price does it by way of the floor
  constructor
  · calc targetBound inputs
        ≤ withMargin defaultContext inputs inputs.targetMargin * (1 + defaultLimits.unit) ^ 4 :=
          (near_withMargin h ho (h.minimumMargin.trans h.minimumMargin_le) le_rfl).2
      _ ≤ saleValue defaultContext inputs rules * (1 + defaultLimits.unit) ^ 4 := by
          have : withMargin defaultContext inputs inputs.targetMargin ≤
            saleValue defaultContext inputs rules := le_max_left _ _
          gcongr
      _ ≤ saleUnits inputs rules * rules.roundingIncrement * (1 + defaultLimits.unit) *
            (1 + defaultLimits.unit) ^ 4 := by
          unfold saleUnits
          gcongr
      _ = _ := by ring
  · calc rules.minimumPrice ≤ floorValue defaultContext inputs rules := le_max_right _ _
      _ ≤ units defaultContext (floorValue defaultContext inputs rules) rules.roundingIncrement *
            rules.roundingIncrement * (1 + defaultLimits.unit) := hfloor
      _ ≤ floorPrice defaultContext inputs rules * (1 + defaultLimits.unit) *
            (1 + defaultLimits.unit) := by
          unfold floorPrice
          gcongr
      _ ≤ saleValue defaultContext inputs rules * (1 + defaultLimits.unit) *
            (1 + defaultLimits.unit) := by
          have : floorPrice defaultContext inputs rules ≤
            saleValue defaultContext inputs rules := le_max_right _ _
          gcongr
      _ ≤ saleUnits inputs rules * rules.roundingIncrement * (1 + defaultLimits.unit) *
            (1 + defaultLimits.unit) * (1 + defaultLimits.unit) := by
          unfold saleUnits
          gcongr
      _ = saleUnits inputs rules * rules.roundingIncrement * (1 + defaultLimits.unit) ^ 3 := by
          ring
      _ ≤ _ := by
          have : (1 + defaultLimits.unit) ^ 3 ≤ (1 + defaultLimits.unit) ^ 5 :=
            pow_le_pow_right₀ (by linarith) (by omega)
          gcongr

/-! ## Profits are at most the price -/

/-- The price is no negative number of units. -/
theorem saleUnits_nonneg (h : Valid inputs rules) (ho : Ordinary inputs rules) :
    0 ≤ saleUnits inputs rules :=
  units_nonneg (sized_saleValue h ho).nonneg h.roundingIncrement

/-- The price covers the exact cost but for six roundings. -/
theorem cost_le_salePrice (h : Valid inputs rules) (ho : Ordinary inputs rules) :
    cost inputs ≤ saleUnits inputs rules * rules.roundingIncrement *
        (1 + defaultLimits.unit) ^ 5 ∧
      cost inputs ≤ salePrice defaultContext inputs rules * (1 + defaultLimits.unit) ^ 6 := by
  have hunit := defaultLimits.unit_pos
  have htarget := h.targetMargin_lt
  have hmargin := h.minimumMargin.trans h.minimumMargin_le
  have hcost : cost inputs ≤ targetBound inputs :=
    le_div_self (cost_nonneg h) (by linarith) (by linarith)
  have hunits := hcost.trans (le_saleUnits h ho).1
  have hnear := (near_salePrice h ho).2
  rw [pow_one] at hnear
  refine ⟨hunits, hunits.trans ?_⟩
  calc saleUnits inputs rules * rules.roundingIncrement * (1 + defaultLimits.unit) ^ 5
      ≤ salePrice defaultContext inputs rules * (1 + defaultLimits.unit) *
          (1 + defaultLimits.unit) ^ 5 := by gcongr
    _ = salePrice defaultContext inputs rules * (1 + defaultLimits.unit) ^ 6 := by ring

/-- Nothing is priced at zero but what costs nothing and has no minimum price. -/
theorem salePrice_pos_iff (h : Valid inputs rules) (ho : Ordinary inputs rules) :
    0 < salePrice defaultContext inputs rules ↔ 0 < cost inputs ∨ 0 < rules.minimumPrice := by
  have hunit := defaultLimits.unit_pos
  have hcost := cost_nonneg h
  constructor
  · intro hpos
    by_contra hzero
    obtain ⟨hcostZero, hminimumZero⟩ : cost inputs = 0 ∧ rules.minimumPrice = 0 := by
      have hminimum := h.minimumPrice
      constructor
      · exact le_antisymm (not_lt.mp fun hlt => hzero (.inl hlt)) hcost
      · exact le_antisymm (not_lt.mp fun hlt => hzero (.inr hlt)) hminimum
    have htotal : roundedCost defaultContext inputs = 0 := by
      have := (near_cost ho).1
      rw [hcostZero, zero_mul] at this
      exact le_antisymm this (sized_cost ho).2.2.nonneg
    have hmargin : ∀ margin, withMargin defaultContext inputs margin = 0 := by
      intro margin
      unfold withMargin
      rw [htotal, zero_div, Context.fix_zero]
    have hmultiple : ∀ increment, nextMultiple defaultContext 0 increment = 0 := by
      intro increment
      unfold nextMultiple units
      rw [zero_div, Context.fix_zero, Int.ceil_zero, Int.cast_zero, zero_mul, Context.fix_zero]
    have hfloor : floorPrice defaultContext inputs rules = 0 := by
      unfold floorPrice floorValue
      rw [hmargin, hminimumZero, max_self, hmultiple]
    unfold salePrice saleValue at hpos
    rw [hmargin, hfloor, max_self, hmultiple] at hpos
    exact lt_irrefl 0 hpos
  · intro hpos
    obtain ⟨htarget, hminimum⟩ := le_saleUnits h ho
    refine (near_salePrice h ho).pos hunit.le ?_
    have hpow : (0 : Rat) < (1 + defaultLimits.unit) ^ 5 := by positivity
    refine (mul_pos_iff_of_pos_right hpow).mp ?_
    rcases hpos with hpos | hpos
    · exact lt_of_lt_of_le (div_pos hpos (by linarith [h.targetMargin_lt])) htarget
    · exact lt_of_lt_of_le hpos hminimum

/-- The price is a number of 28 digits. -/
theorem written_salePrice : Written (salePrice defaultContext inputs rules) :=
  Context.fix_fix _ _

/-- What is taken off the price leaves no more than the price, in size. -/
theorem abs_fix_sub_le_salePrice {x : Rat} (hx : 0 ≤ x)
    (hle : x ≤ 2 * salePrice defaultContext inputs rules) :
    |defaultContext.fix (salePrice defaultContext inputs rules - x)| ≤
      salePrice defaultContext inputs rules := by
  refine Context.abs_fix_le written_salePrice ?_
  rw [abs_le]
  constructor
  · linarith
  · linarith

/-- The landed cost and the total cost are at most twice the price, which is more than the roundings
    need. -/
theorem costs_le_twice (h : Valid inputs rules) (ho : Ordinary inputs rules) :
    inputs.landedCost ≤ 2 * salePrice defaultContext inputs rules ∧
      roundedCost defaultContext inputs ≤ 2 * salePrice defaultContext inputs rules := by
  have hcost := (cost_le_salePrice h ho).2
  have htotal := (near_cost ho).1
  have hprice := (sized_salePrice h ho).nonneg
  have hlanded : inputs.landedCost ≤ cost inputs := by
    have := h.marketplaceFees
    have := h.fulfilmentCosts
    unfold cost
    linarith
  rw [unit_default] at hcost htotal
  norm_num at hcost htotal
  constructor
  · linarith
  · linarith

/-- The gross profit is at most the price, in size. -/
theorem abs_grossProfit_le (h : Valid inputs rules) (ho : Ordinary inputs rules) :
    |defaultContext.fix (salePrice defaultContext inputs rules - inputs.landedCost)| ≤
      salePrice defaultContext inputs rules :=
  abs_fix_sub_le_salePrice h.landedCost (costs_le_twice h ho).1

/-- The contribution is bounded in the same way as the profit. -/
theorem abs_contributionProfit_le (h : Valid inputs rules) (ho : Ordinary inputs rules) :
    |contributionOf defaultContext inputs (salePrice defaultContext inputs rules)| ≤
      salePrice defaultContext inputs rules :=
  abs_fix_sub_le_salePrice (sized_cost ho).2.2.nonneg (costs_le_twice h ho).2

end Prices

/-! ## Percentages -/

/-- A power of ten has one digit. -/
theorem written_zpow {k : Int} (hk : -999999 ≤ k) : Written (10 ^ k) :=
  Sized.fix_zpow limits_default hk

/-- A share of the price is at most 100 percent. -/
theorem abs_percentOf_le {x y : Rat} (h : |x| ≤ y) : |percentOf defaultContext x y| ≤ 100 := by
  have hone : defaultContext.fix 1 = 1 := by
    have := written_zpow (k := 0) (by omega)
    rwa [zpow_zero] at this
  have hhundred : defaultContext.fix 100 = 100 := by
    have := written_zpow (k := 2) (by omega)
    norm_num at this
    exact this
  have hquotient : |defaultContext.fix (x / y)| ≤ 1 := by
    refine Context.abs_fix_le hone ?_
    rw [abs_div]
    exact div_le_one_of_le₀ (h.trans (le_abs_self y)) (abs_nonneg y)
  unfold percentOf
  refine Context.abs_fix_le hhundred ?_
  rw [abs_mul, abs_of_pos (show (0 : Rat) < 100 by norm_num)]
  linarith

/-- The sign can be taken out of a percentage. -/
theorem abs_percentOf {x y : Rat} (hy : 0 < y) :
    |percentOf defaultContext x y| = percentOf defaultContext |x| y := by
  unfold percentOf
  rw [Context.abs_fix, abs_mul, Context.abs_fix, abs_div, abs_of_pos hy,
    abs_of_pos (show (0 : Rat) < 100 by norm_num)]

/-- More is a larger percentage. -/
theorem percentOf_mono {x x' y : Rat} (hy : 0 < y) (h : x ≤ x') :
    percentOf defaultContext x y ≤ percentOf defaultContext x' y := by
  unfold percentOf
  refine Context.fix_mono _ ?_
  have := Context.fix_mono defaultContext (show x / y ≤ x' / y by gcongr)
  linarith

/-- Of an amount in range it is three roundings away from the exact percentage. -/
theorem near_percentOf {x y : Rat} (hx : Sized (-2 * span - 3) (2 * span + 2) x)
    (hy : InRange y) (hpos : 0 < y) :
    Near defaultLimits.unit 3 (percentOf defaultContext (defaultContext.fix x) y)
      (x / y * 100) := by
  have hspan : span = 300000 := rfl
  have hunit := defaultLimits.unit_pos.le
  have hhundred : (100 : Rat) = 10 ^ (2 : Int) := by norm_num
  have hfix := fix_sized hx (by omega) (by omega)
  have hquotient := hfix.div hy hpos
  have hpercent := (fix_sized hquotient (by omega) (by omega)).scale 2
  rw [← hhundred] at hpercent
  have hrefl : Near defaultLimits.unit 0 y y := Near.refl y
  have h1 := (near_fix hx (by omega)).div hunit hrefl hfix.nonneg hx.nonneg hpos hpos
  have h2 := (near_fix hquotient (by omega)).trans hunit h1
  have h3 := h2.mul_right (show (0 : Rat) ≤ 100 by norm_num)
  exact (near_fix hpercent (by omega)).trans hunit h3

section Percent

variable {d y percent : Rat}

/-- A percentage in range that something is compared with. -/
theorem percent_inRange (hlow : 101 ≤ percent) (hhigh : percent ≤ 10 ^ 24) :
    Sized (-span) (span + 1) percent := by
  have hspan : span = 300000 := rfl
  have hsized : Sized 0 24 percent := by
    right
    constructor
    · rw [zpow_zero]
      linarith
    · exact_mod_cast hhigh
  exact hsized.mono (by omega) (by omega)

/-- What a percentage is of an amount, but for a factor that takes off at most two digits. -/
theorem sized_share (hy : InRange y) (hpos : 0 < y) (hpercent : Sized (-span) (span + 1) percent)
    (hpercentPos : 0 < percent) {factor : Rat} (hfactor : 1 / 1000 ≤ factor) (hle : factor ≤ 2) :
    Sized (-2 * span - 3) (2 * span + 2) (percent * y * factor) := by
  right
  have hlow : (10 : Rat) ^ (-2 * span - 3) = 10 ^ (-span) * 10 ^ (-span) * (1 / 1000) := by
    rw [show (-2 * span - 3 : Int) = -span + -span + -3 by ring, zpow_add₀ (by norm_num),
      zpow_add₀ (by norm_num)]
    norm_num
  have hhigh : (10 : Rat) ^ (2 * span + 2) = 10 ^ (span + 1) * 10 ^ span * 10 := by
    rw [show (2 * span + 2 : Int) = (span + 1) + span + 1 by ring, zpow_add₀ (by norm_num),
      zpow_add₀ (by norm_num), zpow_one]
  have hyLow := hy.zpow_le hpos
  have hyHigh := hy.le
  have hpercentLow := hpercent.zpow_le hpercentPos
  have hpercentHigh := hpercent.le
  have hten : (0 : Rat) < 10 ^ (-span) := by positivity
  have hspanPos : (0 : Rat) < 10 ^ span := by positivity
  constructor
  · rw [hlow]
    gcongr
  · rw [hhigh]
    calc percent * y * factor ≤ 10 ^ (span + 1) * 10 ^ span * 2 := by gcongr
      _ ≤ 10 ^ (span + 1) * 10 ^ span * 10 := by
          gcongr
          norm_num

/-- A difference that is below a limit with slack makes a percentage below it.  Both sides are in
    range, so a percentage of the limit would be three roundings away from it, and the slack has
    room for these. -/
theorem percent_lt (hy : InRange y) (hpos : 0 < y) (hpercent : Sized (-span) (span + 1) percent)
    (hpercentPos : 0 < percent) (h : slack * |d| * 100 ≤ percent * y) :
    |percentOf defaultContext (defaultContext.fix d) y| < percent := by
  have hslack := one_lt_slack
  set share : Rat := percent * y * (1 / (100 * slack)) with hshare
  have hfactor : 1 / 1000 ≤ 1 / (100 * slack) ∧ 1 / (100 * slack) ≤ 2 := by
    unfold slack
    norm_num
  have hsized : Sized (-2 * span - 3) (2 * span + 2) share :=
    sized_share hy hpos hpercent hpercentPos hfactor.1 hfactor.2
  have hle : |d| ≤ share := by
    have hcancel : share * (100 * slack) = percent * y := by
      rw [hshare]
      field_simp
    have hhundred : (0 : Rat) < 100 * slack := by linarith
    refine le_of_mul_le_mul_right ?_ hhundred
    rw [hcancel]
    linarith
  rw [abs_percentOf hpos, Context.abs_fix]
  calc percentOf defaultContext (defaultContext.fix |d|) y
      ≤ percentOf defaultContext (defaultContext.fix share) y :=
        percentOf_mono hpos (Context.fix_mono _ hle)
    _ ≤ share / y * 100 * (1 + defaultLimits.unit) ^ 3 := (near_percentOf hsized hy hpos).1
    _ = percent * ((1 + defaultLimits.unit) ^ 3 / slack) := by
        rw [hshare]
        field_simp
    _ < percent := by
        have hlt : (1 + defaultLimits.unit) ^ 3 / slack < 1 := by
          rw [div_lt_one (by linarith)]
          exact unit_pow_lt (by omega)
        nlinarith

/-- In turn a difference that is above a limit with slack makes a percentage above it. -/
theorem lt_percent (hy : InRange y) (hpos : 0 < y) (hpercent : Sized (-span) (span + 1) percent)
    (hpercentPos : 0 < percent) (h : slack * (percent * y) ≤ d * 100) :
    percent < percentOf defaultContext (defaultContext.fix d) y := by
  have hslack := one_lt_slack
  have hunit := defaultLimits.unit_pos
  set share : Rat := percent * y * (slack / 100) with hshare
  have hfactor : 1 / 1000 ≤ slack / 100 ∧ slack / 100 ≤ 2 := by
    unfold slack
    norm_num
  have hsized : Sized (-2 * span - 3) (2 * span + 2) share :=
    sized_share hy hpos hpercent hpercentPos hfactor.1 hfactor.2
  have hle : share ≤ d := by
    rw [hshare]
    linarith
  have hcube : (0 : Rat) < (1 + defaultLimits.unit) ^ 3 := by positivity
  refine lt_of_mul_lt_mul_right ?_ hcube.le
  calc percent * (1 + defaultLimits.unit) ^ 3 < percent * slack := by
        have := unit_pow_lt (k := 3) (by omega)
        gcongr
    _ = share / y * 100 := by
        rw [hshare]
        field_simp
    _ ≤ percentOf defaultContext (defaultContext.fix share) y * (1 + defaultLimits.unit) ^ 3 :=
        (near_percentOf hsized hy hpos).2
    _ ≤ percentOf defaultContext (defaultContext.fix d) y * (1 + defaultLimits.unit) ^ 3 := by
        have := percentOf_mono hpos (Context.fix_mono defaultContext hle)
        gcongr

end Percent

/-! ## Room for the figures -/

/-- Four decimals and 28 digits leave room for this much. -/
def largest : Rat := 10 ^ 24 - 1 / 20000

/-- Four decimals fit 28 digits exactly if the number rounds to less than ten to the 24th. -/
theorem quantizes_iff {x : Rat} : Quantizes defaultContext x ↔ |x| < largest := by
  have hroom : (roundHalfEven (x * 10 ^ 4)).natAbs < 10 ^ 28 ↔ |x| < largest := by
    rw [natAbs_roundHalfEven_lt (by norm_num), abs_mul,
      abs_of_pos (show (0 : Rat) < 10 ^ 4 by norm_num)]
    unfold largest
    push_cast
    constructor
    · intro h
      linarith
    · intro h
      linarith
  constructor
  · exact fun h => hroom.mp (h defaultLimits rfl).1
  · rintro h _ ⟨⟩
    refine ⟨hroom.mpr h, by decide, ?_⟩
    -- the exponents are no limit to so few digits
    rcases eq_or_ne (toPlaces 4 x) 0 with hzero | hne
    · rw [hzero, abs_zero, Int.log_zero_right]
      decide
    · have hle : |toPlaces 4 x| ≤ 10 ^ (24 : Int) := by
        rw [abs_toPlaces]
        have hmono : toPlaces 4 |x| ≤ toPlaces 4 (((10 ^ 28 : Int) : Rat) / 10 ^ 4) := by
          refine toPlaces_mono ?_
          unfold largest at h
          norm_num
          linarith
        rw [toPlaces_of_places] at hmono
        refine hmono.trans ?_
        norm_num
      have hlog := Int.log_mono_right (b := 10) (abs_pos.mpr hne) hle
      have hpower : Int.log 10 ((10 : Rat) ^ (24 : Int)) = 24 := by
        have := Int.log_zpow (R := Rat) (b := 10) (by norm_num) 24
        rwa [Nat.cast_ofNat] at this
      have hemax : defaultLimits.emax = 999999 := rfl
      omega

/-- The figures that can be too large: the two prices, the return and the change.  The profits are
    at most the price in size, and the margin at most 100 percent. -/
structure FiguresBelow (inputs : PricingInputs) (rules : CommercialPricingRules)
    (amount percent : Rat) : Prop where
  /-- the floor -/
  minimum : floorPrice defaultContext inputs rules < amount
  /-- the price -/
  price : salePrice defaultContext inputs rules < amount
  /-- its return on the landed cost -/
  roi : ∀ roi ∈ returnOn defaultContext inputs (salePrice defaultContext inputs rules),
    |roi| < percent
  /-- and its change from the current price -/
  change : ∀ change ∈ changeTo defaultContext inputs (salePrice defaultContext inputs rules),
    |change| < percent

section Room

variable {inputs : PricingInputs} {rules : CommercialPricingRules} {amount percent : Rat}

/-- A quotient of amounts in range does not overflow, nor does a hundred times it. -/
theorem holds_quotient {d y : Rat} {k : Int} (hd : |d| ≤ 10 ^ k) (hy : 10 ^ (-span) ≤ y)
    (hlow : 0 ≤ k) (hhigh : k ≤ 2 * span + 5) : defaultContext.Holds (d / y) ∧
      defaultContext.Holds (defaultContext.fix (d / y) * 100) := by
  have hspan : span = 300000 := rfl
  have hpos : 0 < y := lt_of_lt_of_le (by positivity) hy
  have hquotient : |d / y| ≤ 10 ^ (k + span) := by
    rw [abs_div, abs_of_pos hpos, show k + span = k - -span by omega, zpow_sub₀ (by norm_num)]
    exact div_le_div₀ (by positivity) hd (by positivity) hy
  refine ⟨holds_default (by omega) (by omega) hquotient,
    holds_default (k := k + span + 2) (by omega) (by omega) ?_⟩
  have hfix := Context.abs_fix_le (written_zpow (by omega)) hquotient
  rw [abs_mul, abs_of_pos (show (0 : Rat) < 100 by norm_num), zpow_add₀ (by norm_num) (k + span)]
  norm_num
  exact hfix

/-- In range the figures come out when they have room.  Of the seven, three have it because they are
    at most the price, or a percentage of it; nothing overflows, by the ranges. -/
theorem figured_iff (h : Valid inputs rules) (ho : Ordinary inputs rules) :
    Figured defaultContext inputs rules (salePrice defaultContext inputs rules) ↔
      (0 < cost inputs ∨ 0 < rules.minimumPrice) ∧ FiguresBelow inputs rules largest largest := by
  have hspan : span = 300000 := rfl
  have hprice := sized_salePrice h ho
  have hfloor := sized_floorPrice h ho
  rw [← salePrice_pos_iff h ho]
  constructor
  -- price, floor, return and change are among the figures that were quantized
  · rintro ⟨hne, -, -, hroom⟩
    refine ⟨lt_of_le_of_ne hprice.nonneg hne.symm, ?_⟩
    simp only [quantizes_iff] at hroom
    refine ⟨lt_of_le_of_lt (le_abs_self _) (hroom _ ?_), lt_of_le_of_lt (le_abs_self _)
      (hroom _ ?_), fun roi hroi => hroom roi ?_, fun change hchange => hroom change ?_⟩
    · simp [figures]
    · simp [figures]
    · simp only [figures, List.mem_append, Option.mem_toList]
      exact .inl (.inl (.inr hroi))
    · simp only [figures, List.mem_append, Option.mem_toList]
      exact .inr hchange
  · rintro ⟨hpos, hminimum, hlt, hroi, hchange⟩
    have hcontribution := abs_contributionProfit_le h ho
    have hgross := abs_grossProfit_le h ho
    have hhundred : (100 : Rat) < largest := by
      unfold largest
      norm_num
    -- differences of amounts in range are in range
    have hdifference : ∀ x, 0 ≤ x → x ≤ 10 ^ (2 * span + 4) →
        |salePrice defaultContext inputs rules - x| ≤ 10 ^ (2 * span + 4) := by
      intro x hx hxle
      have := hprice.le
      have := hprice.nonneg
      rw [abs_le]
      constructor
      · linarith
      · linarith
    have hwide : ∀ {x : Rat} {k : Int}, k ≤ 2 * span + 4 → x ≤ 10 ^ k → x ≤ 10 ^ (2 * span + 4) :=
      fun hk hx => hx.trans (zpow_le_zpow_right₀ (by norm_num) hk)
    have hcontributionLe : |contributionOf defaultContext inputs
        (salePrice defaultContext inputs rules)| ≤ 10 ^ (2 * span + 4) :=
      hcontribution.trans hprice.le
    have hshare := holds_quotient hcontributionLe (hprice.zpow_le hpos) (by omega) (by omega)
    -- the return is left out when nothing is landed; zero holds then as well
    have hreturn : defaultContext.Holds (contributionOf defaultContext inputs
          (salePrice defaultContext inputs rules) / inputs.landedCost) ∧
        defaultContext.Holds (defaultContext.fix (contributionOf defaultContext inputs
          (salePrice defaultContext inputs rules) / inputs.landedCost) * 100) := by
      rcases eq_or_lt_of_le h.landedCost with hzero | hlanded
      · have hholds : defaultContext.Holds 0 := by
          refine holds_default (k := 0) le_rfl (by omega) ?_
          rw [abs_zero]
          positivity
        rw [← hzero, div_zero, Context.fix_zero, zero_mul]
        exact ⟨hholds, hholds⟩
      · exact holds_quotient hcontributionLe (ho.landedCost.zpow_le hlanded) (by omega)
          (by omega)
    -- no intermediate result overflows, and each figure has room for its four places
    refine ⟨hpos.ne', ?_, ?_, ?_⟩
    · simp only [figureResults, List.forall_mem_cons]
      refine ⟨holds_default (k := 2 * span + 4) (by omega) (by omega) (hdifference _ h.landedCost
          (hwide (by omega) ho.landedCost.le)),
        holds_default (k := 2 * span + 4) (by omega) (by omega) (hdifference _
          (sized_cost ho).2.2.nonneg (hwide (by omega) (sized_cost ho).2.2.le)),
        hshare.1, hshare.2, hreturn.1, hreturn.2, by simp⟩
    · intro current hcurrent
      have hcurrentPos := h.currentSellingPrice current hcurrent
      have hrange := ho.currentSellingPrice current hcurrent
      have hdiff := hdifference current hcurrentPos.le (hwide (by omega) hrange.le)
      have hquotient := holds_quotient (k := 2 * span + 4)
        (Context.abs_fix_le (written_zpow (by omega)) hdiff) (hrange.zpow_le hcurrentPos)
        (by omega) (by omega)
      simp only [changeResults, List.forall_mem_cons]
      exact ⟨holds_default (k := 2 * span + 4) (by omega) (by omega) hdiff, hquotient.1,
        hquotient.2, by simp⟩
    · intro x hx
      rw [quantizes_iff]
      simp only [figures, List.mem_append, List.mem_cons, List.not_mem_nil, or_false,
        Option.mem_toList] at hx
      rcases hx with (((rfl | rfl | rfl) | hx) | rfl | rfl) | hx
      · exact lt_of_le_of_lt hgross hlt
      · exact lt_of_le_of_lt hcontribution hlt
      · exact lt_of_le_of_lt (abs_percentOf_le hcontribution) hhundred
      · exact hroi x hx
      · rw [abs_of_nonneg hfloor.nonneg]
        exact hminimum
      · rw [abs_of_nonneg hprice.nonneg]
        exact hlt
      · exact hchange x hx

/-- A number of increments covers the bounds times `s`, and the price of the units it may have
    leaves the figures times `s` below their limits. -/
def Affordable (inputs : PricingInputs) (rules : CommercialPricingRules) (amount percent s : Rat)
    (units : Int → Int) : Prop :=
  ∃ n, Covers inputs rules s n ∧ Below inputs amount percent s (units n * rules.roundingIncrement)

/-- A maximum price, times `s`, is below the price of every number of increments that covers the
    bounds times the reciprocal. -/
def Refused (inputs : PricingInputs) (rules : CommercialPricingRules) (s : Rat)
    (units : Int → Int) : Prop :=
  ∃ maximum ∈ rules.maximumPrice, ∀ n, Covers inputs rules s⁻¹ n →
    s * maximum < units n * rules.roundingIncrement

/-- The increments a price may have are no fewer than those that cover the bounds. -/
theorem le_reach (increment : Rat) (n : Int) : n ≤ reach increment n := by
  unfold reach
  split
  · exact le_rfl
  · omega

/-- With slack, **an affordable price** leaves room for all figures.  The price is at most the
    affordable one but for three roundings, and each figure grows with the price. -/
theorem figuresBelow_of_affordable (h : Valid inputs rules) (ho : Ordinary inputs rules)
    (hlow : 101 ≤ percent) (hhigh : percent ≤ 10 ^ 24)
    (ha : Affordable inputs rules amount percent slack (reach rules.roundingIncrement)) :
    FiguresBelow inputs rules amount percent := by
  obtain ⟨n, hc, hb⟩ := ha
  set increment := rules.roundingIncrement with hincrement
  set price : Rat := reach increment n * increment with hprice
  have hcost := cost_nonneg h
  have htotal := near_cost ho
  have hsale := (cost_le_salePrice h ho).2
  obtain ⟨hfloorLe, hsaleLe⟩ := prices_le h ho hc
  -- the multiple that covers the costs is at most the price it may have
  have hcovered : slack * cost inputs ≤ price := by
    refine (hc.cost_le h (hc.nonneg h)).trans ?_
    have hunits : (n : Rat) ≤ reach increment n := by exact_mod_cast le_reach increment n
    exact mul_le_mul_of_nonneg_right hunits h.roundingIncrement.le
  have hpriceNonneg : 0 ≤ price := le_trans (mul_nonneg (by linarith [one_lt_slack]) hcost) hcovered
  have hwithin : price * (1 + defaultLimits.unit) ^ 3 ≤ slack * price := by
    rw [mul_comm slack]
    exact mul_le_mul_of_nonneg_left (unit_pow_lt (by omega)).le hpriceNonneg
  have hamounts := hb.amounts
  refine ⟨by linarith, by linarith, ?_, ?_⟩
  · intro roi hroi
    unfold returnOn at hroi
    split at hroi
    · rename_i hlanded
      cases hroi
      refine percent_lt ho.landedCost hlanded (percent_inRange hlow hhigh) (by linarith) ?_
      have hreturned := hb.returned hlanded
      have hlower := htotal.1
      have hupper := htotal.2
      rw [unit_default] at hlower hupper hsale hsaleLe
      unfold slack at hreturned hcovered ⊢
      norm_num at hlower hupper hsale hsaleLe hreturned hcovered ⊢
      rcases abs_cases (salePrice defaultContext inputs rules -
        roundedCost defaultContext inputs) with ⟨habs, -⟩ | ⟨habs, -⟩
      · rw [habs]
        linarith
      · rw [habs]
        linarith
    · cases hroi
  · intro change hchange
    obtain ⟨current, hcurrent, rfl⟩ := Option.mem_map.mp hchange
    have hpos := h.currentSellingPrice current hcurrent
    have hsaleNonneg := (sized_salePrice h ho).nonneg
    refine percent_lt (ho.currentSellingPrice current hcurrent) hpos
      (percent_inRange hlow hhigh) (by linarith) ?_
    have hchanged := hb.changed current hcurrent
    have hlimit : 101 * current ≤ percent * current := by gcongr
    rw [unit_default] at hsaleLe
    unfold slack at hchanged ⊢
    norm_num at hsaleLe hchanged ⊢
    rcases abs_cases (salePrice defaultContext inputs rules - current) with
      ⟨habs, -⟩ | ⟨habs, -⟩
    · rw [habs]
      linarith
    · rw [habs]
      linarith

/-- The multiple that the price is covers the bounds without slack to spare. -/
theorem covers_saleUnits (h : Valid inputs rules) (ho : Ordinary inputs rules) :
    Covers inputs rules slack⁻¹ (saleUnits inputs rules) := by
  have hslack := one_lt_slack
  have hpow := (unit_pow_lt (k := 5) (by omega)).le
  have htarget := h.targetMargin_lt
  obtain ⟨hbound, hminimum⟩ := le_saleUnits h ho
  have hunits : 0 ≤ (saleUnits inputs rules : Rat) * rules.roundingIncrement := by
    have : (0 : Rat) ≤ saleUnits inputs rules := by exact_mod_cast saleUnits_nonneg h ho
    have := h.roundingIncrement
    positivity
  have hwide : (saleUnits inputs rules : Rat) * rules.roundingIncrement *
      (1 + defaultLimits.unit) ^ 5 ≤ saleUnits inputs rules * rules.roundingIncrement * slack := by
    gcongr
  constructor
  · rw [inv_mul_le_iff₀ (by linarith)]
    have hle := (div_le_iff₀ (by linarith)).mp (hbound.trans hwide)
    linarith
  · rw [inv_mul_le_iff₀ (by linarith)]
    linarith

/-- A bound that a figure misses although it was given the slack is missed by the slack as well. -/
theorem slack_mul_le {a b : Rat} (h : a ≤ slack⁻¹ * b * 100) : slack * a ≤ b * 100 := by
  have hslack := one_lt_slack
  have hne : slack ≠ 0 := by linarith
  calc slack * a ≤ slack * (slack⁻¹ * b * 100) :=
        mul_le_mul_of_nonneg_left h (by linarith)
    _ = b * 100 := by field_simp

/-- **Room for all figures** makes the price affordable without any slack: the multiple that the
    price is covers the bounds, and its figures are those that have room. -/
theorem affordable_of_figuresBelow (h : Valid inputs rules) (ho : Ordinary inputs rules)
    (hlow : 101 ≤ percent) (hhigh : percent ≤ 10 ^ 24)
    (hf : FiguresBelow inputs rules amount percent) :
    Affordable inputs rules amount percent slack⁻¹ id := by
  refine ⟨saleUnits inputs rules, covers_saleUnits h ho, ?_⟩
  have hslack := one_lt_slack
  have hcost := cost_nonneg h
  have hcostLe := (cost_le_salePrice h ho).1
  have htotal := (near_cost ho).1
  have hnear := near_salePrice h ho
  rw [id]
  set price : Rat := saleUnits inputs rules * rules.roundingIncrement with hprice
  have hpriceNonneg : 0 ≤ price := by
    have : (0 : Rat) ≤ saleUnits inputs rules := by exact_mod_cast saleUnits_nonneg h ho
    have := h.roundingIncrement
    positivity
  have hsale : price ≤ salePrice defaultContext inputs rules * (1 + defaultLimits.unit) := by
    have := hnear.2
    rwa [pow_one] at this
  refine ⟨?_, ?_, ?_⟩
  -- the price: rounding it moved it by less than the slack
  · rw [inv_mul_lt_iff₀ (by linarith)]
    have hlt := hf.price
    have hone := (unit_pow_lt (k := 1) (by omega)).le
    rw [pow_one] at hone
    have hsaleNonneg := (sized_salePrice h ho).nonneg
    calc price ≤ salePrice defaultContext inputs rules * (1 + defaultLimits.unit) := hsale
      _ ≤ salePrice defaultContext inputs rules * slack := by gcongr
      _ < slack * amount := by
          rw [mul_comm]
          gcongr
  -- the return: beyond the limit with the slack, it would be beyond it as computed
  · intro hlanded
    by_contra hlimit
    have hroi := hf.roi _ (by
      unfold returnOn
      rw [if_pos hlanded]
      rfl)
    refine absurd (lt_of_le_of_lt (le_abs_self _) hroi) (not_lt.mpr (le_of_lt ?_))
    refine lt_percent ho.landedCost hlanded (percent_inRange hlow hhigh) (by linarith) ?_
    rw [not_lt] at hlimit
    refine (slack_mul_le hlimit).trans ?_
    rw [unit_default] at hsale htotal hcostLe
    unfold slack
    norm_num at hsale htotal hcostLe ⊢
    linarith
  -- the change, in the same way
  · intro current hcurrent
    by_contra hlimit
    have hpos := h.currentSellingPrice current hcurrent
    have hchange := hf.change _ (Option.mem_map_of_mem _ hcurrent)
    refine absurd (lt_of_le_of_lt (le_abs_self _) hchange) (not_lt.mpr (le_of_lt ?_))
    refine lt_percent (ho.currentSellingPrice current hcurrent) hpos
      (percent_inRange hlow hhigh) (by linarith) ?_
    rw [not_lt] at hlimit
    refine (slack_mul_le hlimit).trans ?_
    rw [unit_default] at hsale
    unfold slack
    norm_num at hsale ⊢
    linarith

end Room

/-! ## When a price comes out -/

/-- The calculation returns a price or raises a validation error. -/
def Ends (inputs : PricingInputs) (rules : CommercialPricingRules) : Prop :=
  (∃ r, calculatePrice defaultContext inputs rules = .ok r) ∨
    ∃ message, calculatePrice defaultContext inputs rules =
      .error (.raised .pricingValidationError message)

/-- The maximum refuses every price that covers the bounds, or something has to be paid and an
    affordable price has room in 28 digits.  Where `n` increments cover the bounds, the price that
    is refused is one of `above n` increments and the one that is affordable one of `below n`. -/
def Priceable (inputs : PricingInputs) (rules : CommercialPricingRules) (s : Rat)
    (above below : Int → Int) : Prop :=
  Refused inputs rules s above ∨
    (0 < cost inputs ∨ 0 < rules.minimumPrice) ∧ Affordable inputs rules largest largest s below

section End

variable {inputs : PricingInputs} {rules : CommercialPricingRules}

/-- The maximum refuses the price that the calculation makes. -/
theorem exceeds_of_refused (h : Valid inputs rules) (ho : Ordinary inputs rules)
    (hr : Refused inputs rules slack id) :
    Exceeds rules (salePrice defaultContext inputs rules) := by
  obtain ⟨maximum, hmaximum, hall⟩ := hr
  refine ⟨maximum, hmaximum, ?_⟩
  have hlt := hall _ (covers_saleUnits h ho)
  have hnear := (near_salePrice h ho).2
  have hone := unit_pow_lt (k := 1) (by omega)
  have hnonneg : 0 ≤ maximum := h.minimumPrice.trans (h.maximumPrice maximum hmaximum)
  rw [id] at hlt
  rw [pow_one] at hnear hone
  by_contra hle
  rw [not_lt] at hle
  have hsale : salePrice defaultContext inputs rules * (1 + defaultLimits.unit) ≤
      maximum * slack := by
    have := defaultLimits.unit_pos
    have := (sized_salePrice h ho).nonneg
    gcongr
  linarith

/-- In turn a maximum that the price exceeds refuses every multiple that covers the bounds, since
    none of them is below the price by more than the roundings. -/
theorem refused_of_exceeds (h : Valid inputs rules) (ho : Ordinary inputs rules)
    (hmax : Exceeds rules (salePrice defaultContext inputs rules)) :
    Refused inputs rules slack⁻¹ (reach rules.roundingIncrement) := by
  obtain ⟨maximum, hmaximum, hlt⟩ := hmax
  refine ⟨maximum, hmaximum, fun n hc => ?_⟩
  rw [inv_inv] at hc
  have hslack := one_lt_slack
  have hpow := (unit_pow_lt (k := 3) (by omega)).le
  have hprice := (prices_le h ho hc).2
  have hnonneg : 0 ≤ (reach rules.roundingIncrement n : Rat) * rules.roundingIncrement := by
    have hunits : (n : Rat) ≤ reach rules.roundingIncrement n := by
      exact_mod_cast le_reach rules.roundingIncrement n
    exact (hc.nonneg h).trans (mul_le_mul_of_nonneg_right hunits h.roundingIncrement.le)
  rw [inv_mul_lt_iff₀ (by linarith)]
  calc maximum < salePrice defaultContext inputs rules := hlt
    _ ≤ _ := hprice
    _ ≤ reach rules.roundingIncrement n * rules.roundingIncrement * slack := by gcongr
    _ = slack * (reach rules.roundingIncrement n * rules.roundingIncrement) := mul_comm _ _

/-- Ordinary amounts are in range. -/
theorem inRange_of_le {x : Rat} (hlow : 1 / 10 ^ 4 ≤ x) (hhigh : x ≤ 10 ^ 24) : InRange x := by
  have hspan : span = 300000 := rfl
  have hsized : Sized (-4) 24 x := by
    right
    constructor
    · norm_num
      norm_num at hlow
      exact hlow
    · exact_mod_cast hhigh
  exact hsized.mono (by omega) (by omega)

/-- The amounts of the mug are ordinary. -/
theorem mug_ordinary : Ordinary mug {} := by
  have hrange : ∀ x : Rat, 1 / 10 ^ 4 ≤ x → x ≤ 10 ^ 24 → InRange x :=
    fun x => inRange_of_le
  refine ⟨hrange _ ?_ ?_, hrange _ ?_ ?_, hrange _ ?_ ?_, ?_, ?_, .inl rfl, hrange _ ?_ ?_⟩
  any_goals
    norm_num [mug]
  · have hspan : (10 : Rat) ^ (-span) ≤ 10 ^ (-1 : Int) :=
      zpow_le_zpow_right₀ (by norm_num) (by decide)
    norm_num at hspan
    linarith
  · exact hrange 12 (by norm_num) (by norm_num)

end End

end Pricing

end CommerceOperations
