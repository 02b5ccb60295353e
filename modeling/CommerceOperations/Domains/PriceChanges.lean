/-
  The change of price, in the inputs and the rules alone.

  In exact arithmetic the recommended price is the least multiple of the increment that covers the
  costs and the minimum, and the change is what the caller reads off it: the difference from the
  current price in percent.  The calculation rounds to 28 digits at every step, so its price may be
  another multiple where the bounds are within a few roundings of one, and its change may be on the
  other side of a limit where the exact one is within a few roundings of it.

  What can be said of the inputs is therefore said of every multiple that the price may be
  (`Candidate`), and of limits on whose side the change is settled (`Settled`): with slack, or
  exactly, where all numbers on the way have 28 digits.  Amounts of money with four decimals leave
  one candidate and nothing unsettled, unless they have more than twenty digits.

  The crux is the second kind.  Rounding is monotone and leaves numbers of 28 digits alone, so a
  comparison of such numbers survives it as it is: at the limit itself no slack is needed.
-/
import CommerceOperations.Domains.PriceRoom

namespace CommerceOperations

namespace Pricing

open Decimals

/-! ## The multiples that a price may be -/

/-- The costs, what the margins leave of a price, and a price of `n` increments have at most 28
    digits, so none of them is rounded. -/
structure Exact (inputs : PricingInputs) (rules : CommercialPricingRules) (n : Int) : Prop where
  /-- the sums of the costs -/
  sum : Written (inputs.landedCost + inputs.marketplaceFees)
  costs : Written (cost inputs)
  /-- what the margins leave -/
  minimumLeft : Written (1 - inputs.minimumMargin)
  targetLeft : Written (1 - inputs.targetMargin)
  /-- and the price -/
  units : Written n
  price : Written (n * rules.roundingIncrement)

/-- `n` increments may be the recommended price.  They cover the bounds, but for some roundings,
    and are not more than another number of increments that covers them: with slack, or exactly
    where nothing is rounded. -/
structure Candidate (inputs : PricingInputs) (rules : CommercialPricingRules) (n : Int) :
    Prop where
  /-- it may be a few roundings short of the bounds -/
  covers : Covers inputs rules slack⁻¹ n
  /-- it is at most a multiple that covers them with slack -/
  least : ∀ m, Covers inputs rules slack m →
    n * rules.roundingIncrement ≤
      slack * (reach rules.roundingIncrement m * rules.roundingIncrement)
  /-- and no larger than one that covers them without any rounding -/
  exact : ∀ m, Exact inputs rules m → Covers inputs rules 1 m → n ≤ m

section Candidates

variable {inputs : PricingInputs} {rules : CommercialPricingRules} {m n : Int}

/-- Costs that have 28 digits are not rounded. -/
theorem Exact.roundedCost_eq (he : Exact inputs rules m) :
    roundedCost defaultContext inputs = cost inputs := by
  have hsum := he.sum
  have hcosts := he.costs
  unfold Written cost at hcosts
  unfold Written at hsum
  unfold roundedCost cost
  rw [hsum, hcosts]

/-- Where nothing is rounded, a multiple that covers the costs with a margin is not below the price
    that the calculation makes of them. -/
theorem Exact.withMargin_le (he : Exact inputs rules m) (hv : Valid inputs rules) {margin : Rat}
    (hwritten : Written (1 - margin)) (hmargin : margin ≤ inputs.targetMargin)
    (hc : Covers inputs rules 1 m) :
    withMargin defaultContext inputs margin ≤ m * rules.roundingIncrement := by
  have hcosts := hc.costs
  have hminimum := hc.minimum
  have htarget := hv.targetMargin_lt
  have hminimumPrice := hv.minimumPrice
  unfold Written at hwritten
  unfold withMargin
  rw [he.roundedCost_eq, hwritten]
  refine Context.fix_le he.price ?_
  rw [div_le_iff₀ (by linarith)]
  rw [one_mul] at hcosts hminimum
  have hnonneg : 0 ≤ (m : Rat) * rules.roundingIncrement := by linarith
  calc cost inputs ≤ m * rules.roundingIncrement * (1 - inputs.targetMargin) := hcosts
    _ ≤ m * rules.roundingIncrement * (1 - margin) := by gcongr

/-- Where nothing is rounded, the price is not above any multiple that covers the bounds. -/
theorem saleUnits_le_of_exact (hv : Valid inputs rules) (he : Exact inputs rules m)
    (hc : Covers inputs rules 1 m) : saleUnits inputs rules ≤ m := by
  have hincrement := hv.roundingIncrement
  have hminimum := hc.minimum
  rw [one_mul] at hminimum
  have hfloorValue : floorValue defaultContext inputs rules ≤ m * rules.roundingIncrement :=
    max_le (he.withMargin_le hv he.minimumLeft hv.minimumMargin_le hc) hminimum
  have hfloorUnits := units_le_of_written hincrement he.units hfloorValue
  -- the floor is rounded to a number of 28 digits, which the multiple is
  have hfloorPrice : floorPrice defaultContext inputs rules ≤ m * rules.roundingIncrement := by
    refine Context.fix_le he.price ?_
    have hle : (units defaultContext (floorValue defaultContext inputs rules)
        rules.roundingIncrement : Rat) ≤ m := by exact_mod_cast hfloorUnits
    gcongr
  exact units_le_of_written hincrement he.units
    (max_le (he.withMargin_le hv he.targetLeft le_rfl hc) hfloorPrice)

/-- **The price is a candidate**: what the calculation rounds up to is one of the multiples that the
    inputs leave.  It covers the bounds by `covers_saleUnits` and is not too large by `prices_le`;
    where nothing is rounded it is the least. -/
theorem candidate_saleUnits (hv : Valid inputs rules) (ho : Ordinary inputs rules) :
    Candidate inputs rules (saleUnits inputs rules) := by
  refine ⟨covers_saleUnits hv ho, ?_, fun m he hc => saleUnits_le_of_exact hv he hc⟩
  intro m hc
  have hunit := defaultLimits.unit_pos
  have hnear := (near_salePrice hv ho).2
  have hprice := (prices_le hv ho hc).2
  have hpow := (unit_pow_lt (k := 4) (by omega)).le
  rw [pow_one] at hnear
  have hreach : 0 ≤ (reach rules.roundingIncrement m : Rat) * rules.roundingIncrement := by
    have hunits : (m : Rat) ≤ reach rules.roundingIncrement m := by
      exact_mod_cast le_reach rules.roundingIncrement m
    exact (hc.nonneg hv).trans (mul_le_mul_of_nonneg_right hunits hv.roundingIncrement.le)
  calc saleUnits inputs rules * rules.roundingIncrement
      ≤ salePrice defaultContext inputs rules * (1 + defaultLimits.unit) := hnear
    _ ≤ reach rules.roundingIncrement m * rules.roundingIncrement *
          (1 + defaultLimits.unit) ^ 3 * (1 + defaultLimits.unit) := by gcongr
    _ = reach rules.roundingIncrement m * rules.roundingIncrement *
          (1 + defaultLimits.unit) ^ 4 := by ring
    _ ≤ reach rules.roundingIncrement m * rules.roundingIncrement * slack := by gcongr
    _ = _ := by ring

end Candidates

/-! ## The change, and the side of a limit that it is on -/

/-- How far `price` is from the current one, in percent and in exact arithmetic. -/
def changeBy (current price : Rat) : Rat := |price - current| / current * 100

/-- The change is above a limit, with slack for the roundings of the price and of the change. -/
def Above (limit current price : Rat) : Prop :=
  slack * (limit * current) ≤ (slack⁻¹ * price - current) * 100 ∨
    slack * (limit * current) ≤ (current - slack * price) * 100

/-- The change is below a limit, with slack for the same roundings. -/
def BelowLimit (limit current price : Rat) : Prop :=
  slack * (slack * price - current) * 100 ≤ limit * current ∧
    slack * (current - slack⁻¹ * price) * 100 ≤ limit * current

/-- The change is the limit, and nothing is rounded on the way to it. -/
structure AtLimit (limit current price : Rat) : Prop where
  /-- the difference is the share of the current price that the limit says -/
  eq : |price - current| * 100 = limit * current
  /-- the price is not rounded -/
  price : Written price
  /-- nor is the difference -/
  difference : Written (limit / 100 * current)
  /-- nor the quotient -/
  share : Written (limit / 100)
  /-- nor the percentage -/
  limit : Written limit

/-- The side of the limit on which the change is, is settled. -/
def Settled (limit current price : Rat) : Prop :=
  Above limit current price ∨ BelowLimit limit current price ∨ AtLimit limit current price

section Sides

variable {limit current exact price : Rat}

/-- A rounded price is within the slack of the exact one. -/
theorem near_slack (hexact : 0 ≤ exact) (hprice : Near defaultLimits.unit 1 price exact) :
    slack⁻¹ * exact ≤ price ∧ price ≤ slack * exact := by
  have hone := (unit_pow_lt (k := 1) (by omega)).le
  have hslack := one_lt_slack
  have hunit := defaultLimits.unit_pos
  obtain ⟨hhigh, hlow⟩ := hprice
  have hpos : 0 ≤ price := by
    have hpow : (0 : Rat) < (1 + defaultLimits.unit) ^ 1 := by positivity
    exact nonneg_of_mul_nonneg_left (hexact.trans hlow) hpow
  constructor
  · rw [inv_mul_le_iff₀ (by linarith), mul_comm]
    exact hlow.trans (by gcongr)
  · rw [mul_comm]
    exact hhigh.trans (by gcongr)

/-- What is below a positive number with slack is strictly below it. -/
theorem lt_of_slack_mul_le {x y : Rat} (hy : 0 < y) (h : slack * x ≤ y) : x < y := by
  have hslack := one_lt_slack
  rcases le_or_gt x 0 with hx | hx
  · exact lt_of_le_of_lt hx hy
  · exact lt_of_lt_of_le (lt_mul_of_one_lt_left hx hslack) h

/-- Above the limit with slack, the calculated change is above it. -/
theorem Above.lt_changeFrom (ha : Above limit current exact) (hcurrent : InRange current)
    (hpos : 0 < current) (hlimit : Sized (-span) (span + 1) limit) (hlimitPos : 0 < limit)
    (hlow : slack⁻¹ * exact ≤ price) (hhigh : price ≤ slack * exact) :
    limit < |changeFrom defaultContext current price| := by
  rcases ha with h | h
  · refine lt_of_lt_of_le (lt_percent hcurrent hpos hlimit hlimitPos ?_) (le_abs_self _)
    linarith
  · rw [changeFrom, abs_percentOf hpos, Context.abs_fix, abs_sub_comm, ← Context.abs_fix]
    refine lt_of_lt_of_le (lt_percent (d := current - price) hcurrent hpos hlimit hlimitPos ?_) ?_
    · linarith
    · exact percentOf_mono hpos (le_abs_self _)

/-- A change that is above the limit with slack is above it in exact arithmetic, too. -/
theorem Above.lt_changeBy (ha : Above limit current exact) (hpos : 0 < current)
    (hlimitPos : 0 < limit) (hexact : 0 ≤ exact) : limit < changeBy current exact := by
  have hslack := one_lt_slack
  have hproduct : 0 < limit * current := mul_pos hlimitPos hpos
  have hinv : slack⁻¹ * exact ≤ exact :=
    mul_le_of_le_one_left hexact (inv_le_one_of_one_le₀ hslack.le)
  unfold changeBy
  rw [div_mul_eq_mul_div, lt_div_iff₀ hpos]
  rcases ha with h | h
  · have := le_abs_self (exact - current)
    nlinarith
  · have := neg_le_abs (exact - current)
    nlinarith

/-- Below the limit with slack, the calculated change is below it. -/
theorem BelowLimit.changeFrom_lt (hb : BelowLimit limit current exact)
    (hcurrent : InRange current) (hpos : 0 < current)
    (hlimit : Sized (-span) (span + 1) limit) (hlimitPos : 0 < limit)
    (hlow : slack⁻¹ * exact ≤ price) (hhigh : price ≤ slack * exact) :
    |changeFrom defaultContext current price| < limit := by
  have hslack := one_lt_slack
  obtain ⟨hrise, hfall⟩ := hb
  refine percent_lt hcurrent hpos hlimit hlimitPos ?_
  rcases abs_cases (price - current) with ⟨habs, -⟩ | ⟨habs, -⟩
  · rw [habs]
    nlinarith
  · rw [habs]
    nlinarith

/-- A change that is below the limit with slack is below it in exact arithmetic, too. -/
theorem BelowLimit.changeBy_lt (hb : BelowLimit limit current exact) (hpos : 0 < current)
    (hlimitPos : 0 < limit) (hexact : 0 ≤ exact) : changeBy current exact < limit := by
  have hslack := one_lt_slack
  have hproduct : 0 < limit * current := mul_pos hlimitPos hpos
  have hinv : slack⁻¹ * exact ≤ exact :=
    mul_le_of_le_one_left hexact (inv_le_one_of_one_le₀ hslack.le)
  have hwide : exact ≤ slack * exact := le_mul_of_one_le_left hexact hslack.le
  obtain ⟨hrise, hfall⟩ := hb
  have hrise := lt_of_slack_mul_le (x := (slack * exact - current) * 100) hproduct (by linarith)
  have hfall := lt_of_slack_mul_le (x := (current - slack⁻¹ * exact) * 100) hproduct (by linarith)
  unfold changeBy
  rw [div_mul_eq_mul_div, div_lt_iff₀ hpos]
  rcases abs_cases (exact - current) with ⟨habs, -⟩ | ⟨habs, -⟩
  · rw [habs]
    linarith
  · rw [habs]
    linarith

/-- At the limit the calculated change is the limit: no step of the calculation rounds. -/
theorem AtLimit.changeFrom_eq (hat : AtLimit limit current exact) (hpos : 0 < current) :
    |changeFrom defaultContext current exact| = limit := by
  obtain ⟨heq, -, hdifference, hshare, hlimit⟩ := hat
  have hsize : |exact - current| = limit / 100 * current := by linarith
  unfold Written at hdifference hshare hlimit
  rw [changeFrom, abs_percentOf hpos, Context.abs_fix, hsize, hdifference]
  unfold percentOf
  rw [mul_div_assoc, div_self hpos.ne', mul_one, hshare, div_mul_cancel₀ _ (by norm_num), hlimit]

/-- At the limit the exact change is the limit, too. -/
theorem AtLimit.changeBy_eq (hat : AtLimit limit current exact) (hpos : 0 < current) :
    changeBy current exact = limit := by
  unfold changeBy
  rw [div_mul_eq_mul_div, hat.eq, mul_div_assoc, div_self hpos.ne', mul_one]

/-- **A settled change** is on the same side of the limit as the calculated one.  By the three ways
    to be settled, each of which puts both changes on one side. -/
theorem Settled.compare (hs : Settled limit current exact) (hcurrent : InRange current)
    (hpos : 0 < current) (hlimit : Sized (-span) (span + 1) limit) (hlimitPos : 0 < limit)
    (hexact : 0 ≤ exact) (hprice : Near defaultLimits.unit 1 price exact)
    (hfix : price = defaultContext.fix exact) :
    (limit < |changeFrom defaultContext current price| ↔ limit < changeBy current exact) ∧
      (|changeFrom defaultContext current price| = limit ↔ changeBy current exact = limit) := by
  obtain ⟨hlow, hhigh⟩ := near_slack hexact hprice
  rcases hs with ha | hb | hat
  · have hcalculated := ha.lt_changeFrom hcurrent hpos hlimit hlimitPos hlow hhigh
    have hchange := ha.lt_changeBy hpos hlimitPos hexact
    exact ⟨iff_of_true hcalculated hchange, iff_of_false hcalculated.ne' hchange.ne'⟩
  · have hcalculated := hb.changeFrom_lt hcurrent hpos hlimit hlimitPos hlow hhigh
    have hchange := hb.changeBy_lt hpos hlimitPos hexact
    exact ⟨iff_of_false hcalculated.not_gt hchange.not_gt,
      iff_of_false hcalculated.ne hchange.ne⟩
  · have hwritten := hat.price
    unfold Written at hwritten
    rw [hfix, hwritten, hat.changeFrom_eq hpos, hat.changeBy_eq hpos]
    exact ⟨Iff.rfl, Iff.rfl⟩

end Sides

end Pricing

end CommerceOperations
