/-
  The price calculation in 28 digits.

  The exact price is the least multiple of the increment above the costs with their margin and
  above the commercial minimum.  The code makes it in a dozen operations, and each of them rounds.
  This module says what is left of the exact statements: every value is a few roundings away from
  the exact one (`near_withMargin`), the price is a multiple of the increment that covers the
  bounds but for a few roundings (`covers_units`), and it is not above a multiple that covers them
  with a few roundings to spare (`salePrice_le`).

  The crux is the second rounding up.  The floor is a multiple of the increment already, but in 28
  digits it may be a little more than that multiple, and then the next one is taken.  So one
  increment more has to be allowed where a multiple cannot be written in 28 digits, and nothing
  else: where it can, it bounds the price as it is.

  Amounts are taken from a range in which nothing overflows or underflows.
-/
import CommerceOperations.Domains.ExactPrices
import CommerceOperations.Decimals.Near

namespace CommerceOperations

namespace Pricing

open Decimals

/-! ## Amounts in range -/

/-- Amounts are taken between ten to the power of minus this and of this, so that quotients of two
    of them, and of those, stay within the exponents of the context. -/
def span : Int := 300000

/-- An amount that is zero or within the range. -/
def InRange (x : Rat) : Prop := Sized (-span) span x

/-- All amounts are in range, and so is what the target margin leaves of the price. -/
structure Ordinary (inputs : PricingInputs) (rules : CommercialPricingRules) : Prop where
  /-- the three costs are in range -/
  landedCost : InRange inputs.landedCost
  marketplaceFees : InRange inputs.marketplaceFees
  fulfilmentCosts : InRange inputs.fulfilmentCosts
  /-- the margin does not take all but a sliver of the price -/
  targetLeft : 10 ^ (-span) ≤ 1 - inputs.targetMargin
  /-- the prices and the increment are in range -/
  currentSellingPrice : ∀ price ∈ inputs.currentSellingPrice, InRange price
  minimumPrice : InRange rules.minimumPrice
  roundingIncrement : InRange rules.roundingIncrement

/-- The default context has limits. -/
theorem limits_default : defaultContext.limits = some defaultLimits := rfl

/-- The least exponent of the default context, as a number the arithmetic tactics see. -/
theorem emin_default : defaultLimits.emin = -999999 := rfl

/-- One rounding of the default context, that of 28 digits. -/
theorem unit_default : defaultLimits.unit = 1 / 10 ^ 27 := by
  unfold Limits.unit
  norm_num [defaultLimits]

/-- Results up to a power of ten within the exponents do not overflow. -/
theorem holds_default {x : Rat} {k : Int} (hk : 0 ≤ k) (hmax : k ≤ 999999) (h : |x| ≤ 10 ^ k) :
    defaultContext.Holds x := by
  refine Context.holds_of_abs_le hk ?_ h
  rintro _ ⟨⟩
  exact hmax

section Ranges

variable {low high : Int} {x : Rat}

/-- In a range of exponents that the context has, a result stays in the range. -/
theorem fix_sized (h : Sized low high x) (hlow : -999999 ≤ low) (hle : low ≤ high) :
    Sized low high (defaultContext.fix x) := h.fix limits_default hlow hle

/-- A result in that range is one rounding away from the exact one. -/
theorem near_fix (h : Sized low high x) (hlow : -999999 ≤ low) :
    Near defaultLimits.unit 1 (defaultContext.fix x) x := h.near limits_default hlow

/-- A number in that range does not overflow. -/
theorem holds_sized (h : Sized low high x) (hhigh : 0 ≤ high) (hmax : high ≤ 999999) :
    defaultContext.Holds x := by
  refine holds_default hhigh hmax ?_
  rw [abs_of_nonneg h.nonneg]
  exact h.le

end Ranges

/-! ## One rounding up -/

section NextMultiple

variable {value increment : Rat} {high : Int}

/-- The units of a value cover it but for one rounding. -/
theorem le_units (hvalue : Sized (-span) high value) (hincrement : InRange increment)
    (hpos : 0 < increment) :
    value ≤ units defaultContext value increment * increment * (1 + defaultLimits.unit) := by
  have hspan : span = 300000 := rfl
  have hquotient := hvalue.div hincrement hpos
  have hnear := near_fix hquotient (by omega)
  have hceil := Int.le_ceil (defaultContext.fix (value / increment))
  have hunit := defaultLimits.unit_pos
  rw [Near, pow_one] at hnear
  calc value = value / increment * increment := by field_simp
    _ ≤ defaultContext.fix (value / increment) * (1 + defaultLimits.unit) * increment := by
        have := hnear.2
        gcongr
    _ ≤ units defaultContext value increment * (1 + defaultLimits.unit) * increment := by
        unfold units
        gcongr
    _ = units defaultContext value increment * increment * (1 + defaultLimits.unit) := by ring

/-- A value that is not negative is rounded up to no negative number of units. -/
theorem units_nonneg (hvalue : 0 ≤ value) (hpos : 0 < increment) :
    0 ≤ units defaultContext value increment := by
  refine Int.ceil_nonneg ?_
  exact Context.fix_nonneg _ (div_nonneg hvalue hpos.le)

/-- The increments of the price are less than one too many for the floor, but for one rounding. -/
theorem units_lt (hvalue : Sized (-span) high value) (hincrement : InRange increment)
    (hpos : 0 < increment) :
    units defaultContext value increment * increment <
      value * (1 + defaultLimits.unit) + increment := by
  have hspan : span = 300000 := rfl
  have hquotient := hvalue.div hincrement hpos
  have hnear := near_fix hquotient (by omega)
  have hceil := Int.ceil_lt_add_one (defaultContext.fix (value / increment))
  rw [Near, pow_one] at hnear
  calc units defaultContext value increment * increment
      < (defaultContext.fix (value / increment) + 1) * increment := by
        unfold units
        gcongr
    _ ≤ (value / increment * (1 + defaultLimits.unit) + 1) * increment := by
        have := hnear.1
        gcongr
    _ = value * (1 + defaultLimits.unit) + increment := by field_simp

/-- A number of units that covers the value with a rounding to spare is not exceeded. -/
theorem units_le {n : Int} (hvalue : Sized (-span) high value) (hincrement : InRange increment)
    (hpos : 0 < increment)
    (h : value * (1 + defaultLimits.unit) ≤ n * increment) :
    units defaultContext value increment ≤ n := by
  have hspan : span = 300000 := rfl
  have hnear := near_fix (hvalue.div hincrement hpos) (by omega)
  rw [Near, pow_one] at hnear
  refine Int.ceil_le.mpr (hnear.1.trans ?_)
  rw [div_mul_eq_mul_div, div_le_iff₀ hpos]
  exact h

/-- A multiple that covers the floor exactly is not below the price, if it is a number of 28 digits.
    -/
theorem units_le_of_written {n : Int} (hpos : 0 < increment)
    (hwritten : defaultContext.fix n = n) (h : value ≤ n * increment) :
    units defaultContext value increment ≤ n := by
  refine Int.ceil_le.mpr (Context.fix_le hwritten ?_)
  rw [div_le_iff₀ hpos]
  exact h

/-- The multiple itself, before it is rounded. -/
theorem sized_units (hvalue : Sized (-span) high value) (hhigh : span ≤ high)
    (hincrement : InRange increment) (hpos : 0 < increment) :
    Sized (-span) (high + 1) (units defaultContext value increment * increment) := by
  have hspan : span = 300000 := rfl
  have hnonneg := units_nonneg hvalue.nonneg hpos
  rcases Int.lt_or_eq_of_le hnonneg with hunits | hzero
  · right
    have hone : (1 : Rat) ≤ units defaultContext value increment := by exact_mod_cast hunits
    constructor
    · calc (10 : Rat) ^ (-span) ≤ increment := hincrement.zpow_le hpos
        _ ≤ units defaultContext value increment * increment := le_mul_of_one_le_left hpos.le hone
    · have hlt := units_lt hvalue hincrement hpos
      have hten : (10 : Rat) ^ (high + 1) = 10 ^ high * 10 := zpow_add_one₀ (by norm_num) _
      have hincr : increment ≤ 10 ^ high :=
        hincrement.le.trans (zpow_le_zpow_right₀ (by norm_num) hhigh)
      have hunit : value * (1 + defaultLimits.unit) ≤ value * 2 := by
        have := defaultLimits.unit_le_one
        have := hvalue.nonneg
        gcongr
        linarith
      linarith [hvalue.le]
  · left
    rw [← hzero, Int.cast_zero, zero_mul]

/-- The multiple is in that range after its rounding. -/
theorem sized_nextMultiple (hvalue : Sized (-span) high value) (hhigh : span ≤ high)
    (hincrement : InRange increment) (hpos : 0 < increment) :
    Sized (-span) (high + 1) (nextMultiple defaultContext value increment) := by
  have hspan : span = 300000 := rfl
  exact fix_sized (sized_units hvalue hhigh hincrement hpos) (by omega) (by omega)

/-- After its rounding the multiple is one rounding away from what it was before. -/
theorem near_nextMultiple (hvalue : Sized (-span) high value) (hhigh : span ≤ high)
    (hincrement : InRange increment) (hpos : 0 < increment) :
    Near defaultLimits.unit 1 (nextMultiple defaultContext value increment)
      (units defaultContext value increment * increment) := by
  have hspan : span = 300000 := rfl
  exact near_fix (sized_units hvalue hhigh hincrement hpos) (by omega)

end NextMultiple

/-! ## The values of a calculation -/

section Values

variable {inputs : PricingInputs} {rules : CommercialPricingRules}

/-- A margin up to the target leaves something in range. -/
theorem sized_left (ho : Ordinary inputs rules) {margin : Rat} (hlow : 0 ≤ margin)
    (hmargin : margin ≤ inputs.targetMargin) :
    0 < 1 - margin ∧ Sized (-span) 0 (1 - margin) := by
  have hleft := ho.targetLeft
  have hpos : (0 : Rat) < 10 ^ (-span) := by positivity
  refine ⟨by linarith, .inr ⟨by linarith, ?_⟩⟩
  rw [zpow_zero]
  linarith

/-- The ranges of the two sums, and of the total cost.  Each sum may have one more digit in front.
    -/
theorem sized_cost (ho : Ordinary inputs rules) :
    Sized (-span) (span + 1) (inputs.landedCost + inputs.marketplaceFees) ∧
      Sized (-span) (span + 2)
        (defaultContext.fix (inputs.landedCost + inputs.marketplaceFees) +
          inputs.fulfilmentCosts) ∧
      Sized (-span) (span + 2) (roundedCost defaultContext inputs) := by
  have hspan : span = 300000 := rfl
  have hsum : Sized (-span) (span + 1) (inputs.landedCost + inputs.marketplaceFees) :=
    ho.landedCost.add ho.marketplaceFees
  have hfirst := fix_sized hsum (by omega) (by omega)
  have htotal := hfirst.add (ho.fulfilmentCosts.mono le_rfl (show span ≤ span + 1 by omega))
  rw [show span + 1 + 1 = span + 2 by omega] at htotal
  exact ⟨hsum, htotal, fix_sized htotal (by omega) (by omega)⟩

/-- The total cost is two roundings away from the exact one. -/
theorem near_cost (ho : Ordinary inputs rules) :
    Near defaultLimits.unit 2 (roundedCost defaultContext inputs) (cost inputs) := by
  have hspan : span = 300000 := rfl
  have hunit := defaultLimits.unit_pos.le
  obtain ⟨hsum, htotal, -⟩ := sized_cost ho
  have hfirst := near_fix hsum (by omega)
  have hfulfilment : Near defaultLimits.unit 1 inputs.fulfilmentCosts inputs.fulfilmentCosts :=
    (Near.refl _).mono hunit (by omega) ho.fulfilmentCosts.nonneg ho.fulfilmentCosts.nonneg
  exact (near_fix htotal (by omega)).trans hunit (hfirst.add hfulfilment)

/-- The range of the cost with a margin on it, and what the margin leaves is positive after its
    rounding. -/
theorem sized_withMargin (ho : Ordinary inputs rules) {margin : Rat} (hlow : 0 ≤ margin)
    (hmargin : margin ≤ inputs.targetMargin) :
    0 < defaultContext.fix (1 - margin) ∧
      Sized (-span) (2 * span + 2)
        (roundedCost defaultContext inputs / defaultContext.fix (1 - margin)) ∧
      Sized (-span) (2 * span + 2) (withMargin defaultContext inputs margin) := by
  have hspan : span = 300000 := rfl
  obtain ⟨hpos, hleft⟩ := sized_left ho hlow hmargin
  have hfix := fix_sized hleft (by omega) (by omega)
  have hfixpos := (near_fix hleft (by omega)).pos defaultLimits.unit_pos.le hpos
  have hquotient := (sized_cost ho).2.2.div hfix hfixpos
  rw [show -span - 0 = -span by omega, show span + 2 - -span = 2 * span + 2 by omega] at hquotient
  exact ⟨hfixpos, hquotient, fix_sized hquotient (by omega) (by omega)⟩

/-- The cost with a margin on it is four roundings away: two of the cost, one of what the margin
    leaves, one of the quotient. -/
theorem near_withMargin (h : Valid inputs rules) (ho : Ordinary inputs rules) {margin : Rat}
    (hlow : 0 ≤ margin) (hmargin : margin ≤ inputs.targetMargin) :
    Near defaultLimits.unit 4 (withMargin defaultContext inputs margin)
      (cost inputs / (1 - margin)) := by
  have hspan : span = 300000 := rfl
  have hunit := defaultLimits.unit_pos.le
  obtain ⟨hpos, hleft⟩ := sized_left ho hlow hmargin
  obtain ⟨hfixpos, hquotient, -⟩ := sized_withMargin ho hlow hmargin
  have hdiv := (near_cost ho).div hunit (near_fix hleft (by omega))
    (sized_cost ho).2.2.nonneg (cost_nonneg h) hfixpos hpos
  exact (near_fix hquotient (by omega)).trans hunit hdiv

/-- The range of what the floor is rounded up from. -/
theorem sized_floorValue (h : Valid inputs rules) (ho : Ordinary inputs rules) :
    Sized (-span) (2 * span + 2) (floorValue defaultContext inputs rules) := by
  have hspan : span = 300000 := rfl
  exact (sized_withMargin ho h.minimumMargin h.minimumMargin_le).2.2.max
    (ho.minimumPrice.mono le_rfl (by omega))

/-- The floor is four roundings away from its exact value, since a maximum is as near as its parts.
    -/
theorem near_floorValue (h : Valid inputs rules) (ho : Ordinary inputs rules) :
    Near defaultLimits.unit 4 (floorValue defaultContext inputs rules)
      (floorBound inputs rules) :=
  (near_withMargin h ho h.minimumMargin h.minimumMargin_le).max defaultLimits.unit_pos.le
    ((Near.refl _).mono defaultLimits.unit_pos.le (by omega) h.minimumPrice h.minimumPrice)

/-- The floor is in the range of the prices. -/
theorem sized_floorPrice (h : Valid inputs rules) (ho : Ordinary inputs rules) :
    Sized (-span) (2 * span + 3) (floorPrice defaultContext inputs rules) := by
  have hspan : span = 300000 := rfl
  exact (sized_nextMultiple (sized_floorValue h ho) (by omega) ho.roundingIncrement
    h.roundingIncrement).mono le_rfl (by omega)

/-- The range of what the price is rounded up from. -/
theorem sized_saleValue (h : Valid inputs rules) (ho : Ordinary inputs rules) :
    Sized (-span) (2 * span + 3) (saleValue defaultContext inputs rules) := by
  have hspan : span = 300000 := rfl
  have htarget := sized_withMargin ho (h.minimumMargin.trans h.minimumMargin_le) le_rfl
  exact (htarget.2.2.mono le_rfl (by omega)).max (sized_floorPrice h ho)

/-- The price is in the range of the prices. -/
theorem sized_salePrice (h : Valid inputs rules) (ho : Ordinary inputs rules) :
    Sized (-span) (2 * span + 4) (salePrice defaultContext inputs rules) := by
  have hspan : span = 300000 := rfl
  exact (sized_nextMultiple (sized_saleValue h ho) (by omega) ho.roundingIncrement
    h.roundingIncrement).mono le_rfl (by omega)

/-- The units of the recommended price. -/
def saleUnits (inputs : PricingInputs) (rules : CommercialPricingRules) : Int :=
  units defaultContext (saleValue defaultContext inputs rules) rules.roundingIncrement

/-- The price is one rounding away from its units. -/
theorem near_salePrice (h : Valid inputs rules) (ho : Ordinary inputs rules) :
    Near defaultLimits.unit 1 (salePrice defaultContext inputs rules)
      (saleUnits inputs rules * rules.roundingIncrement) := by
  have hspan : span = 300000 := rfl
  exact near_nextMultiple (sized_saleValue h ho) (by omega) ho.roundingIncrement
    h.roundingIncrement

/-- **Prices come out** of amounts in range: nothing overflows on the way to them.  For each of the
    results of `priceResults` by its range. -/
theorem priced_default (h : Valid inputs rules) (ho : Ordinary inputs rules) :
    Priced defaultContext inputs rules := by
  have hspan : span = 300000 := rfl
  obtain ⟨hsum, htotal, -⟩ := sized_cost ho
  have hminimum := sized_withMargin ho h.minimumMargin h.minimumMargin_le
  have htarget := sized_withMargin ho (h.minimumMargin.trans h.minimumMargin_le) le_rfl
  have hleftMinimum := (sized_left ho h.minimumMargin h.minimumMargin_le).2
  have hleftTarget := (sized_left ho (h.minimumMargin.trans h.minimumMargin_le) le_rfl).2
  have hfloor := sized_floorValue h ho
  have hsale := sized_saleValue h ho
  refine ⟨hminimum.1.ne', htarget.1.ne', ?_⟩
  simp only [priceResults, List.forall_mem_cons]
  refine ⟨holds_sized hsum ?_ ?_, holds_sized htotal ?_ ?_, holds_sized hleftMinimum ?_ ?_,
    holds_sized hminimum.2.1 ?_ ?_, holds_sized hleftTarget ?_ ?_,
    holds_sized htarget.2.1 ?_ ?_,
    holds_sized (hfloor.div ho.roundingIncrement h.roundingIncrement) ?_ ?_,
    holds_sized (sized_units hfloor ?_ ho.roundingIncrement h.roundingIncrement) ?_ ?_,
    holds_sized (hsale.div ho.roundingIncrement h.roundingIncrement) ?_ ?_,
    holds_sized (sized_units hsale ?_ ho.roundingIncrement h.roundingIncrement) ?_ ?_, by simp⟩
  all_goals omega

end Values

end Pricing

end CommerceOperations
