/-
  Prices in exact arithmetic.

  The recommended price is the least multiple of the increment above all three bounds, although the
  code rounds up twice.  The four decimals of the result are another matter: they are rounded to
  the nearest, so an increment that has more of them can lose the floor.

  `Admissible` states the purpose: the prices the rules allow, as a set of numbers.  That the price
  is the least of them (`isLeast_salePrice`) gives the rest: it is refused where even the least
  admissible price exceeds the maximum, and it grows with every cost because a dearer request admits
  less.
-/
import CommerceOperations.Domains.PriceBounds

namespace CommerceOperations

namespace Pricing

open Decimals

/-! ## The least admissible price -/

/-- All costs of a unit: the landed cost, the fees and the fulfilment. -/
def cost (inputs : PricingInputs) : Rat :=
  inputs.landedCost + inputs.marketplaceFees + inputs.fulfilmentCosts

/-- The least price the rules allow. -/
def floorBound (inputs : PricingInputs) (rules : CommercialPricingRules) : Rat :=
  max (cost inputs / (1 - inputs.minimumMargin)) rules.minimumPrice

/-- The price that reaches the target margin. -/
def targetBound (inputs : PricingInputs) : Rat := cost inputs / (1 - inputs.targetMargin)

/-- The next multiple above the first bound, which is the floor. -/
def floorMultiple (inputs : PricingInputs) (rules : CommercialPricingRules) : Rat :=
  leastMultiple (floorBound inputs rules) rules.roundingIncrement

/-- The next multiple above both bounds, which is the price. -/
def saleMultiple (inputs : PricingInputs) (rules : CommercialPricingRules) : Rat :=
  leastMultiple (max (targetBound inputs) (floorBound inputs rules)) rules.roundingIncrement

/-- The multiples of the increment that keep both margins and the commercial minimum. -/
def Admissible (inputs : PricingInputs) (rules : CommercialPricingRules) : Set Rat :=
  {price | (∃ n : Int, price = n * rules.roundingIncrement) ∧
    cost inputs / (1 - inputs.targetMargin) ≤ price ∧
    cost inputs / (1 - inputs.minimumMargin) ≤ price ∧ rules.minimumPrice ≤ price}

section Valid

variable {inputs : PricingInputs} {rules : CommercialPricingRules}

/-- The second rounding up changes nothing. -/
theorem salePrice_exact (h : Valid inputs rules) :
    salePrice .exact inputs rules = saleMultiple inputs rules :=
  leastMultiple_max h.roundingIncrement

/-- The costs of valid inputs are not negative. -/
theorem cost_nonneg (h : Valid inputs rules) : 0 ≤ cost inputs :=
  add_nonneg (add_nonneg h.landedCost h.marketplaceFees) h.fulfilmentCosts

/-- **The price is the least admissible one.**  A multiple is admissible exactly if it is above both
    bounds, and the next multiple is the least of those. -/
theorem isLeast_salePrice (h : Valid inputs rules) :
    IsLeast (Admissible inputs rules) (salePrice .exact inputs rules) := by
  rw [salePrice_exact h]
  have hle := le_leastMultiple (x := max (targetBound inputs) (floorBound inputs rules))
    h.roundingIncrement
  obtain ⟨htarget, hfloor⟩ := max_le_iff.mp hle
  obtain ⟨hmargin, hminimum⟩ := max_le_iff.mp hfloor
  constructor
  · exact ⟨⟨_, rfl⟩, htarget, hmargin, hminimum⟩
  · rintro _ ⟨⟨n, rfl⟩, htarget, hmargin, hminimum⟩
    exact (leastMultiple_le h.roundingIncrement).mpr (max_le htarget (max_le hmargin hminimum))

/-- The price is positive as soon as something costs something or has a minimum. -/
theorem salePrice_pos (h : Valid inputs rules) (hpos : 0 < cost inputs ∨ 0 < rules.minimumPrice) :
    0 < salePrice .exact inputs rules := by
  obtain ⟨⟨-, htarget, -, hminimum⟩, -⟩ := isLeast_salePrice h
  rcases hpos with hcost | hpos
  · refine lt_of_lt_of_le (div_pos hcost ?_) htarget
    have := h.targetMargin_lt
    linarith
  · exact lt_of_lt_of_le hpos hminimum

/-- In exact arithmetic no operation up to the prices fails: the margins are below one. -/
theorem priced_exact (h : Valid inputs rules) : Priced .exact inputs rules := by
  have htarget := h.targetMargin_lt
  have hminimum := h.minimumMargin_le
  refine ⟨?_, ?_, fun x _ => Context.holds_exact x⟩
  · rw [Context.fix_exact]
    linarith
  · rw [Context.fix_exact]
    linarith

/-- In exact arithmetic there is room for every figure, so only a price of zero has none. -/
theorem figured_exact {price : Rat} (h : price ≠ 0) : Figured .exact inputs rules price :=
  ⟨h, fun x _ => Context.holds_exact x, fun _ _ x _ => Context.holds_exact x,
    fun _ _ _ hlimits => nomatch hlimits⟩

/-- In exact arithmetic the calculation is a comparison with the maximum: a refusal, or the result
    made of the price. -/
theorem calculatePrice_exact (h : Valid inputs rules)
    (hpos : 0 < cost inputs ∨ 0 < rules.minimumPrice) :
    let price := salePrice .exact inputs rules
    Exceeds rules price ∧ calculatePrice .exact inputs rules =
        .error (.raised .pricingValidationError maximumPriceMessage) ∨
      ¬ Exceeds rules price ∧
        calculatePrice .exact inputs rules = .ok (calculation .exact inputs rules price) := by
  intro price
  by_cases hmax : Exceeds rules price
  · exact .inl ⟨hmax, calculatePrice_eq_exceeds h (priced_exact h) hmax⟩
  · exact .inr ⟨hmax, calculatePrice_eq_ok.mpr
      ⟨h, priced_exact h, hmax, figured_exact (salePrice_pos h hpos).ne', rfl⟩⟩

end Valid

/-- The second request costs as much in every respect, under the same increment. -/
structure Dearer (inputs : PricingInputs) (rules : CommercialPricingRules)
    (inputs' : PricingInputs) (rules' : CommercialPricingRules) : Prop where
  landedCost : inputs.landedCost ≤ inputs'.landedCost
  marketplaceFees : inputs.marketplaceFees ≤ inputs'.marketplaceFees
  fulfilmentCosts : inputs.fulfilmentCosts ≤ inputs'.fulfilmentCosts
  targetMargin : inputs.targetMargin ≤ inputs'.targetMargin
  minimumMargin : inputs.minimumMargin ≤ inputs'.minimumMargin
  minimumPrice : rules.minimumPrice ≤ rules'.minimumPrice
  roundingIncrement : rules.roundingIncrement = rules'.roundingIncrement

/-- What the dearer request admits, the cheaper one admits. -/
theorem Dearer.admissible {inputs inputs' : PricingInputs} {rules rules' : CommercialPricingRules}
    (h : Dearer inputs rules inputs' rules') (hv' : Valid inputs' rules') :
    Admissible inputs' rules' ⊆ Admissible inputs rules := by
  have hcost : cost inputs ≤ cost inputs' :=
    add_le_add (add_le_add h.landedCost h.marketplaceFees) h.fulfilmentCosts
  have htarget := hv'.targetMargin_lt
  have hminimum := hv'.minimumMargin_le
  rintro price ⟨⟨n, hn⟩, h1, h2, h3⟩
  refine ⟨⟨n, hn.trans (by rw [h.roundingIncrement])⟩, ?_, ?_, h.minimumPrice.trans h3⟩
  · refine le_trans (div_le_div₀ (cost_nonneg hv') hcost ?_ ?_) h1
    · linarith
    · linarith [h.targetMargin]
  · refine le_trans (div_le_div₀ (cost_nonneg hv') hcost ?_ ?_) h2
    · linarith
    · linarith [h.minimumMargin]

/-- Where everything is dearer the least price is no lower. -/
theorem Dearer.salePrice_le {inputs inputs' : PricingInputs}
    {rules rules' : CommercialPricingRules} (h : Dearer inputs rules inputs' rules')
    (hv : Valid inputs rules) (hv' : Valid inputs' rules') :
    salePrice .exact inputs rules ≤ salePrice .exact inputs' rules' :=
  (isLeast_salePrice hv).2 (h.admissible hv' (isLeast_salePrice hv').1)

/-- **The least admissible price** is what the code recommends: it is refused exactly where it
    exceeds the maximum, it is returned as it is under an increment of whole ten-thousandths, and
    it grows with every cost, margin and minimum. -/
theorem recommended_isLeast {inputs : PricingInputs} {rules : CommercialPricingRules}
    (hv : validate inputs rules = .ok ())
    (hpos : 0 < cost inputs ∨ 0 < rules.minimumPrice) :
    ∃ minimum recommended, prices .exact inputs rules = .ok (minimum, recommended) ∧
      IsLeast (Admissible inputs rules) recommended ∧
      (calculatePrice .exact inputs rules =
          .error (.raised .pricingValidationError maximumPriceMessage) ↔
        ∃ maximum ∈ rules.maximumPrice, maximum < recommended) ∧
      ((¬ ∃ maximum ∈ rules.maximumPrice, maximum < recommended) →
        ∃ r, calculatePrice .exact inputs rules = .ok r ∧
          ((∃ n : Int, rules.roundingIncrement = n / 10000) →
            r.recommendedSellingPrice = recommended)) ∧
      ∀ inputs' rules', validate inputs' rules' = .ok () → Dearer inputs rules inputs' rules' →
        (∀ minimum' recommended', prices .exact inputs' rules' = .ok (minimum', recommended') →
          recommended ≤ recommended') ∧
        ∀ r r', calculatePrice .exact inputs rules = .ok r →
          calculatePrice .exact inputs' rules' = .ok r' →
          r.recommendedSellingPrice ≤ r'.recommendedSellingPrice := by
  have h := validate_eq_ok.mp hv
  refine ⟨_, _, (prices_eq_ok h.roundingIncrement).mpr ⟨priced_exact h, rfl⟩,
    isLeast_salePrice h, ?_, ?_, ?_⟩
  · rcases calculatePrice_exact h hpos with ⟨hmax, hr⟩ | ⟨hmax, hr⟩
    · exact ⟨fun _ => hmax, fun _ => hr⟩
    · rw [hr]
      exact ⟨fun h' => (nomatch h'), fun h' => absurd h' hmax⟩
  · intro hmax
    rcases calculatePrice_exact h hpos with ⟨hmax', -⟩ | ⟨-, hr⟩
    · exact absurd hmax' hmax
    · refine ⟨_, hr, ?_⟩
      rintro ⟨n, hn⟩
      obtain ⟨⟨⟨k, hk⟩, -⟩, -⟩ := isLeast_salePrice h
      show toPlaces 4 (salePrice .exact inputs rules) = salePrice .exact inputs rules
      have hplaces : salePrice .exact inputs rules = ((k * n : Int) : Rat) / 10 ^ 4 := by
        rw [hk, hn]
        push_cast
        ring
      rw [hplaces, toPlaces_of_places]
  · intro inputs' rules' hv' hdearer
    have h' := validate_eq_ok.mp hv'
    constructor
    · intro minimum' recommended' hprices
      obtain ⟨-, hpair⟩ := (prices_eq_ok h'.roundingIncrement).mp hprices
      cases hpair
      exact hdearer.salePrice_le h h'
    · intro r r' hr hr'
      obtain ⟨-, -, rfl⟩ := eq_calculation hr
      obtain ⟨-, -, rfl⟩ := eq_calculation hr'
      exact toPlaces_mono (hdearer.salePrice_le h h')

/-- A product that costs eight, with a target margin of 30% and a minimum of 20%. -/
def mug : PricingInputs where
  landedCost := 6
  marketplaceFees := 1
  fulfilmentCosts := 1
  targetMargin := 3 / 10
  minimumMargin := 1 / 5
  currentSellingPrice := some 12

/-- For a mug with the default rules. -/
theorem recommended_isLeast_mug : ∃ minimum recommended,
    prices .exact mug {} = .ok (minimum, recommended) ∧ IsLeast (Admissible mug {}) recommended ∧
      ∃ r, calculatePrice .exact mug {} = .ok r ∧ r.recommendedSellingPrice = recommended := by
  obtain ⟨minimum, recommended, hprices, hleast, -, hreturns, -⟩ :=
    @recommended_isLeast mug {} (by decide +kernel) (.inl (by decide +kernel))
  obtain ⟨r, hr, hequal⟩ := hreturns fun ⟨_, hmax, _⟩ => nomatch hmax
  exact ⟨minimum, recommended, hprices, hleast, r, hr, hequal ⟨100, by norm_num⟩⟩

/-! ## The floor in the result -/

/-- The returned prices keep both margins, the commercial minimum and the cap. -/
structure FloorKept (inputs : PricingInputs) (rules : CommercialPricingRules)
    (r : PricingCalculation) : Prop where
  ordered : r.minimumSellingPrice ≤ r.recommendedSellingPrice
  floor : max (cost inputs / (1 - inputs.minimumMargin)) rules.minimumPrice ≤
    r.minimumSellingPrice
  target : cost inputs / (1 - inputs.targetMargin) ≤ r.recommendedSellingPrice
  maximum : ∀ maximum ∈ rules.maximumPrice, r.recommendedSellingPrice ≤ maximum

/-- An amount of four decimals lies between `low` and `high`. -/
def TenThousandthBetween (low high : Rat) : Prop := ∃ n : Int, low ≤ n / 10 ^ 4 ∧ n / 10 ^ 4 ≤ high

/-- The least multiple above the floor, or above all bounds, may move to the nearest four-decimal
    amount without passing the bound on that side. -/
structure RoundsSafely (inputs : PricingInputs) (rules : CommercialPricingRules) : Prop where
  floor : toPlaces 4 (floorMultiple inputs rules) < floorMultiple inputs rules →
    TenThousandthBetween (floorBound inputs rules) (floorMultiple inputs rules)
  target : toPlaces 4 (saleMultiple inputs rules) < saleMultiple inputs rules →
    TenThousandthBetween (targetBound inputs) (saleMultiple inputs rules)
  maximum : ∀ maximum ∈ rules.maximumPrice,
    saleMultiple inputs rules < toPlaces 4 (saleMultiple inputs rules) →
      TenThousandthBetween (saleMultiple inputs rules) maximum

/-- The floor of a result is kept exactly if the rounding to four decimals is safe.  The order of
    the two prices needs nothing, since rounding keeps it; each of the other bounds is one condition
    of `RoundsSafely`. -/
theorem floorKept_iff_roundsSafely {inputs : PricingInputs} {rules : CommercialPricingRules}
    {r : PricingCalculation} (hr : calculatePrice .exact inputs rules = .ok r) :
    FloorKept inputs rules r ↔ RoundsSafely inputs rules := by
  obtain ⟨h, hmax, rfl⟩ := eq_calculation hr
  have hfloor : floorBound inputs rules ≤ floorMultiple inputs rules :=
    le_leastMultiple h.roundingIncrement
  have htarget : targetBound inputs ≤ saleMultiple inputs rules :=
    (le_max_left _ _).trans (le_leastMultiple h.roundingIncrement)
  have hcap : ∀ maximum ∈ rules.maximumPrice, saleMultiple inputs rules ≤ maximum := by
    intro maximum hmaximum
    rw [← salePrice_exact h]
    exact not_lt.mp fun hlt => hmax ⟨maximum, hmaximum, hlt⟩
  have hrecommended : (calculation .exact inputs rules
      (salePrice .exact inputs rules)).recommendedSellingPrice =
        toPlaces 4 (saleMultiple inputs rules) := by
    rw [← salePrice_exact h]
    rfl
  constructor
  · rintro ⟨-, h1, h2, h3⟩
    rw [hrecommended] at h2 h3
    refine ⟨(le_toPlaces_iff hfloor).mp h1, (le_toPlaces_iff htarget).mp h2, ?_⟩
    intro maximum hmaximum
    exact (toPlaces_le_iff (hcap maximum hmaximum)).mp (h3 maximum hmaximum)
  · rintro ⟨h1, h2, h3⟩
    refine ⟨?_, (le_toPlaces_iff hfloor).mpr h1, ?_, ?_⟩
    · rw [hrecommended]
      exact toPlaces_mono (leastMultiple_mono h.roundingIncrement (le_max_right _ _))
    · rw [hrecommended]
      exact (le_toPlaces_iff htarget).mpr h2
    · intro maximum hmaximum
      rw [hrecommended]
      exact (toPlaces_le_iff (hcap maximum hmaximum)).mpr (h3 maximum hmaximum)

/-- A multiple of ten-thousandths is not moved. -/
theorem toPlaces_leastMultiple {x increment : Rat} (h : ∃ n : Int, increment = n / 10000) :
    toPlaces 4 (leastMultiple x increment) = leastMultiple x increment := by
  obtain ⟨n, rfl⟩ := h
  have hplaces : leastMultiple x (n / 10000) = ((⌈x / (n / 10000)⌉ * n : Int) : Rat) / 10 ^ 4 := by
    unfold leastMultiple
    push_cast
    ring
  rw [hplaces, toPlaces_of_places]

/-- Under an increment of whole ten-thousandths nothing is rounded, so it is safe. -/
theorem roundsSafely_of_tenThousandths {inputs : PricingInputs} {rules : CommercialPricingRules}
    (h : ∃ n : Int, rules.roundingIncrement = n / 10000) : RoundsSafely inputs rules := by
  refine ⟨?_, ?_, ?_⟩
  · intro hlt
    exact absurd (toPlaces_leastMultiple h) hlt.ne
  · intro hlt
    exact absurd (toPlaces_leastMultiple h) hlt.ne
  · intro maximum _ hlt
    exact absurd (toPlaces_leastMultiple h) hlt.ne'

/-- A product without costs, to be sold at exactly one increment. -/
def gift : PricingInputs where
  landedCost := 0
  marketplaceFees := 0
  fulfilmentCosts := 0
  targetMargin := 0
  minimumMargin := 0
  currentSellingPrice := none

/-- The minimum and the maximum are the increment. -/
def giftRules (increment : Rat) : CommercialPricingRules where
  minimumPrice := increment
  maximumPrice := some increment
  roundingIncrement := increment

/-- The gift of the samples has a result, whatever the increment is: its prices are the increment,
    so they leave no room on either side. -/
theorem gift_returned {increment : Rat} (h : 0 < increment) :
    ∃ r, calculatePrice .exact gift (giftRules increment) = .ok r := by
  have hv : Valid gift (giftRules increment) := by
    refine ⟨le_rfl, le_rfl, le_rfl, le_rfl, le_rfl, zero_lt_one, fun _ h' => (nomatch h'), h.le,
      ?_, h, ?_⟩
    · rintro _ ⟨⟩
      exact le_rfl
    · show (0 : Rat) < 10
      norm_num
  have hprice : salePrice .exact gift (giftRules increment) ≤ increment := by
    refine (isLeast_salePrice hv).2 ⟨⟨1, ?_⟩, ?_, ?_, le_rfl⟩
    · show increment = ((1 : Int) : Rat) * increment
      push_cast
      ring
    · show ((0 : Rat) + 0 + 0) / (1 - 0) ≤ increment
      rw [add_zero, add_zero, zero_div]
      exact h.le
    · show ((0 : Rat) + 0 + 0) / (1 - 0) ≤ increment
      rw [add_zero, add_zero, zero_div]
      exact h.le
  rcases calculatePrice_exact hv (.inr h) with ⟨⟨_, ⟨⟩, hlt⟩, -⟩ | ⟨-, hr⟩
  · exact absurd hprice (not_le.mpr hlt)
  · exact ⟨_, hr⟩

/-- **The floor** is kept in a result if and only if rounding it to four decimals is safe; under an
    increment of whole ten-thousandths it always is, and under any other it is not. -/
theorem floor_kept_iff {increment : Rat} (hincrement : 0 < increment) :
    (∀ inputs rules r, rules.roundingIncrement = increment →
      calculatePrice .exact inputs rules = .ok r →
      (FloorKept inputs rules r ↔ RoundsSafely inputs rules)) ∧
    ((∀ inputs rules r, rules.roundingIncrement = increment →
      calculatePrice .exact inputs rules = .ok r → FloorKept inputs rules r) ↔
      ∃ n : Int, increment = n / 10000) := by
  refine ⟨fun inputs rules r _ hr => floorKept_iff_roundsSafely hr, ?_, ?_⟩
  · intro hall
    obtain ⟨r, hr⟩ := gift_returned hincrement
    obtain ⟨hordered, hfloor, -, hmaximum⟩ := hall gift (giftRules increment) r rfl hr
    obtain ⟨hv, -, rfl⟩ := eq_calculation hr
    -- the recommended price is between the minimum and the maximum, and both are the increment
    have hlow : increment ≤ toPlaces 4 (salePrice .exact gift (giftRules increment)) :=
      (le_max_right _ _).trans (hfloor.trans hordered)
    have hhigh : toPlaces 4 (salePrice .exact gift (giftRules increment)) ≤ increment :=
      hmaximum increment rfl
    obtain ⟨n, hn⟩ : ∃ n : Int,
        toPlaces 4 (salePrice .exact gift (giftRules increment)) = n / 10 ^ 4 := ⟨_, rfl⟩
    refine ⟨n, ?_⟩
    rw [hn] at hlow hhigh
    norm_num at hlow hhigh
    exact le_antisymm hlow hhigh
  · rintro h inputs rules r rfl hr
    exact (floorKept_iff_roundsSafely hr).mpr (roundsSafely_of_tenThousandths h)

/-- The mug of the samples keeps its floor. -/
theorem floor_kept_mug : ∃ r, calculatePrice .exact mug {} = .ok r ∧ FloorKept mug {} r := by
  obtain ⟨_, _, _, _, r, hr, _⟩ := recommended_isLeast_mug
  exact ⟨r, hr, ((@floor_kept_iff (1 / 100) (by norm_num)).2.mpr ⟨100, by norm_num⟩)
    mug {} r rfl hr⟩

/-- One unit at a cost of one, with a margin of 10%, in steps of a hundred-thousandth: the floor is
    1.1111.., the price 1.11112, and the result says 1.1111. -/
theorem floor_lost : ¬ ∀ inputs rules r, calculatePrice .exact inputs rules = .ok r →
    FloorKept inputs rules r := by
  intro hall
  have h := hall { gift with landedCost := 1, targetMargin := 1 / 10, minimumMargin := 1 / 10 }
    { roundingIncrement := 1 / 100000 }
    { grossProfit := 1111 / 10000
      contributionProfit := 1111 / 10000
      marginPercentage := 100007 / 10000
      roiPercentage := some (11112 / 1000)
      minimumSellingPrice := 11111 / 10000
      recommendedSellingPrice := 11111 / 10000
      priceChangePercentage := none
      withinAutomaticBoundary := true } (by decide +kernel)
  have hfloor := (le_max_left _ _).trans h.floor
  norm_num [cost, gift] at hfloor

end Pricing

end CommerceOperations
