/-
  Decimal arithmetic as the General Decimal Arithmetic specification has it.

  A finite number is a rational: the specification keeps a coefficient and an exponent, but two
  representations of one value compare equal and give equal results, so the value is all that an
  arithmetic operation depends on.  A context limits the significant digits and the exponents of
  results.  Every operation gives the exact result rounded half-even to that many digits, with
  fewer digits below the least exponent, where results underflow to zero in the end, and it raises
  `Overflow` where the first digit of the rounded result is beyond the greatest exponent.
  `quantize` fails where its result would need too many digits.  Without limits the arithmetic is
  exact.

  The infinities and NaN are left out.  An operation gives an infinity only where it overflows or
  divides by zero, and both are raised as errors in every context here; NaN is only ever the result
  of an invalid operation, which is raised, too.  So neither can arise from finite operands.

  The crux is that rounding keeps the order (`Context.fix_mono`) and is idempotent
  (`Context.fix_fix`): bounds that the context can write survive every operation as they are, and
  no error has to be tracked for them.
-/
import Mathlib.Data.Rat.Floor
import Mathlib.Data.Int.Log
import Mathlib.Tactic.Linarith
import Mathlib.Tactic.FieldSimp
import Mathlib.Tactic.Positivity
import Mathlib.Tactic.GCongr
import Mathlib.Algebra.Order.Field.Power

namespace Decimals

/-! ## Rounding to integers, halves to even -/

/-- The nearest integer, and of two the even one. -/
def roundHalfEven (q : Rat) : Int :=
  let below := ⌊q⌋
  if q - below < 1 / 2 then below
  else if 1 / 2 < q - below then below + 1
  else if below % 2 = 0 then below
  else below + 1

/-- An integer is reached from the half below it on, and from that half itself only if it is even.
    Everything about the rounding follows. -/
theorem le_roundHalfEven {n : Int} {q : Rat} :
    n ≤ roundHalfEven q ↔ n < q + 1 / 2 ∨ n = q + 1 / 2 ∧ n % 2 = 0 := by
  have hlow : (⌊q⌋ : Rat) ≤ q := Int.floor_le q
  have hhigh : q < (⌊q⌋ : Rat) + 1 := Int.lt_floor_add_one q
  have hcast : ∀ {a b : Int}, (a : Rat) < b + 1 → a ≤ b := fun {a b} h => by
    have : (a : Rat) < ((b + 1 : Int) : Rat) := by push_cast; exact h
    have : a < b + 1 := by exact_mod_cast this
    omega
  unfold roundHalfEven
  dsimp only
  split
  · -- the fraction is below one half
    rename_i hlt
    constructor
    · intro h
      have : (n : Rat) ≤ ⌊q⌋ := by exact_mod_cast h
      left
      linarith
    · rintro (h | ⟨h, -⟩)
      · exact hcast (by linarith)
      · exact hcast (by linarith)
  · split
    · -- the fraction is above one half
      rename_i hge hgt
      constructor
      · intro h
        have : (n : Rat) ≤ ⌊q⌋ + 1 := by exact_mod_cast h
        left
        linarith
      · rintro (h | ⟨h, -⟩)
        · exact hcast (by push_cast; linarith)
        · exact hcast (by push_cast; linarith)
    · rename_i hge hgt
      -- exactly one half: of the two neighbours the even one is taken
      have hq : q = ⌊q⌋ + 1 / 2 := by linarith
      split
      · rename_i heven
        constructor
        · intro h
          have : (n : Rat) ≤ ⌊q⌋ := by exact_mod_cast h
          left
          linarith
        · rintro (h | ⟨h, hn⟩)
          · exact hcast (by linarith)
          · -- `n` is the odd neighbour above
            have : (n : Rat) = ((⌊q⌋ + 1 : Int) : Rat) := by push_cast; linarith
            have : n = ⌊q⌋ + 1 := by exact_mod_cast this
            omega
      · rename_i hodd
        constructor
        · intro h
          rcases Int.lt_or_eq_of_le h with h | h
          · have : (n : Rat) ≤ ⌊q⌋ := by exact_mod_cast Int.lt_add_one_iff.mp h
            left
            linarith
          · right
            have : (n : Rat) = ⌊q⌋ + 1 := by rw [h]; push_cast; rfl
            exact ⟨by linarith, by omega⟩
        · rintro (h | ⟨h, -⟩)
          · exact hcast (by push_cast; linarith)
          · exact hcast (by push_cast; linarith)

/-- The other side of `le_roundHalfEven`. -/
theorem roundHalfEven_lt {n : Int} {q : Rat} :
    roundHalfEven q < n ↔ q + 1 / 2 < n ∨ (n : Rat) = q + 1 / 2 ∧ n % 2 ≠ 0 := by
  rw [← not_le, le_roundHalfEven]
  constructor
  · intro h
    have hle : q + 1 / 2 ≤ n := not_lt.mp fun hlt => h (.inl hlt)
    rcases lt_or_eq_of_le hle with hlt | heq
    · exact .inl hlt
    · exact .inr ⟨heq.symm, fun heven => h (.inr ⟨heq.symm, heven⟩)⟩
  · rintro (h | ⟨h, hodd⟩) (h' | ⟨h', heven⟩)
    · linarith
    · linarith
    · linarith
    · exact hodd heven

/-- An integer is its own rounding. -/
@[simp] theorem roundHalfEven_intCast (n : Int) : roundHalfEven n = n := by
  refine le_antisymm ?_ (le_roundHalfEven.mpr (.inl (by linarith)))
  refine Int.lt_add_one_iff.mp (roundHalfEven_lt.mpr (.inl ?_))
  push_cast
  linarith

/-- Zero is a multiple of any unit, and stays. -/
@[simp] theorem roundHalfEven_zero : roundHalfEven 0 = 0 := by
  exact_mod_cast roundHalfEven_intCast 0

/-- Rounding keeps the order: an integer reached by the smaller number is reached by the larger one.
    -/
theorem roundHalfEven_mono {a b : Rat} (h : a ≤ b) : roundHalfEven a ≤ roundHalfEven b := by
  rcases le_roundHalfEven.mp (le_refl (roundHalfEven a)) with hlt | ⟨heq, heven⟩
  · exact le_roundHalfEven.mpr (.inl (by linarith))
  · rcases lt_or_eq_of_le h with hlt | rfl
    · exact le_roundHalfEven.mpr (.inl (by linarith))
    · exact le_rfl

/-- The rounding is off by a half at most. -/
theorem abs_roundHalfEven_sub (q : Rat) : |(roundHalfEven q : Rat) - q| ≤ 1 / 2 := by
  rw [abs_le]
  constructor
  · have h := roundHalfEven_lt.mp (Int.lt_add_one_iff.mpr (le_refl (roundHalfEven q)))
    push_cast at h
    rcases h with h | ⟨h, -⟩
    · linarith
    · linarith
  · rcases le_roundHalfEven.mp (le_refl (roundHalfEven q)) with h | ⟨h, -⟩
    · linarith
    · linarith

/-- Halves are rounded to even on either side of zero, so the sign can be taken out. -/
theorem roundHalfEven_neg (q : Rat) : roundHalfEven (-q) = -roundHalfEven q := by
  refine le_antisymm (Int.lt_add_one_iff.mp (roundHalfEven_lt.mpr ?_)) (le_roundHalfEven.mpr ?_)
  · push_cast
    rcases le_roundHalfEven.mp (le_refl (roundHalfEven q)) with h | ⟨h, heven⟩
    · left
      linarith
    · right
      exact ⟨by linarith, by omega⟩
  · have h := roundHalfEven_lt.mp (Int.lt_add_one_iff.mpr (le_refl (roundHalfEven q)))
    push_cast at h ⊢
    rcases h with h | ⟨h, hodd⟩
    · left
      linarith
    · right
      exact ⟨by linarith, by omega⟩

/-- The rounded number is below an even integer until the number is within a half of it. -/
theorem natAbs_roundHalfEven_lt {q : Rat} {n : Nat} (hn : n % 2 = 0) :
    (roundHalfEven q).natAbs < n ↔ |q| + 1 / 2 < n := by
  have hpos : ∀ q : Rat, roundHalfEven q < n ↔ q + 1 / 2 < n := by
    intro q
    rw [roundHalfEven_lt]
    constructor
    · rintro (h | ⟨-, hodd⟩)
      · exact_mod_cast h
      · omega
    · intro h
      exact .inl (by exact_mod_cast h)
  have h := hpos q
  have hneg := hpos (-q)
  rw [roundHalfEven_neg] at hneg
  constructor
  · intro hlt
    have h1 := h.mp (by omega)
    have h2 := hneg.mp (by omega)
    rcases abs_cases q with ⟨habs, -⟩ | ⟨habs, -⟩
    · rw [habs]
      exact h1
    · rw [habs]
      exact h2
  · intro hlt
    have h1 := h.mpr (lt_of_le_of_lt (by linarith [le_abs_self q]) hlt)
    have h2 := hneg.mpr (lt_of_le_of_lt (by linarith [neg_le_abs q]) hlt)
    omega

/-! ## Rounding to decimal places -/

/-- The nearest number with `places` decimals, halves to even. -/
def toPlaces (places : Nat) (x : Rat) : Rat := (roundHalfEven (x * 10 ^ places) : Rat) / 10 ^ places

/-- Rounding to places keeps the order, since scaling does. -/
theorem toPlaces_mono {places : Nat} {a b : Rat} (h : a ≤ b) :
    toPlaces places a ≤ toPlaces places b := by
  have hr := roundHalfEven_mono (show a * 10 ^ places ≤ b * 10 ^ places by gcongr)
  unfold toPlaces
  gcongr

/-- The sign can be taken out of it, too. -/
theorem abs_toPlaces {places : Nat} {x : Rat} : |toPlaces places x| = toPlaces places |x| := by
  have hpow : (0 : Rat) < 10 ^ places := by positivity
  unfold toPlaces
  rw [abs_div, abs_of_pos hpow]
  congr 1
  rcases le_total 0 x with h | h
  · have hround := roundHalfEven_mono (mul_nonneg h hpow.le)
    rw [roundHalfEven_zero] at hround
    rw [abs_of_nonneg h, abs_of_nonneg (by exact_mod_cast hround)]
  · have hround := roundHalfEven_mono (mul_nonpos_of_nonpos_of_nonneg h hpow.le)
    rw [roundHalfEven_zero] at hround
    rw [abs_of_nonpos h, neg_mul, roundHalfEven_neg, abs_of_nonpos (by exact_mod_cast hround)]
    push_cast
    rfl

/-- A number with that many decimals is left as it is. -/
theorem toPlaces_of_places {places : Nat} (n : Int) :
    toPlaces places ((n : Rat) / 10 ^ places) = n / 10 ^ places := by
  unfold toPlaces
  rw [div_mul_cancel₀ _ (by positivity), roundHalfEven_intCast]

/-- A bound survives the rounding down of a number if a rounded one lies between them. -/
theorem le_toPlaces_iff {places : Nat} {bound x : Rat} (h : bound ≤ x) :
    bound ≤ toPlaces places x ↔
      (toPlaces places x < x → ∃ n : Int, bound ≤ n / 10 ^ places ∧ n / 10 ^ places ≤ x) := by
  constructor
  · intro hle hlt
    exact ⟨roundHalfEven (x * 10 ^ places), hle, hlt.le⟩
  · intro hbetween
    rcases lt_or_ge (toPlaces places x) x with hlt | hge
    · obtain ⟨n, hn, hnx⟩ := hbetween hlt
      have := @toPlaces_mono places _ _ hnx
      rw [toPlaces_of_places] at this
      exact hn.trans this
    · exact h.trans hge

/-- A bound from above survives the rounding up of a number if a rounded one lies between them. -/
theorem toPlaces_le_iff {places : Nat} {bound x : Rat} (h : x ≤ bound) :
    toPlaces places x ≤ bound ↔
      (x < toPlaces places x → ∃ n : Int, x ≤ n / 10 ^ places ∧ n / 10 ^ places ≤ bound) := by
  constructor
  · intro hle hlt
    exact ⟨roundHalfEven (x * 10 ^ places), hlt.le, hle⟩
  · intro hbetween
    rcases lt_or_ge x (toPlaces places x) with hlt | hge
    · obtain ⟨n, hxn, hn⟩ := hbetween hlt
      have := @toPlaces_mono places _ _ hxn
      rw [toPlaces_of_places] at this
      exact this.trans hn
    · exact hge.trans h

/-! ## Multiples -/

/-- The next multiple of `step`, at or above `x`. -/
def leastMultiple (x step : Rat) : Rat := ⌈x / step⌉ * step

/-- The next multiple is not below the number. -/
theorem le_leastMultiple {x step : Rat} (h : 0 < step) : x ≤ leastMultiple x step := by
  unfold leastMultiple
  rw [← div_le_iff₀ h]
  exact Int.le_ceil _

/-- No multiple below it reaches `x`. -/
theorem leastMultiple_le {x step : Rat} (h : 0 < step) {n : Int} :
    leastMultiple x step ≤ n * step ↔ x ≤ n * step := by
  constructor
  · exact fun hle => (le_leastMultiple h).trans hle
  · intro hx
    have : ⌈x / step⌉ ≤ n := Int.ceil_le.mpr ((div_le_iff₀ h).mpr hx)
    unfold leastMultiple
    gcongr

/-- Rounding up twice is rounding up once.  The maximum of a number and a multiple has the next
    multiple it would have without the first rounding. -/
theorem leastMultiple_max {x y step : Rat} (h : 0 < step) :
    leastMultiple (max x (leastMultiple y step)) step = leastMultiple (max x y) step := by
  refine le_antisymm ?_ ?_
  · refine (leastMultiple_le h).mpr (max_le ?_ ?_)
    · exact (le_max_left x y).trans (le_leastMultiple h)
    · exact (leastMultiple_le h).mpr ((le_max_right x y).trans (le_leastMultiple h))
  · refine (leastMultiple_le h).mpr (max_le ?_ ?_)
    · exact (le_max_left _ _).trans (le_leastMultiple h)
    · exact (le_leastMultiple h).trans ((le_max_right _ _).trans (le_leastMultiple h))

/-- A larger number has a larger next multiple, or the same. -/
theorem leastMultiple_mono {x y step : Rat} (h : 0 < step) (hxy : x ≤ y) :
    leastMultiple x step ≤ leastMultiple y step :=
  (leastMultiple_le h).mpr (hxy.trans (le_leastMultiple h))

/-! ## Contexts

The size of a number is the exponent of its first digit, which the specification calls the
adjusted exponent: the integer part of the logarithm to base ten. -/

/-- The limits of a context: how many significant digits a result has, and the least and the
    greatest exponent its first digit may have without losing digits or overflowing.  `Emin` is
    not positive and `Emax` not negative in every context that can be made. -/
structure Limits where
  /-- `prec` -/
  digits : Nat
  /-- `Emin` -/
  emin : Int
  /-- `Emax` -/
  emax : Int
  /-- a context has at least one digit -/
  digits_pos : 0 < digits
  /-- the number one is not too small for it -/
  emin_nonpos : emin ≤ 0
  /-- nor too large -/
  emax_nonneg : 0 ≤ emax

/-- `Etiny`: the last place that a result can have a digit in. -/
def Limits.etiny (l : Limits) : Int := l.emin - l.digits + 1

/-- The exponent that the digits of a result are counted from: that of the first digit, but no
    less than `Emin`.  Below `Emin` the places stay where they are and digits are lost. -/
def Limits.exponent (l : Limits) (x : Rat) : Int := max (Int.log 10 |x|) l.emin

/-- A decimal context: its limits, if it has any. -/
structure Context where
  limits : Option Limits

/-- Exact arithmetic, as a context: no digit is lost and no exponent is out of range. -/
def Context.exact : Context := ⟨none⟩

/-- The signals that are raised as errors. -/
inductive Signal where
  | divisionByZero | divisionUndefined | invalidOperation | overflow
  deriving DecidableEq

namespace Context

/-- The exact result `x` of an operation, rounded as the context has it. -/
def fix (c : Context) (x : Rat) : Rat :=
  match c.limits with
  | none => x
  | some l =>
    -- the digits behind the point; there are fewer than none where the last ones are dropped
    let places : Int := l.digits - 1 - l.exponent x
    (roundHalfEven (x * 10 ^ places) : Rat) / 10 ^ places

/-- The rounded result is within the exponents of the context. -/
def Holds (c : Context) (x : Rat) : Prop := ∀ l ∈ c.limits, Int.log 10 |c.fix x| ≤ l.emax

instance (c : Context) (x : Rat) : Decidable (c.Holds x) :=
  inferInstanceAs (Decidable (∀ l ∈ c.limits, Int.log 10 |c.fix x| ≤ l.emax))

/-- The result of an operation: `x` rounded, or an overflow.  An underflow is no error here, as it
    only rounds. -/
def round (c : Context) (x : Rat) : Except Signal Rat :=
  if c.Holds x then .ok (c.fix x) else .error .overflow

/-- A quotient.  Zero by zero is undefined, everything else by zero infinite. -/
def divide (c : Context) (x y : Rat) : Except Signal Rat :=
  if y = 0 then .error (if x = 0 then .divisionUndefined else .divisionByZero)
  else c.round (x / y)

/-- `x` with the given number of digits behind the point.  The three conditions are those of the
    specification: the digits fit, the last place is one the context has, and the first digit is in
    range. -/
def quantize (c : Context) (places : Nat) (x : Rat) : Except Signal Rat :=
  let coefficient := roundHalfEven (x * 10 ^ places)
  if c.limits.all fun l => coefficient.natAbs < 10 ^ l.digits ∧ l.etiny ≤ -(places : Int) ∧
      Int.log 10 |toPlaces places x| ≤ l.emax then
    .ok (toPlaces places x)
  else .error .invalidOperation

/-- What it is for an operation to give a result: the result is the rounded number, and it is in
    range. -/
theorem round_eq_ok {c : Context} {x y : Rat} :
    c.round x = .ok y ↔ c.Holds x ∧ c.fix x = y := by
  unfold round
  split
  · rename_i h
    constructor
    · rintro ⟨⟩
      exact ⟨h, rfl⟩
    · rintro ⟨-, rfl⟩
      rfl
  · rename_i h
    constructor
    · intro h'
      cases h'
    · intro h'
      exact absurd h'.1 h

/-- A quotient by something else than zero is an operation like any other. -/
theorem divide_of_ne_zero {c : Context} {x y : Rat} (h : y ≠ 0) :
    c.divide x y = c.round (x / y) := if_neg h

/-- In exact arithmetic nothing is rounded. -/
@[simp] theorem fix_exact (x : Rat) : exact.fix x = x := rfl

/-- In exact arithmetic nothing overflows. -/
theorem holds_exact (x : Rat) : exact.Holds x := by
  rintro _ ⟨⟩

/-- Zero has no digits to lose in any context. -/
@[simp] theorem fix_zero (c : Context) : c.fix 0 = 0 := by
  unfold fix
  split
  · rfl
  · simp

/-- The sign does not matter for the rounding. -/
theorem fix_neg (c : Context) (x : Rat) : c.fix (-x) = -c.fix x := by
  unfold fix
  split
  · rfl
  · unfold Limits.exponent
    dsimp only
    rw [abs_neg, neg_mul, roundHalfEven_neg]
    push_cast
    exact neg_div _ _

/-! ### Limited contexts -/

section Limited

variable {c : Context} {l : Limits}

/-- The rounding of a context with limits, without the match on them. -/
theorem fix_eq (hc : c.limits = some l) (x : Rat) :
    c.fix x = (roundHalfEven (x * 10 ^ ((l.digits : Int) - 1 - l.exponent x)) : Rat) /
      10 ^ ((l.digits : Int) - 1 - l.exponent x) := by
  unfold fix
  rw [hc]

/-- From `Emin` on the digits are counted from the first one. -/
theorem exponent_of_normal {x : Rat} (h : l.emin ≤ Int.log 10 |x|) :
    l.exponent x = Int.log 10 |x| := max_eq_left h

/-- Every number is below the power of ten after its exponent. -/
theorem abs_lt_zpow_exponent (l : Limits) (x : Rat) : |x| < (10 : Rat) ^ (l.exponent x + 1) := by
  have hlog : |x| < ((10 : Nat) : Rat) ^ (Int.log 10 |x| + 1) :=
    Int.lt_zpow_succ_log_self (by norm_num) |x|
  rw [Nat.cast_ofNat] at hlog
  have hle : Int.log 10 |x| ≤ l.exponent x := le_max_left _ _
  exact lt_of_lt_of_le hlog (zpow_le_zpow_right₀ (by norm_num) (by omega))

/-- The coefficient of a result has the digits of the context, or is the power of ten after
    them: 9.99 becomes 10.0. -/
theorem natAbs_coefficient_le (l : Limits) (x : Rat) :
    (roundHalfEven (x * 10 ^ ((l.digits : Int) - 1 - l.exponent x))).natAbs ≤ 10 ^ l.digits := by
  set places : Int := (l.digits : Int) - 1 - l.exponent x with hplaces
  have hpos : (0 : Rat) < 10 ^ places := by positivity
  have hbound : |x * 10 ^ places| ≤ ((10 ^ l.digits : Int) : Rat) := by
    rw [abs_mul, abs_of_pos hpos]
    calc |x| * 10 ^ places
        ≤ 10 ^ (l.exponent x + 1) * 10 ^ places := by
          gcongr
          exact (abs_lt_zpow_exponent l x).le
      _ = ((10 ^ l.digits : Int) : Rat) := by
          rw [← zpow_add₀ (by norm_num), show l.exponent x + 1 + places = (l.digits : Int) by omega,
            zpow_natCast]
          push_cast
          rfl
  have hhigh := roundHalfEven_mono (abs_le.mp hbound).2
  have hlow := roundHalfEven_mono (abs_le.mp hbound).1
  rw [roundHalfEven_neg, roundHalfEven_intCast] at hlow
  rw [roundHalfEven_intCast] at hhigh
  have : ((10 ^ l.digits : Nat) : Int) = 10 ^ l.digits := by push_cast; rfl
  omega

/-- The result does not pass the power of ten after the exponent. -/
theorem fix_le_zpow_exponent (hc : c.limits = some l) (x : Rat) :
    c.fix x ≤ (10 : Rat) ^ (l.exponent x + 1) := by
  have hcoefficient := natAbs_coefficient_le l x
  rw [fix_eq hc]
  set places : Int := (l.digits : Int) - 1 - l.exponent x with hplaces
  have hpos : (0 : Rat) < 10 ^ places := by positivity
  have hle : roundHalfEven (x * 10 ^ places) ≤ ((10 ^ l.digits : Nat) : Int) := by omega
  rw [div_le_iff₀ hpos, ← zpow_add₀ (by norm_num),
    show l.exponent x + 1 + places = (l.digits : Int) by omega, zpow_natCast]
  exact_mod_cast hle

/-- From `Emin` on the power of ten below `x` is below the result, too. -/
theorem zpow_log_le_fix (hc : c.limits = some l) {x : Rat} (hx : 0 < x)
    (hnormal : l.emin ≤ Int.log 10 x) : (10 : Rat) ^ Int.log 10 x ≤ c.fix x := by
  have hlog : ((10 : Nat) : Rat) ^ Int.log 10 x ≤ x := Int.zpow_log_le_self (by norm_num) hx
  rw [Nat.cast_ofNat] at hlog
  have hdigits := l.digits_pos
  have hexponent : l.exponent x = Int.log 10 x := by
    have := exponent_of_normal (l := l) (x := x) (by rwa [abs_of_pos hx])
    rwa [abs_of_pos hx] at this
  rw [fix_eq hc, hexponent]
  set places : Int := (l.digits : Int) - 1 - Int.log 10 x with hplaces
  have hpos : (0 : Rat) < 10 ^ places := by positivity
  rw [le_div_iff₀ hpos, ← zpow_add₀ (by norm_num)]
  have hsum : Int.log 10 x + places = ((l.digits - 1 : Nat) : Int) := by omega
  have hpow : (10 : Rat) ^ (Int.log 10 x + places) = ((10 ^ (l.digits - 1) : Int) : Rat) := by
    rw [hsum, zpow_natCast]
    push_cast
    rfl
  rw [hpow]
  have hle : ((10 ^ (l.digits - 1) : Int) : Rat) ≤ x * 10 ^ places := by
    rw [← hpow, zpow_add₀ (by norm_num)]
    exact mul_le_mul_of_nonneg_right hlog hpos.le
  have h := roundHalfEven_mono hle
  rw [roundHalfEven_intCast] at h
  exact_mod_cast h

/-- The result is off by half a unit in its last place at most. -/
theorem abs_fix_sub_le (hc : c.limits = some l) (x : Rat) :
    |c.fix x - x| ≤ 10 ^ (l.exponent x - l.digits + 1) / 2 := by
  rw [fix_eq hc]
  set places : Int := (l.digits : Int) - 1 - l.exponent x with hplaces
  have hpos : (0 : Rat) < 10 ^ places := by positivity
  have hsplit : (roundHalfEven (x * 10 ^ places) : Rat) / 10 ^ places - x =
      ((roundHalfEven (x * 10 ^ places) : Rat) - x * 10 ^ places) / 10 ^ places := by
    field_simp
  have hunit : (10 : Rat) ^ (l.exponent x - l.digits + 1) * 10 ^ places = 1 := by
    rw [← zpow_add₀ (by norm_num), show l.exponent x - l.digits + 1 + places = 0 by omega,
      zpow_zero]
  rw [hsplit, abs_div, abs_of_pos hpos, div_le_iff₀ hpos]
  calc |(roundHalfEven (x * 10 ^ places) : Rat) - x * 10 ^ places| ≤ 1 / 2 :=
        abs_roundHalfEven_sub _
    _ = 10 ^ (l.exponent x - l.digits + 1) / 2 * 10 ^ places := by
        rw [← hunit]
        ring

/-- Rounding to significant digits keeps the order. -/
theorem fix_mono_pos (hc : c.limits = some l) {x y : Rat} (hx : 0 < x) (h : x ≤ y) :
    c.fix x ≤ c.fix y := by
  have hy : 0 < y := lt_of_lt_of_le hx h
  have hlog : Int.log 10 |x| ≤ Int.log 10 |y| := by
    rw [abs_of_pos hx, abs_of_pos hy]
    exact Int.log_mono_right hx h
  have hle : l.exponent x ≤ l.exponent y := max_le_max_right _ hlog
  rcases Int.lt_or_eq_of_le hle with hlt | heq
  · -- the exponent of `y` is above that of `x`, so a power of ten lies between the results
    have hnormal : l.exponent y = Int.log 10 y := by
      unfold Limits.exponent at hlt ⊢
      rw [abs_of_pos hy] at hlt ⊢
      omega
    have hemin : l.emin ≤ Int.log 10 y := by
      rw [← hnormal]
      exact le_max_right _ _
    calc c.fix x ≤ 10 ^ (l.exponent x + 1) := fix_le_zpow_exponent hc x
      _ ≤ 10 ^ Int.log 10 y := zpow_le_zpow_right₀ (by norm_num) (by omega)
      _ ≤ c.fix y := zpow_log_le_fix hc hy hemin
  · rw [fix_eq hc, fix_eq hc, heq]
    gcongr
    exact roundHalfEven_mono (by gcongr)

end Limited

/-- A result has no other sign than the number. -/
theorem fix_nonneg (c : Context) {x : Rat} (h : 0 ≤ x) : 0 ≤ c.fix x := by
  cases hc : c.limits with
  | none =>
    unfold fix
    rw [hc]
    exact h
  | some l =>
    rw [fix_eq hc]
    have hround := roundHalfEven_mono (show 0 ≤ x * 10 ^ ((l.digits : Int) - 1 - l.exponent x) by
      positivity)
    rw [roundHalfEven_zero] at hround
    have : (0 : Rat) ≤ roundHalfEven (x * 10 ^ ((l.digits : Int) - 1 - l.exponent x)) := by
      exact_mod_cast hround
    positivity

/-- Rounding keeps the order.  For positive numbers by their exponents: with the same exponent the
    digits are compared, and with different ones a power of ten lies between the results. -/
theorem fix_mono (c : Context) {x y : Rat} (h : x ≤ y) : c.fix x ≤ c.fix y := by
  cases hc : c.limits with
  | none =>
    unfold fix
    rw [hc]
    exact h
  | some l =>
    rcases lt_or_ge 0 x with hx | hx
    · exact fix_mono_pos hc hx h
    rcases le_or_gt 0 y with hy | hy
    · -- a result keeps the sign of its number
      have hneg := c.fix_nonneg (show 0 ≤ -x by linarith)
      rw [fix_neg] at hneg
      linarith [c.fix_nonneg hy]
    · have h' := fix_mono_pos hc (x := -y) (y := -x) (by linarith) (by linarith)
      rw [fix_neg, fix_neg] at h'
      linarith

/-- A number that is written with the digits of the context, none of them behind the last place, is
    left as it is. -/
theorem fix_of_scaled {c : Context} {n exponent : Int}
    (hc : ∀ l ∈ c.limits, n.natAbs ≤ 10 ^ l.digits ∧ l.etiny ≤ exponent) :
    c.fix (n * 10 ^ exponent) = n * 10 ^ exponent := by
  rcases eq_or_ne n 0 with rfl | hne
  · rw [Int.cast_zero, zero_mul, fix_zero]
  cases hp : c.limits with
  | none =>
    unfold fix
    rw [hp]
  | some l =>
    obtain ⟨hn, hlow⟩ := hc l (by rw [hp]; rfl)
    have hdigits := l.digits_pos
    rw [fix_eq hp]
    set x : Rat := n * 10 ^ exponent with hx
    set places : Int := (l.digits : Int) - 1 - l.exponent x with hplaces
    have hpos : (0 : Rat) < 10 ^ places := by positivity
    have habs : |x| = n.natAbs * 10 ^ exponent := by
      rw [hx, abs_mul, abs_of_pos (show (0 : Rat) < 10 ^ exponent by positivity), Nat.cast_natAbs,
        Int.cast_abs]
    have hxpos : 0 < |x| := by
      rw [habs]
      have : 0 < n.natAbs := Int.natAbs_pos.mpr hne
      positivity
    -- with that many places behind the point it is an integer
    obtain ⟨k, hk⟩ : ∃ k : Int, x * 10 ^ places = k := by
      rw [hx, mul_assoc, ← zpow_add₀ (by norm_num)]
      rcases Int.lt_or_le (exponent + places) 0 with hneg | hnonneg
      · -- one place too many: only for the power of ten that has one digit more
        have hexponent : (l.digits : Int) + exponent ≤ Int.log 10 |x| := by
          have hcount : l.exponent x = max (Int.log 10 |x|) l.emin := rfl
          unfold Limits.etiny at hlow
          omega
        have hfull : n.natAbs = 10 ^ l.digits := by
          refine le_antisymm hn ?_
          have hle : ((10 : Nat) : Rat) ^ ((l.digits : Int) + exponent) ≤ |x| :=
            (Int.zpow_le_iff_le_log (by norm_num) hxpos).mpr hexponent
          rw [habs, Nat.cast_ofNat, zpow_add₀ (by norm_num), zpow_natCast] at hle
          have : (10 : Rat) ^ l.digits ≤ n.natAbs :=
            le_of_mul_le_mul_right hle (by positivity)
          exact_mod_cast this
        have hlog : Int.log 10 |x| = l.digits + exponent := by
          have hpower : |x| = ((10 : Nat) : Rat) ^ ((l.digits : Int) + exponent) := by
            rw [habs, hfull, Nat.cast_ofNat, zpow_add₀ (by norm_num), zpow_natCast]
            push_cast
            rfl
          rw [hpower, Int.log_zpow (by norm_num)]
        obtain ⟨k, rfl⟩ : 10 ∣ n := by
          rw [← Int.dvd_natAbs, hfull]
          push_cast
          exact dvd_pow_self 10 (by omega)
        have hcount : l.exponent x = max (Int.log 10 |x|) l.emin := rfl
        have hlast : exponent + places = -1 := by
          unfold Limits.etiny at hlow
          omega
        refine ⟨k, ?_⟩
        rw [hlast]
        push_cast
        ring
      · refine ⟨n * 10 ^ (exponent + places).toNat, ?_⟩
        have : (10 : Rat) ^ (exponent + places) = 10 ^ (exponent + places).toNat := by
          rw [← zpow_natCast, Int.toNat_of_nonneg hnonneg]
        rw [this]
        push_cast
        rfl
    rw [hk, roundHalfEven_intCast, ← hk]
    field_simp

/-- Rounding twice is rounding once, since a result is written with the digits of the context. -/
theorem fix_fix (c : Context) (x : Rat) : c.fix (c.fix x) = c.fix x := by
  cases hp : c.limits with
  | none =>
    unfold fix
    rw [hp]
  | some l =>
    have hshape : c.fix x = (roundHalfEven (x * 10 ^ ((l.digits : Int) - 1 - l.exponent x)) : Rat) *
        10 ^ (-((l.digits : Int) - 1 - l.exponent x)) := by
      rw [fix_eq hp, zpow_neg, div_eq_mul_inv]
    rw [hshape]
    refine fix_of_scaled ?_
    intro l' hl'
    rw [hp] at hl'
    cases hl'
    refine ⟨natAbs_coefficient_le l x, ?_⟩
    have : l.emin ≤ l.exponent x := le_max_right _ _
    unfold Limits.etiny
    omega

/-- The absolute value may be rounded as well. -/
theorem abs_fix (c : Context) (x : Rat) : |c.fix x| = c.fix |x| := by
  rcases le_total 0 x with h | h
  · rw [abs_of_nonneg h, abs_of_nonneg (c.fix_nonneg h)]
  · have hneg := c.fix_nonneg (show 0 ≤ -x by linarith)
    rw [abs_of_nonpos h, fix_neg]
    rw [fix_neg] at hneg
    rw [abs_of_nonpos (by linarith)]

/-- A result does not pass a bound that the context can write. -/
theorem fix_le {c : Context} {x y : Rat} (hy : c.fix y = y) (h : x ≤ y) : c.fix x ≤ y :=
  hy ▸ c.fix_mono h

/-- A result does not fall below a bound that the context can write. -/
theorem le_fix {c : Context} {x y : Rat} (hy : c.fix y = y) (h : y ≤ x) : y ≤ c.fix x :=
  hy ▸ c.fix_mono h

/-- A bound that is a number of the context holds after rounding if it held before, on both sides of
    zero. -/
theorem abs_fix_le {c : Context} {x y : Rat} (hy : c.fix y = y) (h : |x| ≤ y) : |c.fix x| ≤ y := by
  rw [abs_fix]
  exact fix_le hy h

/-- A result within such a bound does not overflow. -/
theorem holds_of_abs_le {c : Context} {x : Rat} {k : Int} (hk : 0 ≤ k)
    (hc : ∀ l ∈ c.limits, k ≤ l.emax) (h : |x| ≤ 10 ^ k) : c.Holds x := by
  intro l hl
  have hemax := hc l hl
  have hwritten : c.fix (10 ^ k) = 10 ^ k := by
    have hscaled := @fix_of_scaled c 1 k
      (fun l' _ => by
        have := l'.emin_nonpos
        have := l'.digits_pos
        refine ⟨Nat.one_le_pow _ _ (by norm_num), ?_⟩
        unfold Limits.etiny
        omega)
    simpa using hscaled
  have hfix : |c.fix x| ≤ 10 ^ k := abs_fix_le hwritten h
  rcases eq_or_ne (c.fix x) 0 with hzero | hne
  · rw [hzero, abs_zero, Int.log_zero_right]
    exact l.emax_nonneg
  · have hlog := Int.log_mono_right (b := 10) (abs_pos.mpr hne) hfix
    have hpower : Int.log 10 ((10 : Rat) ^ k) = k := by
      have := Int.log_zpow (R := Rat) (b := 10) (by norm_num) k
      rwa [Nat.cast_ofNat] at this
    omega

end Context

end Decimals
