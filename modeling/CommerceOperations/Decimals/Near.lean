/-
  Relative closeness, counted in roundings.

  Two nonnegative numbers are near, `k` roundings apart, when each is at most `(1 + u) ^ k` times
  the other, where `u` is the unit of the arithmetic.  The operations on nonnegative numbers keep
  the count or add to it, so the error of a formula is read off its shape: no constant has to be
  chosen before the end, where one inequality between powers is left.

  The crux is that the relation is symmetric.  A bound on `|x - y|` relative to `y` is not one
  relative to `x`, and quotients then need both; the two-sided product form divides as it
  multiplies.

  A rounding in a limited context is one step of the relation, as long as nothing underflows.  That
  is what the ranges of exponents (`Sized`) are for: they bound a number between two powers of ten,
  follow it through the operations, and say of each result that it neither underflows nor
  overflows.
-/
import CommerceOperations.Decimals.Context
import Mathlib.Algebra.Order.Field.Basic
import Mathlib.Tactic.Ring
import Mathlib.Tactic.FieldSimp
import Mathlib.Tactic.Positivity
import Mathlib.Tactic.GCongr
import Mathlib.Tactic.Linarith

namespace Decimals

variable {K : Type*} [Field K] [LinearOrder K] [IsStrictOrderedRing K] {u : K} {j k : ℕ}
  {x y z a b : K}

/-- `x` and `y` are `k` roundings apart. -/
def Near (u : K) (k : ℕ) (x y : K) : Prop := x ≤ y * (1 + u) ^ k ∧ y ≤ x * (1 + u) ^ k

namespace Near

omit [IsStrictOrderedRing K] in
/-- A number is no rounding away from itself. -/
theorem refl (x : K) : Near u 0 x x := by
  unfold Near
  simp

/-- A number that is near another is also farther from it. -/
theorem mono (hu : 0 ≤ u) (h : Near u j x y) (hjk : j ≤ k) (hx : 0 ≤ x) (hy : 0 ≤ y) :
    Near u k x y := by
  have hpow : (1 + u) ^ j ≤ (1 + u) ^ k := pow_le_pow_right₀ (by linarith) hjk
  exact ⟨h.1.trans (by gcongr), h.2.trans (by gcongr)⟩

/-- The roundings of two steps are added. -/
theorem trans (hu : 0 ≤ u) (h : Near u j x y) (h' : Near u k y z) : Near u (j + k) x z := by
  have hj : (0 : K) < (1 + u) ^ j := by positivity
  have hk : (0 : K) < (1 + u) ^ k := by positivity
  constructor
  · calc x ≤ y * (1 + u) ^ j := h.1
      _ ≤ z * (1 + u) ^ k * (1 + u) ^ j := by
          have := h'.1
          gcongr
      _ = z * (1 + u) ^ (j + k) := by rw [pow_add]; ring
  · calc z ≤ y * (1 + u) ^ k := h'.2
      _ ≤ x * (1 + u) ^ j * (1 + u) ^ k := by
          have := h.2
          gcongr
      _ = x * (1 + u) ^ (j + k) := by rw [pow_add]; ring

/-- Sums are as near as their parts. -/
theorem add (h : Near u k x y) (h' : Near u k a b) : Near u k (x + a) (y + b) := by
  constructor
  · linarith [h.1, h'.1, add_mul y b ((1 + u) ^ k)]
  · linarith [h.2, h'.2, add_mul x a ((1 + u) ^ k)]

/-- A factor that is the same on both sides changes nothing. -/
theorem mul_right (h : Near u k x y) (ha : 0 ≤ a) : Near u k (x * a) (y * a) := by
  constructor
  · calc x * a ≤ y * (1 + u) ^ k * a := mul_le_mul_of_nonneg_right h.1 ha
      _ = y * a * (1 + u) ^ k := by ring
  · calc y * a ≤ x * (1 + u) ^ k * a := mul_le_mul_of_nonneg_right h.2 ha
      _ = x * a * (1 + u) ^ k := by ring

/-- A quotient adds the roundings of its divisor. -/
theorem div (hu : 0 ≤ u) (h : Near u j x y) (h' : Near u k a b) (hx : 0 ≤ x) (hy : 0 ≤ y)
    (ha : 0 < a) (hb : 0 < b) : Near u (j + k) (x / a) (y / b) := by
  have hj : (0 : K) < (1 + u) ^ j := by positivity
  have hk : (0 : K) < (1 + u) ^ k := by positivity
  rw [Near, pow_add]
  constructor
  · rw [div_le_iff₀ ha]
    calc x ≤ y * (1 + u) ^ j := h.1
      _ = y / b * (1 + u) ^ j * b := by field_simp
      _ ≤ y / b * (1 + u) ^ j * (a * (1 + u) ^ k) := by
          have := h'.2
          gcongr
      _ = y / b * ((1 + u) ^ j * (1 + u) ^ k) * a := by ring
  · rw [div_le_iff₀ hb]
    calc y ≤ x * (1 + u) ^ j := h.2
      _ = x / a * (1 + u) ^ j * a := by field_simp
      _ ≤ x / a * (1 + u) ^ j * (b * (1 + u) ^ k) := by
          have := h'.1
          gcongr
      _ = x / a * ((1 + u) ^ j * (1 + u) ^ k) * b := by ring

/-- The larger of two numbers is as near as they are. -/
theorem max (hu : 0 ≤ u) (h : Near u k x y) (h' : Near u k a b) :
    Near u k (max x a) (max y b) := by
  have hk : (0 : K) ≤ (1 + u) ^ k := by positivity
  constructor
  · rw [max_mul_of_nonneg _ _ hk]
    exact max_le_max h.1 h'.1
  · rw [max_mul_of_nonneg _ _ hk]
    exact max_le_max h.2 h'.2

/-- A number that is near a positive one is positive. -/
theorem pos (hu : 0 ≤ u) (h : Near u k x y) (hy : 0 < y) : 0 < x := by
  have hk : (0 : K) < (1 + u) ^ k := by positivity
  exact (mul_pos_iff_of_pos_right hk).mp (lt_of_lt_of_le hy h.2)

end Near

/-! ## One rounding -/

/-- The unit of a context: a one in the last of its digits, for a number between one and ten. -/
def Limits.unit (l : Limits) : Rat := 10 ^ (1 - (l.digits : Int))

/-- One rounding in a context is a positive fraction. -/
theorem Limits.unit_pos (l : Limits) : 0 < l.unit := by
  unfold Limits.unit
  positivity

/-- One rounding is a whole at most, which it is for a context with a single digit. -/
theorem Limits.unit_le_one (l : Limits) : l.unit ≤ 1 := by
  have hdigits := l.digits_pos
  exact zpow_le_one_of_nonpos₀ (by norm_num) (by omega)

/-- Where there is no underflow a result is one rounding away from the exact one.  What is cut off
    is half a unit in the last place at most; the first digit is not zero, so that is half a unit of
    the number. -/
theorem Context.near_fix {c : Context} {l : Limits} (hc : c.limits = some l) {x : Rat}
    (hx : (10 : Rat) ^ l.emin ≤ x) : Near l.unit 1 (c.fix x) x := by
  have hpos : 0 < x := lt_of_lt_of_le (by positivity) hx
  have hnormal : l.emin ≤ Int.log 10 |x| := by
    rw [abs_of_pos hpos]
    refine (Int.zpow_le_iff_le_log (by norm_num) hpos).mp ?_
    rw [Nat.cast_ofNat]
    exact hx
  have hlog : ((10 : Nat) : Rat) ^ Int.log 10 x ≤ x := Int.zpow_log_le_self (by norm_num) hpos
  rw [Nat.cast_ofNat] at hlog
  have herr := Context.abs_fix_sub_le hc x
  rw [Context.exponent_of_normal hnormal, abs_of_pos hpos] at herr
  have hsplit : (10 : Rat) ^ (Int.log 10 x - l.digits + 1) = 10 ^ Int.log 10 x * l.unit := by
    unfold Limits.unit
    rw [← zpow_add₀ (by norm_num)]
    congr 1
    omega
  have hunit := l.unit_pos
  have hone := l.unit_le_one
  have hbound : (10 : Rat) ^ Int.log 10 x * l.unit ≤ x * l.unit := by gcongr
  rw [hsplit] at herr
  obtain ⟨hlow, hhigh⟩ := abs_le.mp herr
  constructor
  · rw [pow_one]
    linarith
  · -- `(1 - u / 2) * (1 + u)` is at least one
    have hfix : x * (1 - l.unit / 2) ≤ c.fix x := by linarith
    calc x ≤ x * (1 + l.unit * (1 - l.unit) / 2) :=
          le_mul_of_one_le_right hpos.le (by nlinarith)
      _ = x * (1 - l.unit / 2) * (1 + l.unit) := by ring
      _ ≤ c.fix x * (1 + l.unit) ^ 1 := by
          rw [pow_one]
          gcongr

/-! ## Ranges of exponents -/

/-- `x` is zero, or lies between two powers of ten. -/
def Sized (low high : Int) (x : Rat) : Prop := x = 0 ∨ 10 ^ low ≤ x ∧ x ≤ 10 ^ high

namespace Sized

variable {low high low' high' : Int} {x y : Rat}

/-- A number in a range is not negative. -/
theorem nonneg (h : Sized low high x) : 0 ≤ x := by
  rcases h with rfl | ⟨h, -⟩
  · exact le_rfl
  · exact le_trans (by positivity) h

/-- A number in the range does not pass the upper power of ten. -/
theorem le (h : Sized low high x) : x ≤ 10 ^ high := by
  rcases h with rfl | ⟨-, h⟩
  · positivity
  · exact h

/-- The lower power of ten bounds what is not zero. -/
theorem zpow_le (h : Sized low high x) (hx : 0 < x) : 10 ^ low ≤ x := by
  rcases h with rfl | ⟨h, -⟩
  · exact absurd hx (lt_irrefl 0)
  · exact h

/-- A number in a range is in a wider one. -/
theorem mono (h : Sized low high x) (hlow : low' ≤ low) (hhigh : high ≤ high') :
    Sized low' high' x := by
  rcases h with h | ⟨h1, h2⟩
  · exact .inl h
  · exact .inr ⟨(zpow_le_zpow_right₀ (by norm_num) hlow).trans h1,
      h2.trans (zpow_le_zpow_right₀ (by norm_num) hhigh)⟩

/-- A sum may have one digit more in front. -/
theorem add (h : Sized low high x) (h' : Sized low high y) : Sized low (high + 1) (x + y) := by
  have hsum : x + y ≤ 10 ^ (high + 1) := by
    have hten : (10 : Rat) ^ (high + 1) = 10 ^ high * 10 := zpow_add_one₀ (by norm_num) _
    have hpos : (0 : Rat) < 10 ^ high := by positivity
    linarith [h.le, h'.le]
  rcases eq_or_lt_of_le h.nonneg with hx | hx
  · rw [← hx, zero_add] at hsum ⊢
    rcases eq_or_lt_of_le h'.nonneg with hy | hy
    · exact .inl hy.symm
    · exact .inr ⟨h'.zpow_le hy, hsum⟩
  · exact .inr ⟨(h.zpow_le hx).trans (le_add_of_nonneg_right h'.nonneg), hsum⟩

/-- A quotient is between the quotients of the powers. -/
theorem div (h : Sized low high x) (h' : Sized low' high' y) (hy : 0 < y) :
    Sized (low - high') (high - low') (x / y) := by
  rcases eq_or_lt_of_le h.nonneg with hx | hx
  · rw [← hx, zero_div]
    exact .inl rfl
  · right
    rw [zpow_sub₀ (by norm_num), zpow_sub₀ (by norm_num)]
    exact ⟨div_le_div₀ hx.le (h.zpow_le hx) hy h'.le,
      div_le_div₀ (by positivity) h.le (by positivity) (h'.zpow_le hy)⟩

/-- A shift of the point moves the range with the number. -/
theorem scale (h : Sized low high x) (k : Int) : Sized (low + k) (high + k) (x * 10 ^ k) := by
  rcases h with rfl | ⟨h1, h2⟩
  · rw [zero_mul]
    exact .inl rfl
  · right
    rw [zpow_add₀ (by norm_num), zpow_add₀ (by norm_num)]
    exact ⟨by gcongr, by gcongr⟩

/-- The larger of two numbers is in their range. -/
theorem max (h : Sized low high x) (h' : Sized low high y) : Sized low high (max x y) := by
  rcases le_total x y with hxy | hxy
  · rwa [max_eq_right hxy]
  · rwa [max_eq_left hxy]

section Context

variable {c : Context} {l : Limits}

/-- A power of ten is written with one digit. -/
theorem fix_zpow (hc : c.limits = some l) {k : Int} (hk : l.emin ≤ k) :
    c.fix (10 ^ k) = 10 ^ k := by
  have hdigits := l.digits_pos
  have hscaled := @Context.fix_of_scaled c 1 k (fun l' hl' => by
    rw [hc] at hl'
    cases hl'
    refine ⟨Nat.one_le_pow _ _ (by norm_num), ?_⟩
    unfold Limits.etiny
    omega)
  simpa using hscaled

/-- Rounding stays within the same powers of ten. -/
theorem fix (h : Sized low high x) (hc : c.limits = some l) (hlow : l.emin ≤ low)
    (hle : low ≤ high) : Sized low high (c.fix x) := by
  rcases eq_or_lt_of_le h.nonneg with hx | hx
  · rw [← hx, Context.fix_zero]
    exact .inl rfl
  · exact .inr ⟨Context.le_fix (fix_zpow hc hlow) (h.zpow_le hx),
      Context.fix_le (fix_zpow hc (hlow.trans hle)) h.le⟩

/-- In the range of the context a result is one rounding away from the exact one, or both are zero.
    -/
theorem near (h : Sized low high x) (hc : c.limits = some l) (hlow : l.emin ≤ low) :
    Near l.unit 1 (c.fix x) x := by
  rcases eq_or_lt_of_le h.nonneg with hx | hx
  · rw [← hx, Context.fix_zero]
    exact (Near.refl 0).mono l.unit_pos.le (by omega) le_rfl le_rfl
  · exact Context.near_fix hc
      ((zpow_le_zpow_right₀ (by norm_num) hlow).trans (h.zpow_le hx))

end Context

end Sized

end Decimals
