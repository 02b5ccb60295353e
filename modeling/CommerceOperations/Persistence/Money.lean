/-
  The rounding of the money columns: it keeps the order, and leaves amounts of four decimals as
  they are.
-/
import CommerceOperations.Persistence.Enums
import Mathlib.Tactic.Linarith
import Mathlib.Tactic.Ring
import Mathlib.Tactic.NormNum
import Mathlib.Algebra.Order.Field.Basic

namespace CommerceOperations

/-! ## Amounts of four decimals -/

/-- An amount with four decimals, as a money column stores it. -/
def IsMoney (q : Rat) : Prop := ∃ k : Int, q = k / 10000

namespace IsMoney

variable {p q : Rat}

/-- Nothing is an amount of four decimals. -/
theorem zero : IsMoney 0 := ⟨0, by norm_num⟩

/-- A sum of two amounts has four decimals. -/
theorem add (hp : IsMoney p) (hq : IsMoney q) : IsMoney (p + q) := by
  obtain ⟨k, rfl⟩ := hp
  obtain ⟨l, rfl⟩ := hq
  exact ⟨k + l, by push_cast; ring⟩

/-- A whole multiple of an amount has four decimals, so a line total is stored without being
    rounded. -/
theorem mul_int (hp : IsMoney p) (n : Int) : IsMoney (p * n) := by
  obtain ⟨k, rfl⟩ := hp
  exact ⟨k * n, by push_cast; ring⟩

end IsMoney

/-- What is rounded to four decimals has four decimals. -/
theorem isMoney_money (q : Rat) : IsMoney (money q) := ⟨roundHalfAway (q * 10000), rfl⟩

/-- A whole number is rounded to itself. -/
theorem roundHalfAway_intCast (k : Int) : roundHalfAway (k : Rat) = k := by
  unfold roundHalfAway
  split
  · have hle : k ≤ ((k : Rat) + 1 / 2).floor := Rat.le_floor_iff.mpr (by linarith)
    have hlt : ((k : Rat) + 1 / 2).floor < k + 1 := Rat.floor_lt_iff.mpr (by push_cast; linarith)
    omega
  · have hle : ((k : Rat) - 1 / 2).ceil ≤ k := Rat.ceil_le_iff.mpr (by linarith)
    have hlt : k - 1 < ((k : Rat) - 1 / 2).ceil := Rat.lt_ceil_iff.mpr (by push_cast; linarith)
    omega

/-- An amount with four decimals is stored as it is. -/
theorem IsMoney.money_eq {q : Rat} (h : IsMoney q) : money q = q := by
  obtain ⟨k, rfl⟩ := h
  unfold money
  rw [div_mul_cancel₀ _ (by norm_num), roundHalfAway_intCast]

/-! ## Order -/

/-- Rounding keeps the order.  The two cases are the two signs, since halves are rounded away from
    zero on either side. -/
theorem roundHalfAway_mono {p q : Rat} (h : p ≤ q) : roundHalfAway p ≤ roundHalfAway q := by
  unfold roundHalfAway
  split
  · rename_i hp
    rw [if_pos (hp.trans h)]
    exact Rat.floor_monotone (by linarith)
  · rename_i hp
    split
    · -- a negative number is rounded to at most zero, another to at least zero
      rename_i hq
      have hlow : (p - 1 / 2).ceil ≤ 0 := Rat.ceil_le_iff.mpr (by push_cast; linarith)
      have hhigh : 0 ≤ (q + 1 / 2).floor := Rat.le_floor_iff.mpr (by push_cast; linarith)
      omega
    · refine Rat.ceil_le_iff.mpr ?_
      have hle : q - 1 / 2 ≤ (q - 1 / 2).ceil := Rat.le_ceil
      linarith

/-- The rounding of a money column keeps the order of two amounts. -/
theorem money_mono : Monotone money := by
  intro p q h
  have hround := roundHalfAway_mono (show p * 10000 ≤ q * 10000 by linarith)
  have hcast : (roundHalfAway (p * 10000) : Rat) ≤ roundHalfAway (q * 10000) := by
    exact_mod_cast hround
  exact div_le_div_of_nonneg_right hcast (by norm_num)

/-- When an amount is stored as less than a whole number: it has to be below it by more than half a
    ten-thousandth.  This is where the bounds of the columns come from. -/
theorem money_lt_iff {x : Rat} (hx : 0 ≤ x) (n : Int) : money x < n ↔ x < n - 1 / 20000 := by
  have hscaled : 0 ≤ x * 10000 := by linarith
  have hfloor : roundHalfAway (x * 10000) < n * 10000 ↔ x * 10000 + 1 / 2 < n * 10000 := by
    unfold roundHalfAway
    rw [if_pos hscaled]
    have := @Int.floor_lt Rat _ _ _ (n * 10000) (x * 10000 + 1 / 2)
    push_cast at this
    exact this
  have hcast : money x < n ↔ roundHalfAway (x * 10000) < n * 10000 := by
    unfold money
    rw [div_lt_iff₀ (by norm_num)]
    constructor
    · intro h
      exact_mod_cast h
    · intro h
      exact_mod_cast h
  rw [hcast, hfloor]
  constructor
  · intro h
    linarith
  · intro h
    linarith

/-- An amount that is not negative is not stored as a negative one. -/
theorem money_nonneg {x : Rat} (hx : 0 ≤ x) : 0 ≤ money x := by
  by_contra h
  have h' := (money_lt_iff hx 0).mp (by push_cast; exact not_le.mp h)
  push_cast at h'
  linarith

end CommerceOperations
