import KeyboardPlate.Decimal.Basic
import Mathlib.Algebra.Order.Field.Rat
import Mathlib.Algebra.Order.Field.Basic

/-!
# Decimals as exact numbers

A decimal stands for a rational number, whatever its scale. Comparisons are those of rational numbers.
-/

set_option autoImplicit false

namespace KeyboardPlate.Decimal

/-- The number that a decimal stands for. -/
def toRat (a : Decimal) : ℚ := a.signed / (Nat.pow 10 a.scale : Nat)

variable {a b c : Decimal}

theorem pow_scale_pos (a : Decimal) : (0 : ℚ) < (Nat.pow 10 a.scale : Nat) :=
  Nat.cast_pos.mpr (Nat.pow_pos (by decide))

theorem le_iff_toRat : a ≤ b ↔ a.toRat ≤ b.toRat := by
  unfold toRat
  rw [div_le_div_iff₀ a.pow_scale_pos b.pow_scale_pos]
  exact_mod_cast Iff.rfl

theorem lt_iff_toRat : a < b ↔ a.toRat < b.toRat := by
  unfold toRat
  rw [div_lt_div_iff₀ a.pow_scale_pos b.pow_scale_pos]
  exact_mod_cast Iff.rfl

theorem same_iff_toRat : a.Same b ↔ a.toRat = b.toRat := by
  unfold toRat
  rw [div_eq_div_iff a.pow_scale_pos.ne' b.pow_scale_pos.ne']
  exact_mod_cast Iff.rfl

theorem same_of_le_of_le (hab : a ≤ b) (hba : b ≤ a) : a.Same b :=
  same_iff_toRat.mpr (le_antisymm (le_iff_toRat.mp hab) (le_iff_toRat.mp hba))

protected theorem le_rfl : a ≤ a := le_iff_toRat.mpr le_rfl

protected theorem le_trans (hab : a ≤ b) (hbc : b ≤ c) : a ≤ c :=
  le_iff_toRat.mpr ((le_iff_toRat.mp hab).trans (le_iff_toRat.mp hbc))

protected theorem le_of_lt (h : a < b) : a ≤ b := le_iff_toRat.mpr (lt_iff_toRat.mp h).le

protected theorem le_of_not_lt (h : ¬ b < a) : a ≤ b := by
  rw [lt_iff_toRat, not_lt] at h
  exact le_iff_toRat.mpr h

/-! ## The smaller and the larger of two -/

theorem least_eq_or (a b : Decimal) : a.least b = a ∨ a.least b = b := by
  unfold least
  split
  · exact .inr rfl
  · exact .inl rfl

theorem greatest_eq_or (a b : Decimal) : a.greatest b = a ∨ a.greatest b = b := by
  unfold greatest
  split
  · exact .inr rfl
  · exact .inl rfl

theorem least_le_left (a b : Decimal) : a.least b ≤ a := by
  unfold least
  split
  · rename_i h
    exact Decimal.le_of_lt h
  · exact Decimal.le_rfl

theorem least_le_right (a b : Decimal) : a.least b ≤ b := by
  unfold least
  split
  · exact Decimal.le_rfl
  · rename_i h
    exact Decimal.le_of_not_lt h

theorem le_greatest_left (a b : Decimal) : a ≤ a.greatest b := by
  unfold greatest
  split
  · rename_i h
    exact Decimal.le_of_lt h
  · exact Decimal.le_rfl

theorem le_greatest_right (a b : Decimal) : b ≤ a.greatest b := by
  unfold greatest
  split
  · exact Decimal.le_rfl
  · rename_i h
    exact Decimal.le_of_not_lt h

end KeyboardPlate.Decimal
