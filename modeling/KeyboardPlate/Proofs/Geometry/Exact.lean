import Mathlib.Analysis.SpecialFunctions.Complex.Arg
import Mathlib.Analysis.SpecialFunctions.Trigonometric.Inverse
import KeyboardPlate.Geometry.Fillet
import KeyboardPlate.Plate.Rectangle
import KeyboardPlate.Proofs.Decimal.Value

/-!
# Drawings over exact numbers

The real numbers are numbers a drawing can be made of. Over them nothing is rounded but what the definitions
round themselves.
-/

set_option autoImplicit false

namespace KeyboardPlate

noncomputable instance : Quantity ℝ where
  decidableLT a b := Real.decidableLT a b
  decidableLE a b := Real.decidableLE a b
  remainder a b := a - b * (if 0 ≤ a / b then ⌊a / b⌋ else ⌈a / b⌉)
  round a := if 0 ≤ a then ⌊a + 1 / 2⌋ else ⌈a - 1 / 2⌉

noncomputable instance : Scalar ℝ where
  sqrt := Real.sqrt
  sin := Real.sin
  cos := Real.cos
  tan := Real.tan
  asin := Real.arcsin
  acos := Real.arccos
  atan2 y x := Complex.arg ⟨x, y⟩
  radiansPerDegree := Real.pi / 180
  degreesPerRadian := 180 / Real.pi
  ofDecimal d := d.toRat
  isFinite _ := true

namespace Point

variable {c p q u v : Point ℝ}

theorem distance_eq (p q : Point ℝ) : p.distance q = √((p.x - q.x) ^ 2 + (p.y - q.y) ^ 2) := by
  rw [pow_two, pow_two]
  rfl

theorem distance_self (p : Point ℝ) : p.distance p = 0 := by simp [distance_eq]

theorem distance_symm (p q : Point ℝ) : p.distance q = q.distance p := by
  rw [distance_eq, distance_eq]
  congr 1
  ring

theorem distance_nonneg : 0 ≤ p.distance q := by
  rw [distance_eq]
  exact Real.sqrt_nonneg _

theorem abs_x_sub_le_distance (p q : Point ℝ) : |p.x - q.x| ≤ p.distance q := by
  rw [distance_eq]
  exact Real.abs_le_sqrt (le_add_of_nonneg_right (sq_nonneg _))

theorem abs_y_sub_le_distance (p q : Point ℝ) : |p.y - q.y| ≤ p.distance q := by
  rw [distance_eq]
  exact Real.abs_le_sqrt (le_add_of_nonneg_left (sq_nonneg _))

theorem add_def (p q : Point ℝ) : p + q = ⟨p.x + q.x, p.y + q.y⟩ := rfl

theorem sub_def (p q : Point ℝ) : p - q = ⟨p.x - q.x, p.y - q.y⟩ := rfl

theorem scale_def (k : ℝ) (p : Point ℝ) : p.scale k = ⟨p.x * k, p.y * k⟩ := rfl

theorem dot_def (p q : Point ℝ) : p.dot q = p.x * q.x + p.y * q.y := rfl

theorem cross_def (p q : Point ℝ) : p.cross q = p.x * q.y - p.y * q.x := rfl

/-- A point as far away from another as it is said to be, in the direction of a unit vector. -/
theorem distance_add_scale (hu : u.dot u = 1) {k : ℝ} (hk : 0 ≤ k) : c.distance (c + u.scale k) = k := by
  rw [dot_def] at hu
  rw [distance_eq, add_def, scale_def]
  have hsq : (c.x - (c.x + u.x * k)) ^ 2 + (c.y - (c.y + u.y * k)) ^ 2 = k ^ 2 := by
    linear_combination k ^ 2 * hu
  rw [hsq, Real.sqrt_sq hk]

/-- The long side of a right triangle is longer than the others. -/
theorem le_distance_of_perpendicular (hu : u.dot u = 1) (huv : u.dot v = 0) {k l : ℝ} :
    k ≤ (c + u.scale k).distance (c + v.scale l) := by
  rw [dot_def] at hu huv
  rw [distance_eq, add_def, add_def, scale_def, scale_def]
  apply Real.le_sqrt_of_sq_le
  have hsq : (c.x + u.x * k - (c.x + v.x * l)) ^ 2 + (c.y + u.y * k - (c.y + v.y * l)) ^ 2 =
      k ^ 2 + l ^ 2 * (v.x ^ 2 + v.y ^ 2) := by
    linear_combination k ^ 2 * hu - 2 * k * l * huv
  rw [hsq]
  exact le_add_of_nonneg_right (by positivity)

theorem sub_scale_inv {k : ℝ} (hk : k ≠ 0) : (c + u.scale k - c).scale (1 / k) = u := by
  simp only [add_def, sub_def, scale_def, add_sub_cancel_left]
  congr 1
  · field_simp
  · field_simp

/-- Perpendicular unit vectors span a unit square. -/
theorem cross_sq (hu : u.dot u = 1) (hv : v.dot v = 1) (huv : u.dot v = 0) : u.cross v ^ 2 = 1 := by
  rw [dot_def] at hu hv huv
  rw [cross_def]
  linear_combination (v.x * v.x + v.y * v.y) * hu + hv - (u.x * v.x + u.y * v.y) * huv

end Point

theorem Quantity.abs_eq (x : ℝ) : Quantity.abs x = |x| := by
  have hzero : (0.0 : ℝ) = 0 := by norm_num
  unfold Quantity.abs
  change (if x < (0.0 : ℝ) then -x else x) = |x|
  rw [hzero]
  split
  · rename_i h
    exact (abs_of_neg h).symm
  · rename_i h
    exact (abs_of_nonneg (not_lt.mp h)).symm

theorem Scalar.ofDecimal_eq_toRat (d : Decimal) : (Scalar.ofDecimal d : ℝ) = d.toRat := rfl

theorem Scalar.ofDecimal_neg (d : Decimal) : (Scalar.ofDecimal (-d) : ℝ) = -Scalar.ofDecimal d := by
  rw [ofDecimal_eq_toRat, ofDecimal_eq_toRat, Decimal.toRat_neg, Rat.cast_neg]

theorem jointTolerance_eq : (jointTolerance : ℝ) = 1 / 1000000 := by
  change (1e-6 : ℝ) = _
  norm_num

end KeyboardPlate
