import KeyboardPlate.Proofs.Geometry.Sweep

/-!
# Headings

The four directions along the axes have exact angles: a point seen straight along an axis is seen at that
angle, the point of a circle at that angle lies straight along the axis, and the sweep from one heading to the
next one to its left is a quarter turn.
-/

set_option autoImplicit false

namespace KeyboardPlate

/-- A direction along an axis. -/
inductive Heading where
  | east
  | north
  | west
  | south
deriving DecidableEq

namespace Heading

/-- The angle, a whole number of degrees. -/
noncomputable def degrees : Heading → ℝ
  | east => 0
  | north => (90 : ℕ)
  | west => (180 : ℕ)
  | south => (270 : ℕ)

/-- The step of length one. -/
noncomputable def step : Heading → Point ℝ
  | east => ⟨1, 0⟩
  | north => ⟨0, 1⟩
  | west => ⟨-1, 0⟩
  | south => ⟨0, -1⟩

def left : Heading → Heading
  | east => north
  | north => west
  | west => south
  | south => east

def back (h : Heading) : Heading := h.left.left

def right (h : Heading) : Heading := h.back.left

variable (h : Heading)

theorem left_back : h.left.back = h.right := rfl

theorem right_back : h.right.back = h.left := by cases h <;> rfl

theorem back_back : h.back.back = h := by cases h <;> rfl

theorem step_back : h.back.step = Point.scale (-1) h.step := by
  cases h <;> simp [back, left, step, Point.scale_def]

theorem step_left : h.left.step = ⟨-h.step.y, h.step.x⟩ := by
  cases h <;> simp [left, step]

theorem dot_self : h.step.dot h.step = 1 := by
  cases h <;> simp [step, Point.dot_def]

theorem cross_left : h.step.cross h.left.step = 1 := by
  cases h <;> simp [left, step, Point.cross_def]

theorem cross_right : h.step.cross h.right.step = -1 := by
  cases h <;> simp [right, back, left, step, Point.cross_def]

theorem eq_left_or_right {k : Heading} (hdot : h.step.dot k.step = 0) : k = h.left ∨ k = h.right := by
  cases h <;> cases k <;> simp [step, Point.dot_def, left, right, back] at hdot ⊢

theorem degrees_nonneg : 0 ≤ h.degrees := by
  cases h <;> norm_num [degrees]

theorem degrees_lt : h.degrees < 360 := by
  cases h <;> norm_num [degrees]

theorem normalizeAngle_degrees : normalizeAngle h.degrees = h.degrees :=
  normalizeAngle_of_nonneg h.degrees_nonneg h.degrees_lt

theorem normalizeAngle_add_quarter : normalizeAngle (h.degrees + 90) = h.left.degrees := by
  cases h with
  | east | north | west =>
    rw [normalizeAngle_of_nonneg (by norm_num [degrees]) (by norm_num [degrees])]
    norm_num [degrees, left]
  | south =>
    have hturn : south.degrees + 90 = 360 := by norm_num [degrees]
    rw [hturn, normalizeAngle_turn]
    rfl

theorem sweep_left : sweep h.degrees h.left.degrees = 90 := by
  cases h with
  | east | north | west =>
    rw [sweep_of_lt (degrees_nonneg _) (degrees_lt _) (by norm_num [degrees, left])]
    norm_num [degrees, left]
  | south =>
    rw [sweep_of_gt (degrees_nonneg _) (degrees_lt _) (by norm_num [degrees, left])]
    norm_num [degrees, left]

theorem sweep_right : sweep h.left.degrees h.degrees = 270 := by
  cases h with
  | east | north | west =>
    rw [sweep_of_gt (degrees_nonneg _) (degrees_lt _) (by norm_num [degrees, left])]
    norm_num [degrees, left]
  | south =>
    rw [sweep_of_lt (degrees_nonneg _) (degrees_lt _) (by norm_num [degrees, left])]
    norm_num [degrees, left]

theorem sweep_back : sweep h.degrees h.back.degrees = 180 := by
  cases h with
  | east | north =>
    rw [sweep_of_lt (degrees_nonneg _) (degrees_lt _) (by norm_num [degrees, back, left])]
    norm_num [degrees, back, left]
  | west | south =>
    rw [sweep_of_gt (degrees_nonneg _) (degrees_lt _) (by norm_num [degrees, back, left])]
    norm_num [degrees, back, left]

/-! ## Points along an axis -/

theorem sinCos_degrees : sinCos h.degrees = (h.step.y, h.step.x) := by
  have hnorm := h.normalizeAngle_degrees
  unfold sinCos
  rw [hnorm]
  cases h <;> norm_num [degrees, step]

theorem onCircle_degrees (c : Point ℝ) (r : ℝ) : c.onCircle r h.degrees = c + h.step.scale r := by
  unfold Point.onCircle
  rw [sinCos_degrees, Point.add_def, Point.scale_def, mul_comm h.step.x, mul_comm h.step.y]

theorem onCircle_of_sameAngle {a b : ℝ} (hab : SameAngle a b) (c : Point ℝ) (r : ℝ) :
    c.onCircle r a = c.onCircle r b := by
  have hangle : sinCos a = sinCos b := by
    unfold sinCos
    rw [normalizeAngle_eq_iff.mpr hab]
  unfold Point.onCircle
  rw [hangle]

/-- The point a quarter turn further round. -/
theorem onCircle_add_quarter (c : Point ℝ) (r : ℝ) : c.onCircle r (h.degrees + 90) = c + h.left.step.scale r := by
  rw [← onCircle_degrees]
  refine onCircle_of_sameAngle (normalizeAngle_eq_iff.mp ?_) c r
  rw [normalizeAngle_add_quarter, normalizeAngle_degrees]

/-- The angle in radians, between half a turn to the right and half a turn to the left. -/
theorem arg_step {r : ℝ} (hr : 0 < r) : Complex.arg ⟨(h.step.scale r).x, (h.step.scale r).y⟩ =
    match h with
    | east => 0
    | north => Real.pi / 2
    | west => Real.pi
    | south => -(Real.pi / 2) := by
  cases h with
  | east =>
    have heq : (⟨(east.step.scale r).x, (east.step.scale r).y⟩ : ℂ) = (r : ℂ) := by
      apply Complex.ext <;> simp [step, Point.scale_def]
    rw [heq]
    exact Complex.arg_ofReal_of_nonneg hr.le
  | north =>
    have heq : (⟨(north.step.scale r).x, (north.step.scale r).y⟩ : ℂ) = (r : ℂ) * Complex.I := by
      apply Complex.ext <;> simp [step, Point.scale_def]
    rw [heq, Complex.arg_real_mul _ hr, Complex.arg_I]
  | west =>
    have heq : (⟨(west.step.scale r).x, (west.step.scale r).y⟩ : ℂ) = ((-r : ℝ) : ℂ) := by
      apply Complex.ext <;> simp [step, Point.scale_def]
    rw [heq]
    exact Complex.arg_ofReal_of_neg (neg_lt_zero.mpr hr)
  | south =>
    have heq : (⟨(south.step.scale r).x, (south.step.scale r).y⟩ : ℂ) = (r : ℂ) * -Complex.I := by
      apply Complex.ext <;> simp [step, Point.scale_def]
    rw [heq, Complex.arg_real_mul _ hr, Complex.arg_neg_I]

/-- The bearing of a point straight along an axis, in degrees. -/
theorem normalizeAngle_bearing (c : Point ℝ) {r : ℝ} (hr : 0 < r) :
    normalizeAngle (Scalar.toDegrees (c.bearing (c + h.step.scale r))) = h.degrees := by
  have hpi := Real.pi_pos
  have hbearing : c.bearing (c + h.step.scale r) = Complex.arg ⟨(h.step.scale r).x, (h.step.scale r).y⟩ := by
    change Complex.arg ⟨c.x + (h.step.scale r).x - c.x, c.y + (h.step.scale r).y - c.y⟩ = _
    rw [add_sub_cancel_left, add_sub_cancel_left]
  rw [hbearing, h.arg_step hr]
  change normalizeAngle (_ * (180 / Real.pi)) = h.degrees
  cases h with
  | east =>
    rw [zero_mul]
    exact normalizeAngle_of_nonneg le_rfl (by norm_num)
  | north =>
    have heq : Real.pi / 2 * (180 / Real.pi) = 90 := by field_simp; norm_num
    rw [heq]
    exact normalizeAngle_of_nonneg (by norm_num) (by norm_num)
  | west =>
    have heq : Real.pi * (180 / Real.pi) = 180 := by field_simp
    rw [heq]
    exact normalizeAngle_of_nonneg (by norm_num) (by norm_num)
  | south =>
    have heq : -(Real.pi / 2) * (180 / Real.pi) = -90 := by field_simp; norm_num
    rw [heq, normalizeAngle_of_neg (by norm_num) (by norm_num)]
    norm_num [degrees]

theorem round_natCast (n : ℕ) : Quantity.round (n : ℝ) = (n : ℝ) := by
  have hfloor : ⌊(n : ℝ) + 1 / 2⌋ = n := by
    rw [Int.floor_natCast_add]
    norm_num
  change (if (0 : ℝ) ≤ n then ((⌊(n : ℝ) + 1 / 2⌋ : ℤ) : ℝ) else ((⌈(n : ℝ) - 1 / 2⌉ : ℤ) : ℝ)) = n
  rw [if_pos (Nat.cast_nonneg n), hfloor]
  norm_cast

/-- A heading is a whole number of quarter turns. -/
theorem round_quarters : Quantity.round (h.degrees / (90.0 : ℝ)) * (90.0 : ℝ) = h.degrees := by
  obtain ⟨n, hn⟩ : ∃ n : ℕ, h.degrees / (90.0 : ℝ) = n := by
    cases h with
    | east => exact ⟨0, by norm_num [degrees]⟩
    | north => exact ⟨1, by norm_num [degrees]⟩
    | west => exact ⟨2, by norm_num [degrees]⟩
    | south => exact ⟨3, by norm_num [degrees]⟩
  rw [hn, round_natCast, ← hn]
  norm_num

/-- The direction in which a point straight along an axis is seen. -/
theorem direction_step (c : Point ℝ) {r : ℝ} (hr : 0 < r) : c.direction (c + h.step.scale r) = h.degrees := by
  unfold Point.direction
  rw [h.normalizeAngle_bearing c hr]
  dsimp only
  -- whether or not the angle is brought to the nearest quarter turn, it stays
  rw [round_quarters, normalizeAngle_degrees, ite_self]

end Heading

end KeyboardPlate
