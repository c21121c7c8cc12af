import KeyboardPlate.Proofs.Geometry.Fillet
import KeyboardPlate.Proofs.Geometry.Heading

/-!
# Corners of lines along the axes

A fillet of a level and an upright line that share an end succeeds exactly if its radius overruns none of them,
and neither is shorter than the tolerance: a wrong pair of ends can only be taken for the joint on a line that
is too short anyway. Its arc is a quarter circle between the new ends.
-/

set_option autoImplicit false

namespace KeyboardPlate

/-! ## Quarter circles -/

namespace Arc

/-- The two ends of the arc are these points, in whichever order. -/
def Joins (a : Arc ℝ) (p q : Point ℝ) : Prop :=
  (a.start = p ∧ a.stop = q) ∨ (a.start = q ∧ a.stop = p)

theorem Joins.symm {a : Arc ℝ} {p q : Point ℝ} (h : a.Joins p q) : a.Joins q p := Or.symm h

/-- The quarter circle between two perpendicular headings from a corner. -/
noncomputable def quarter (c : Point ℝ) (h k : Heading) (r : ℝ) : Arc ℝ :=
  Line.shorterArc (c + (h.step + k.step).scale r) r (c + h.step.scale r) (c + k.step.scale r)

variable (c : Point ℝ) (h k : Heading) (r : ℝ)

/-- From the center of the arc, its end on one line is seen against the other line's heading. -/
theorem end_eq_center_add : c + h.step.scale r = c + (h.step + k.step).scale r + k.back.step.scale r := by
  rw [Heading.step_back]
  simp only [Point.add_def, Point.scale_def]
  congr 1
  · ring
  · ring

theorem end_eq_center_add' : c + k.step.scale r = c + (h.step + k.step).scale r + h.back.step.scale r := by
  rw [Heading.step_back]
  simp only [Point.add_def, Point.scale_def]
  congr 1
  · ring
  · ring

theorem quarter_center : (quarter c h k r).center = c + (h.step + k.step).scale r := by
  unfold quarter Line.shorterArc
  dsimp only
  split <;> rfl

theorem quarter_radius : (quarter c h k r).radius = r := by
  unfold quarter Line.shorterArc
  dsimp only
  split <;> rfl

variable {r}

/-- The arc starts on the line to the left. -/
theorem quarter_left (hr : 0 < r) :
    quarter c h h.left r = ⟨c + (h.step + h.left.step).scale r, r, h.back.degrees, h.right.degrees⟩ := by
  unfold quarter Line.shorterArc
  rw [end_eq_center_add c h h.left, end_eq_center_add' c h h.left, Heading.direction_step _ _ hr,
    Heading.direction_step _ _ hr, Heading.left_back]
  have hsweep : sweep h.right.degrees h.back.degrees = 270 := h.back.sweep_right
  dsimp only
  rw [hsweep]
  exact if_neg (by norm_num)

theorem quarter_right (hr : 0 < r) :
    quarter c h h.right r = ⟨c + (h.step + h.right.step).scale r, r, h.left.degrees, h.back.degrees⟩ := by
  unfold quarter Line.shorterArc
  rw [end_eq_center_add c h h.right, end_eq_center_add' c h h.right, Heading.direction_step _ _ hr,
    Heading.direction_step _ _ hr, Heading.right_back]
  have hsweep : sweep h.left.degrees h.back.degrees = 90 := h.left.sweep_left
  dsimp only
  rw [hsweep]
  exact if_pos (by norm_num)

variable {h k}

/-- Which of the two lines the arc starts on is a matter of their orientation. -/
theorem quarter_ends (hr : 0 < r) (hsquare : h.step.dot k.step = 0) :
    h.step.cross k.step = 1 ∧ (quarter c h k r).start = c + k.step.scale r ∧
        (quarter c h k r).stop = c + h.step.scale r ∨
      h.step.cross k.step = -1 ∧ (quarter c h k r).start = c + h.step.scale r ∧
        (quarter c h k r).stop = c + k.step.scale r := by
  cases h.eq_left_or_right hsquare with
  | inl hk =>
    subst hk
    refine Or.inl ⟨h.cross_left, ?_, ?_⟩
    · rw [quarter_left c h hr, end_eq_center_add' c h h.left]
      exact Heading.onCircle_degrees _ _ _
    · rw [quarter_left c h hr, end_eq_center_add c h h.left, Heading.left_back]
      exact Heading.onCircle_degrees _ _ _
  | inr hk =>
    subst hk
    refine Or.inr ⟨h.cross_right, ?_, ?_⟩
    · rw [quarter_right c h hr, end_eq_center_add c h h.right, Heading.right_back]
      exact Heading.onCircle_degrees _ _ _
    · rw [quarter_right c h hr, end_eq_center_add' c h h.right]
      exact Heading.onCircle_degrees _ _ _

theorem quarter_span (hr : 0 < r) (hsquare : h.step.dot k.step = 0) : (quarter c h k r).span = 90 := by
  cases h.eq_left_or_right hsquare with
  | inl hk =>
    subst hk
    rw [quarter_left c h hr]
    exact h.back.sweep_left
  | inr hk =>
    subst hk
    rw [quarter_right c h hr]
    exact h.left.sweep_left

theorem quarter_joins (hr : 0 < r) (hsquare : h.step.dot k.step = 0) :
    (quarter c h k r).Joins (c + h.step.scale r) (c + k.step.scale r) := by
  obtain ⟨-, hstart, hstop⟩ | ⟨-, hstart, hstop⟩ := quarter_ends c hr hsquare
  · exact Or.inr ⟨hstart, hstop⟩
  · exact Or.inl ⟨hstart, hstop⟩

end Arc

/-! ## Fillets at a corner -/

namespace Line

variable {a b a' b' : Line ℝ} {e f : End} {c : Point ℝ} {h k : Heading} {r lengthA lengthB : ℝ} {arc : Arc ℝ}

/-- Two lines that leave a corner along different axes. -/
structure Corner (a b : Line ℝ) (e f : End) (c : Point ℝ) (h k : Heading) (lengthA lengthB : ℝ) : Prop where
  cornerA : a.point e = c
  cornerB : b.point f = c
  farA : a.far e = c + h.step.scale lengthA
  farB : b.far f = c + k.step.scale lengthB
  square : h.step.dot k.step = 0
  nonnegA : 0 ≤ lengthA
  nonnegB : 0 ≤ lengthB

theorem far_of_ne {e' : End} (hne : e' ≠ e) : a.far e' = a.point e := by
  cases e with
  | start =>
    cases e' with
    | start => exact absurd rfl hne
    | stop => rfl
  | stop =>
    cases e' with
    | start => rfl
    | stop => exact absurd rfl hne

/-- A fillet that succeeds has taken ends for the joint that are near, on lines that are not too short. -/
theorem near_of_fillet (hfillet : a.fillet b r = .ok (a', b', arc)) :
    ∃ e f, (a.point e).distance (b.point f) < jointTolerance ∧
      jointTolerance ≤ (a.point e).distance (a.far e) ∧ jointTolerance ≤ (a.point e).distance (b.far f) := by
  obtain ⟨e, f, -, -, -, hjoint, hlong, -⟩ := exists_of_fillet hfillet
  have hnear := List.find?_some hjoint
  rw [not_or, not_lt, not_lt] at hlong
  exact ⟨e, f, of_decide_eq_true hnear, hlong.1, hlong.2⟩

namespace Corner

theorem toSquare (hc : Corner a b e f c h k lengthA lengthB) (hA : jointTolerance ≤ lengthA)
    (hB : jointTolerance ≤ lengthB) : Square a b e f c h.step k.step lengthA lengthB where
  cornerA := hc.cornerA
  cornerB := hc.cornerB
  farA := hc.farA
  farB := hc.farB
  unitA := h.dot_self
  unitB := k.dot_self
  square := hc.square
  longA := hA
  longB := hB

/-- Where a fillet succeeds, both lines are long enough to be told from a point. -/
theorem long_of_fillet (hc : Corner a b e f c h k lengthA lengthB) (hfillet : a.fillet b r = .ok (a', b', arc)) :
    jointTolerance ≤ lengthA ∧ jointTolerance ≤ lengthB := by
  obtain ⟨e', f', hnear, hlongA, hlongB⟩ := near_of_fillet hfillet
  have hdistA : c.distance (a.far e) = lengthA := by
    rw [hc.farA]
    exact Point.distance_add_scale h.dot_self hc.nonnegA
  have hdistB : c.distance (b.far f) = lengthB := by
    rw [hc.farB]
    exact Point.distance_add_scale k.dot_self hc.nonnegB
  by_cases he : e' = e
  · rw [he, hc.cornerA] at hnear hlongA hlongB
    rw [hdistA] at hlongA
    by_cases hf : f' = f
    · rw [hf, hdistB] at hlongB
      exact ⟨hlongA, hlongB⟩
    · -- the far end of the second line was taken for the joint: then that line is too short
      rw [far_of_ne hf, hc.cornerB, Point.distance_self] at hlongB
      exact absurd hlongB (not_le.mpr jointTolerance_pos)
  · rw [point_of_ne he] at hnear hlongA hlongB
    rw [far_of_ne he, hc.cornerA, Point.distance_symm, hdistA] at hlongA
    by_cases hf : f' = f
    · rw [hf, hc.cornerB, Point.distance_symm, hdistA] at hnear
      exact absurd hlongA (not_le.mpr hnear)
    · rw [point_of_ne hf, hc.farA, hc.farB] at hnear
      have hlong := Point.le_distance_of_perpendicular (c := c) h.dot_self hc.square (k := lengthA) (l := lengthB)
      exact absurd (hlongA.trans hlong) (not_le.mpr hnear)

/-- What a fillet at a corner does, and when. -/
theorem fillet_eq_ok_iff (hc : Corner a b e f c h k lengthA lengthB) : a.fillet b r = .ok (a', b', arc) ↔
    (jointTolerance ≤ lengthA ∧ jointTolerance ≤ lengthB) ∧
    (r ≤ lengthA + jointTolerance ∧ r ≤ lengthB + jointTolerance) ∧
    a' = a.withEnd (c + h.step.scale r) e ∧ b' = b.withEnd (c + k.step.scale r) f ∧ arc = Arc.quarter c h k r := by
  constructor
  · intro hfillet
    have hlong := hc.long_of_fillet hfillet
    rw [(hc.toSquare hlong.1 hlong.2).fillet] at hfillet
    split at hfillet
    · cases hfillet
    · rename_i hfit
      rw [not_or, not_lt, not_lt] at hfit
      cases hfillet
      exact ⟨hlong, hfit, rfl, rfl, rfl⟩
  · rintro ⟨hlong, hfit, rfl, rfl, rfl⟩
    rw [(hc.toSquare hlong.1 hlong.2).fillet, if_neg]
    · rfl
    · rw [not_or, not_lt, not_lt]
      exact hfit

end Corner

end Line

/-! ## Lines along an axis -/

inductive Axis where
  | level
  | upright
deriving DecidableEq

namespace Axis

/-- Two points on one line along the axis. -/
def Aligned (x : Axis) (p q : Point ℝ) : Prop :=
  match x with
  | level => p.y = q.y
  | upright => p.x = q.x

/-- The direction from one such point to the other. -/
noncomputable def heading (x : Axis) (p q : Point ℝ) : Heading :=
  match x with
  | level => if p.x ≤ q.x then .east else .west
  | upright => if p.y ≤ q.y then .north else .south

variable {x y : Axis} {p q p' q' : Point ℝ}

theorem Aligned.symm (hx : x.Aligned p q) : x.Aligned q p := by
  cases x with
  | level => exact Eq.symm hx
  | upright => exact Eq.symm hx

theorem Aligned.trans {s : Point ℝ} (hpq : x.Aligned p q) (hqs : x.Aligned q s) : x.Aligned p s := by
  cases x with
  | level => exact Eq.trans hpq hqs
  | upright => exact Eq.trans hpq hqs

theorem distance_of_level (h : p.y = q.y) : p.distance q = |p.x - q.x| := by
  rw [Point.distance_eq, sub_eq_zero.mpr h, zero_pow two_ne_zero, add_zero, Real.sqrt_sq_eq_abs]

theorem distance_of_upright (h : p.x = q.x) : p.distance q = |p.y - q.y| := by
  rw [Point.distance_eq, sub_eq_zero.mpr h, zero_pow two_ne_zero, zero_add, Real.sqrt_sq_eq_abs]

theorem Aligned.eq_add (hx : x.Aligned p q) : q = p + (x.heading p q).step.scale (p.distance q) := by
  cases x with
  | level =>
    rw [distance_of_level hx]
    obtain ⟨px, py⟩ := p
    obtain ⟨qx, qy⟩ := q
    have hy : py = qy := hx
    subst hy
    by_cases h : px ≤ qx
    · simp [heading, h, Heading.step, Point.add_def, Point.scale_def, abs_of_nonpos (sub_nonpos.mpr h)]
    · simp [heading, h, Heading.step, Point.add_def, Point.scale_def, abs_of_pos (sub_pos.mpr (not_le.mp h))]
  | upright =>
    rw [distance_of_upright hx]
    obtain ⟨px, py⟩ := p
    obtain ⟨qx, qy⟩ := q
    have hy : px = qx := hx
    subst hy
    by_cases h : py ≤ qy
    · simp [heading, h, Heading.step, Point.add_def, Point.scale_def, abs_of_nonpos (sub_nonpos.mpr h)]
    · simp [heading, h, Heading.step, Point.add_def, Point.scale_def, abs_of_pos (sub_pos.mpr (not_le.mp h))]

theorem dot_heading (hxy : x ≠ y) : (x.heading p q).step.dot (y.heading p' q').step = 0 := by
  cases x <;> cases y
  · exact absurd rfl hxy
  · unfold heading
    dsimp only
    split <;> split <;> simp [Heading.step, Point.dot_def]
  · unfold heading
    dsimp only
    split <;> split <;> simp [Heading.step, Point.dot_def]
  · exact absurd rfl hxy

/-- A step in the direction of the axis stays on the line. -/
theorem aligned_add_heading (r : ℝ) : x.Aligned p (p + (x.heading p q).step.scale r) := by
  cases x with
  | level =>
    unfold heading Aligned
    dsimp only
    split <;> simp [Heading.step, Point.add_def, Point.scale_def]
  | upright =>
    unfold heading Aligned
    dsimp only
    split <;> simp [Heading.step, Point.add_def, Point.scale_def]

end Axis

namespace Line

variable {a b : Line ℝ} {e f : End} {x y : Axis}

/-- The line runs along the axis. -/
def Along (x : Axis) (l : Line ℝ) : Prop := x.Aligned l.start l.stop

theorem Along.far (ha : a.Along x) : x.Aligned (a.point e) (a.far e) := by
  cases e with
  | start => exact ha
  | stop => exact Axis.Aligned.symm ha

theorem Along.withEnd {p : Point ℝ} (ha : a.Along x) (hp : x.Aligned (a.point e) p) : (a.withEnd p e).Along x := by
  cases e with
  | start => exact (Axis.Aligned.symm hp).trans ha
  | stop => exact Axis.Aligned.trans ha hp

/-- The direction in which the line leaves one of its ends. -/
noncomputable def leaving (l : Line ℝ) (x : Axis) (e : End) : Heading := x.heading (l.point e) (l.far e)

noncomputable def length (l : Line ℝ) (e : End) : ℝ := (l.point e).distance (l.far e)

/-- Lines along different axes that share an end make a corner. -/
theorem corner_of_along (hxy : x ≠ y) (ha : a.Along x) (hb : b.Along y) (hjoint : a.point e = b.point f) :
    Corner a b e f (a.point e) (a.leaving x e) (b.leaving y f) (a.length e) (b.length f) where
  cornerA := rfl
  cornerB := hjoint.symm
  farA := ha.far.eq_add
  farB := by
    rw [hjoint]
    exact hb.far.eq_add
  square := Axis.dot_heading hxy
  nonnegA := Point.distance_nonneg
  nonnegB := Point.distance_nonneg

theorem length_stop (l : Line ℝ) : l.length .stop = l.length .start := Point.distance_symm ..

/-- A line cut back by no more than its length is shorter by the cut. -/
theorem Along.length_withEnd {r : ℝ} (ha : a.Along x) (hr : r ≤ a.length e) :
    (a.withEnd (a.point e + (a.leaving x e).step.scale r) e).length e = a.length e - r := by
  have hends : ∀ p, (a.withEnd p e).length e = p.distance (a.far e) := by
    intro p
    cases e <;> rfl
  have hfar : a.far e = a.point e + (a.leaving x e).step.scale r + (a.leaving x e).step.scale (a.length e - r) := by
    refine ha.far.eq_add.trans ?_
    rw [Point.add_def, Point.add_def, Point.add_def, Point.scale_def, Point.scale_def, Point.scale_def]
    unfold leaving length
    dsimp only
    congr 1
    · ring
    · ring
  rw [hends, hfar]
  exact Point.distance_add_scale (Heading.dot_self _) (sub_nonneg.mpr hr)

/-- A line is as long as its ends are apart along an axis. -/
theorem le_length_across {k : ℝ} (h : k ≤ a.start.x - a.stop.x ∨ k ≤ a.stop.x - a.start.x) : k ≤ a.length .start := by
  rw [← neg_sub a.start.x, ← le_abs] at h
  exact h.trans (Point.abs_x_sub_le_distance ..)

theorem le_length_down {k : ℝ} (h : k ≤ a.start.y - a.stop.y ∨ k ≤ a.stop.y - a.start.y) : k ≤ a.length .start := by
  rw [← neg_sub a.start.y, ← le_abs] at h
  exact h.trans (Point.abs_y_sub_le_distance ..)

end Line

/-! ## Coordinates along an axis -/

/-- The coordinate reached from `p` by a step of length `r` in the direction of `q`. -/
noncomputable def toward (p q r : ℝ) : ℝ := if p ≤ q then p + r else p - r

/-- A line from `p` to `q` along an axis can be cut back at `p` by `r`: it is no shorter than the tolerance, and
the cut overruns it by no more. -/
structure CutFits (p q r : ℝ) : Prop where
  long : jointTolerance ≤ |p - q|
  fits : r ≤ |p - q| + jointTolerance

theorem Axis.level_add_heading (p q : Point ℝ) (r : ℝ) :
    p + (level.heading p q).step.scale r = ⟨toward p.x q.x r, p.y⟩ := by
  unfold heading toward
  dsimp only
  split
  · simp [Heading.step, Point.add_def, Point.scale_def]
  · simp [Heading.step, Point.add_def, Point.scale_def, sub_eq_add_neg]

theorem Axis.upright_add_heading (p q : Point ℝ) (r : ℝ) :
    p + (upright.heading p q).step.scale r = ⟨p.x, toward p.y q.y r⟩ := by
  unfold heading toward
  dsimp only
  split
  · simp [Heading.step, Point.add_def, Point.scale_def]
  · simp [Heading.step, Point.add_def, Point.scale_def, sub_eq_add_neg]

/-- A fillet of a level and an upright line cuts the one along its abscissas, the other along its ordinates. -/
theorem Line.cut_of_fillet {a b a' b' : Line ℝ} {e f : End} {r : ℝ} {arc : Arc ℝ}
    (hfillet : a.fillet b r = .ok (a', b', arc)) (ha : a.Along .level) (hb : b.Along .upright)
    (hjoint : a.point e = b.point f) : CutFits (a.point e).x (a.far e).x r ∧ CutFits (b.point f).y (b.far f).y r ∧
      a' = a.withEnd ⟨toward (a.point e).x (a.far e).x r, (a.point e).y⟩ e ∧
      b' = b.withEnd ⟨(b.point f).x, toward (b.point f).y (b.far f).y r⟩ f := by
  have hcorner := Line.corner_of_along (by decide) ha hb hjoint
  obtain ⟨⟨hlongA, hlongB⟩, ⟨hfitA, hfitB⟩, hcutA, hcutB, -⟩ := hcorner.fillet_eq_ok_iff.mp hfillet
  rw [Line.length, Axis.distance_of_level ha.far] at hlongA hfitA
  rw [Line.length, Axis.distance_of_upright hb.far] at hlongB hfitB
  refine ⟨⟨hlongA, hfitA⟩, ⟨hlongB, hfitB⟩, ?_, ?_⟩
  · rw [hcutA, Line.leaving, Axis.level_add_heading]
  · rw [hcutB, hjoint, Line.leaving, Axis.upright_add_heading]

end KeyboardPlate
