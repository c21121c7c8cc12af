import KeyboardPlate.Proofs.Geometry.Corner
import KeyboardPlate.Proofs.Model.InPlace

/-!
# Fillets at a right angle

A level and an upright line that share an end are cut back there by the radius, each along itself, and the quarter
circle between the cut ends stands at its radius from both. Which of the lines comes first makes no difference.
-/

set_option autoImplicit false

namespace KeyboardPlate

/-! ## Points of a line -/

theorem Point.along_symm (p q : Point ℝ) (t : ℝ) : q.along p t = p.along q (1 - t) := by
  unfold along
  simp only [add_def, sub_def, scale_def]
  congr 1
  · ring
  · ring

namespace Line

/-- A point stands at a distance from a line: some point of the line is so far away, and none of the line prolonged is
nearer. -/
structure IsAway (l : Line ℝ) (c : Point ℝ) (r : ℝ) : Prop where
  attained : ∃ t, 0 ≤ t ∧ t ≤ 1 ∧ c.distance (l.start.along l.stop t) = r
  least : ∀ t, r ≤ c.distance (l.start.along l.stop t)

/-- The point of a line at a distance from one of its ends. -/
noncomputable def pointAt (l : Line ℝ) (e : End) (r : ℝ) : Point ℝ := (l.point e).along (l.far e) (r / l.length e)

variable {l : Line ℝ} {e : End} {c u v : Point ℝ} {r length : ℝ}

theorem along_eq_add (hfar : l.far e = l.point e + u.scale length) (t : ℝ) :
    (l.point e).along (l.far e) t = l.point e + u.scale (length * t) := by
  rw [hfar]
  unfold Point.along
  simp only [Point.add_def, Point.sub_def, Point.scale_def, add_sub_cancel_left, mul_assoc]

/-- Either end of a line may be taken for its start. -/
theorem isAway_from (e : End)
    (hattained : ∃ t, 0 ≤ t ∧ t ≤ 1 ∧ c.distance ((l.point e).along (l.far e) t) = r)
    (hleast : ∀ t, r ≤ c.distance ((l.point e).along (l.far e) t)) : l.IsAway c r := by
  cases e with
  | start => exact ⟨hattained, hleast⟩
  | stop =>
    obtain ⟨t, hlow, hhigh, ht⟩ := hattained
    constructor
    · refine ⟨1 - t, by linarith, by linarith, ?_⟩
      rw [← Point.along_symm]
      exact ht
    · intro t
      have ht := hleast (1 - t)
      rw [← Point.along_symm] at ht
      exact ht

/-- The center of a fillet stands at its radius from a line that leaves the corner. -/
theorem isAway_center (hv : v.dot v = 1) (huv : u.dot v = 0)
    (hfar : l.far e = l.point e + u.scale length) (hr : 0 < r) (hlength : r ≤ length) :
    l.IsAway (l.point e + (u + v).scale r) r := by
  have hpos : 0 < length := hr.trans_le hlength
  have hvu : v.dot u = 0 := by
    rw [Point.dot_def] at huv ⊢
    linarith
  -- from the foot of the center on the line, which is its cut end
  have hcenter : l.point e + (u + v).scale r = l.point e + u.scale r + v.scale r := by
    simp only [Point.add_def, Point.scale_def]
    congr 1
    · ring
    · ring
  have hstep : ∀ s, l.point e + u.scale s = l.point e + u.scale r + u.scale (s - r) := by
    intro s
    simp only [Point.add_def, Point.scale_def]
    congr 1
    · ring
    · ring
  rw [hcenter]
  apply isAway_from e
  · refine ⟨r / length, by positivity, (div_le_one hpos).mpr hlength, ?_⟩
    rw [along_eq_add hfar, mul_div_cancel₀ r hpos.ne', Point.distance_symm]
    exact Point.distance_add_scale hv hr.le
  · intro t
    rw [along_eq_add hfar, hstep (length * t)]
    exact Point.le_distance_of_perpendicular hv hvu

end Line

/-! ## Fillets of lines along the axes -/

theorem Arc.quarter_symm (c : Point ℝ) {h k : Heading} {r : ℝ} (hr : 0 < r) (hsquare : h.step.dot k.step = 0) :
    quarter c h k r = quarter c k h r := by
  have hcenter : h.step + k.step = k.step + h.step := by
    rw [Point.add_def, Point.add_def, add_comm h.step.x, add_comm h.step.y]
  rcases h.eq_left_or_right hsquare with rfl | rfl
  · have hright : h = h.left.right := by cases h <;> rfl
    have hquarter := quarter_right c h.left hr
    rw [← hright] at hquarter
    rw [quarter_left c h hr, hquarter, hcenter]
    rfl
  · have hleft : h = h.right.left := by cases h <;> rfl
    have hquarter := quarter_left c h.right hr
    rw [← hleft] at hquarter
    rw [quarter_right c h hr, hquarter, hcenter, Heading.right_back]
    cases h <;> rfl

namespace Line

variable {a b : Line ℝ} {e f : End} {x y : Axis} {r : ℝ}

theorem pointAt_of_along (ha : a.Along x) (hlong : 0 < a.length e) (r : ℝ) :
    a.pointAt e r = a.point e + (a.leaving x e).step.scale r := by
  unfold pointAt
  rw [along_eq_add ha.far.eq_add]
  congr 2
  exact mul_div_cancel₀ r hlong.ne'

theorem fillet_path_eq (hr : 0 < r) : Path.fillet (.line a) (.line b) r = a.fillet b r := by
  have hzero : ¬ r ≤ (0.0 : ℝ) := by
    have heq : (0.0 : ℝ) = 0 := by norm_num
    rw [heq]
    exact not_le.mpr hr
  exact if_neg hzero

/-- A fillet in place of two lines along different axes, of a radius that overruns neither. -/
theorem runOn_fillet_of_along (hxy : x ≠ y) (ha : a.Along x) (hb : b.Along y) (hlongA : jointTolerance ≤ a.length e)
    (hlongB : jointTolerance ≤ b.length f) (hjoint : a.point e = b.point f) (hr : 0 < r) (hfitA : r ≤ a.length e)
    (hfitB : r ≤ b.length f) : (Path.filletInPlace r).runOn (.line a, .line b) =
      (.ok (Arc.quarter (a.point e) (a.leaving x e) (b.leaving y f) r),
        (.line (a.withEnd (a.pointAt e r) e), .line (b.withEnd (b.pointAt f r) f))) := by
  have htol := jointTolerance_pos
  have hcorner := corner_of_along hxy ha hb hjoint
  have hfillet := hcorner.fillet_eq_ok_iff.mpr
    ⟨⟨hlongA, hlongB⟩, ⟨by linarith, by linarith⟩, rfl, rfl, rfl⟩
  rw [Path.runOn_filletInPlace, fillet_path_eq hr, hfillet, pointAt_of_along ha (htol.trans_le hlongA),
    pointAt_of_along hb (htol.trans_le hlongB), ← hjoint]

theorem runOn_fillet_of_overrun (hxy : x ≠ y) (ha : a.Along x) (hb : b.Along y) (hlongA : jointTolerance ≤ a.length e)
    (hlongB : jointTolerance ≤ b.length f) (hjoint : a.point e = b.point f)
    (hover : a.length e + jointTolerance < r ∨ b.length f + jointTolerance < r) :
    (Path.filletInPlace r).runOn (.line a, .line b) = (.error (.filletDoesNotFit r), (.line a, .line b)) := by
  have htol := jointTolerance_pos
  have hcorner := corner_of_along hxy ha hb hjoint
  have hr : 0 < r := by
    rcases hover with h | h
    · linarith
    · linarith
  have hfillet := (hcorner.toSquare hlongA hlongB).fillet r
  rw [if_pos hover] at hfillet
  rw [Path.runOn_filletInPlace, fillet_path_eq hr, hfillet]

/-- A level and an upright line that share an end. A radius that fits both of them cuts each back there by as much, and
returns the same quarter circle between the cut ends in either order of the lines. A radius that overruns one of them by
more than the tolerance leaves both as they were. -/
theorem fillet_right_angle (hxy : x ≠ y) (ha : a.Along x) (hb : b.Along y) (hlongA : 0.001 ≤ a.length e)
    (hlongB : 0.001 ≤ b.length f) (hjoint : a.point e = b.point f) (r : ℝ) :
    (0 < r → r ≤ a.length e → r ≤ b.length f → ∃ arc : Arc ℝ,
      (Path.filletInPlace r).runOn (.line a, .line b) =
        (.ok arc, (.line (a.withEnd (a.pointAt e r) e), .line (b.withEnd (b.pointAt f r) f))) ∧
      (Path.filletInPlace r).runOn (.line b, .line a) =
        (.ok arc, (.line (b.withEnd (b.pointAt f r) f), .line (a.withEnd (a.pointAt e r) e))) ∧
      arc.radius = r ∧ arc.span = 90 ∧ arc.Joins (a.pointAt e r) (b.pointAt f r) ∧
      a.IsAway arc.center r ∧ b.IsAway arc.center r) ∧
    (a.length e + 1e-6 < r ∨ b.length f + 1e-6 < r →
      (Path.filletInPlace r).runOn (.line a, .line b) = (.error (.filletDoesNotFit r), (.line a, .line b))) := by
  have htol : jointTolerance ≤ (0.001 : ℝ) := by
    rw [jointTolerance_eq]
    norm_num
  have htolA := htol.trans hlongA
  have htolB := htol.trans hlongB
  constructor
  · intro hr hfitA hfitB
    have hcorner := corner_of_along hxy ha hb hjoint
    have hsquare := hcorner.square
    have hsquare' : (b.leaving y f).step.dot (a.leaving x e).step = 0 := Axis.dot_heading hxy.symm
    have hforward := runOn_fillet_of_along hxy ha hb htolA htolB hjoint hr hfitA hfitB
    have hbackward := runOn_fillet_of_along hxy.symm hb ha htolB htolA hjoint.symm hr hfitB hfitA
    rw [← hjoint, Arc.quarter_symm _ hr hsquare'] at hbackward
    refine ⟨_, hforward, hbackward, Arc.quarter_radius .., Arc.quarter_span _ hr hsquare, ?_, ?_, ?_⟩
    · rw [pointAt_of_along ha (hr.trans_le hfitA), pointAt_of_along hb (hr.trans_le hfitB), ← hjoint]
      exact Arc.quarter_joins _ hr hsquare
    · rw [Arc.quarter_center]
      exact isAway_center (Heading.dot_self _) hsquare ha.far.eq_add hr hfitA
    · rw [Arc.quarter_symm _ hr hsquare, Arc.quarter_center, hjoint]
      exact isAway_center (Heading.dot_self _) hsquare' hb.far.eq_add hr hfitB
  · intro hover
    exact runOn_fillet_of_overrun hxy ha hb htolA htolB hjoint hover

/-- The upper and the right side of a square of 2. -/
noncomputable def upperSide : Line ℝ := ⟨⟨-1, 1⟩, ⟨1, 1⟩⟩
noncomputable def rightSide : Line ℝ := ⟨⟨1, 1⟩, ⟨1, -1⟩⟩

theorem length_upperSide : upperSide.length .stop = 2 := by
  have hlevel : upperSide.length .stop = |(1 : ℝ) - -1| := Axis.distance_of_level rfl
  rw [hlevel]
  norm_num

theorem length_rightSide : rightSide.length .start = 2 := by
  have hupright : rightSide.length .start = |(1 : ℝ) - -1| := Axis.distance_of_upright rfl
  rw [hupright]
  norm_num

theorem squareSides_right_angle : upperSide.Along .level ∧ rightSide.Along .upright ∧
    (0.001 : ℝ) ≤ upperSide.length .stop ∧ (0.001 : ℝ) ≤ rightSide.length .start ∧
    upperSide.point .stop = rightSide.point .start ∧
    (∃ arc, (Path.filletInPlace (1 / 2 : ℝ)).runOn (.line upperSide, .line rightSide) =
      (.ok arc, (.line (upperSide.withEnd (upperSide.pointAt .stop (1 / 2)) .stop),
        .line (rightSide.withEnd (rightSide.pointAt .start (1 / 2)) .start)))) ∧
    (Path.filletInPlace (3 : ℝ)).runOn (.line upperSide, .line rightSide) =
      (.error (.filletDoesNotFit 3), (.line upperSide, .line rightSide)) := by
  have hlongA : (0.001 : ℝ) ≤ upperSide.length .stop := by
    rw [length_upperSide]
    norm_num
  have hlongB : (0.001 : ℝ) ≤ rightSide.length .start := by
    rw [length_rightSide]
    norm_num
  have hangle := fillet_right_angle (x := .level) (y := .upright) (a := upperSide) (b := rightSide) (by decide) rfl rfl
    hlongA hlongB rfl
  refine ⟨rfl, rfl, hlongA, hlongB, rfl, ?_, ?_⟩
  · obtain ⟨arc, hrun, -⟩ := (hangle (1 / 2)).1 (by norm_num) (by rw [length_upperSide]; norm_num)
      (by rw [length_rightSide]; norm_num)
    exact ⟨arc, hrun⟩
  · apply (hangle 3).2
    left
    rw [length_upperSide]
    norm_num

end Line

end KeyboardPlate
