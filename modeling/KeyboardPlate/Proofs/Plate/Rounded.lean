import KeyboardPlate.Proofs.Geometry.Ring
import KeyboardPlate.Proofs.Plate.Rectangle

/-!
# Which rectangles can be rounded

The second cut of a side is measured on what the first one has left of it. So the corners of a rectangle can be
rounded exactly if twice the radius fits its width and its height, but for the tolerance, and then its sides and
arcs run into each other all the way round.
-/

set_option autoImplicit false

namespace KeyboardPlate

/-! ## Cutting a side at both ends -/

section
variable {p q r : ℝ}

/-- Both ends of a side can be cut back by `r`, one after the other. -/
structure FitsTwice (p q r : ℝ) : Prop where
  first : CutFits p q r
  second : CutFits q (toward p q r) r

/-- Twice the radius fits a side cut at both ends, unless the side is about as short as the tolerance. -/
theorem FitsTwice.double_le (h : FitsTwice p q r) (hlong : 2 * jointTolerance ≤ |p - q|) :
    2 * r ≤ |p - q| + jointTolerance := by
  obtain ⟨⟨-, hfirst⟩, ⟨hrest, hsecond⟩⟩ := h
  have htol := Line.jointTolerance_pos
  unfold toward at hrest hsecond
  by_cases hpq : p ≤ q
  · rw [abs_of_nonpos (sub_nonpos.mpr hpq)] at hlong hfirst ⊢
    rw [if_pos hpq] at hrest hsecond
    rcases abs_cases (q - (p + r)) with ⟨habs, -⟩ | ⟨habs, -⟩
    · rw [habs] at hsecond
      linarith
    · rw [habs] at hrest hsecond
      linarith
  · rw [abs_of_pos (sub_pos.mpr (not_le.mp hpq))] at hlong hfirst ⊢
    rw [if_neg hpq] at hrest hsecond
    rcases abs_cases (q - (p - r)) with ⟨habs, -⟩ | ⟨habs, -⟩
    · rw [habs] at hrest hsecond
      linarith
    · rw [habs] at hsecond
      linarith

/-- The cuts from both ends pass each other by no more than the tolerance. -/
theorem FitsTwice.toward_le (h : FitsTwice p q r) (hpq : p ≤ q) (hr : 0 < r) :
    toward p q r ≤ toward q (toward p q r) r + jointTolerance := by
  obtain ⟨⟨-, hfirst⟩, ⟨-, hsecond⟩⟩ := h
  rw [abs_of_nonpos (sub_nonpos.mpr hpq)] at hfirst
  have hcut : toward p q r = p + r := if_pos hpq
  rw [hcut] at hsecond ⊢
  unfold toward
  split
  · linarith
  · rename_i hrest
    rw [abs_of_pos (sub_pos.mpr (not_le.mp hrest))] at hsecond
    linarith

theorem FitsTwice.le_toward (h : FitsTwice p q r) (hqp : q < p) :
    toward q (toward p q r) r ≤ toward p q r + jointTolerance := by
  obtain ⟨⟨-, hfirst⟩, ⟨-, hsecond⟩⟩ := h
  rw [abs_of_pos (sub_pos.mpr hqp)] at hfirst
  have hcut : toward p q r = p - r := if_neg (not_le.mpr hqp)
  rw [hcut] at hsecond ⊢
  unfold toward
  split
  · rename_i hrest
    rw [abs_of_nonpos (sub_nonpos.mpr hrest)] at hsecond
    linarith
  · linarith

end

namespace Model

variable {left right upper lower r : ℝ} {m : Model ℝ}

/-- Corners that have been rounded were filleted one after the other, on what was left of the sides. -/
theorem fillets_of_filletCorners {top bottom leftSide rightSide : Line ℝ}
    (h : (sides top bottom leftSide rightSide []).filletCorners r = .ok m) :
    ∃ top' left' topLeft, top.fillet leftSide r = .ok (top', left', topLeft) ∧
      ∃ top'' right' topRight, top'.fillet rightSide r = .ok (top'', right', topRight) ∧
        ∃ bottom' left'' bottomLeft, bottom.fillet left' r = .ok (bottom', left'', bottomLeft) ∧
          ∃ bottom'' right'' bottomRight, bottom'.fillet right' r = .ok (bottom'', right'', bottomRight) ∧
            m = sides top'' bottom'' left'' right'' [
              ("filletTopLeft", .arc topLeft), ("filletTopRight", .arc topRight),
              ("filletBottomLeft", .arc bottomLeft), ("filletBottomRight", .arc bottomRight)] := by
  unfold filletCorners corners at h
  simp only [List.foldlM_cons, List.foldlM_nil] at h
  obtain ⟨m₁, h₁, h⟩ := Except.bind_eq_ok_iff.mp h
  obtain ⟨m₂, h₂, h⟩ := Except.bind_eq_ok_iff.mp h
  obtain ⟨m₃, h₃, h⟩ := Except.bind_eq_ok_iff.mp h
  obtain ⟨m₄, h₄, h⟩ := Except.bind_eq_ok_iff.mp h
  cases h
  obtain ⟨top', left', topLeft, hfillet₁, rfl⟩ := fillet_of_addFillet rfl rfl h₁
  obtain ⟨top'', right', topRight, hfillet₂, rfl⟩ := fillet_of_addFillet rfl rfl h₂
  obtain ⟨bottom', left'', bottomLeft, hfillet₃, rfl⟩ := fillet_of_addFillet rfl rfl h₃
  obtain ⟨bottom'', right'', bottomRight, hfillet₄, rfl⟩ := fillet_of_addFillet rfl rfl h₄
  exact ⟨_, _, _, hfillet₁, _, _, _, hfillet₂, _, _, _, hfillet₃, _, _, _, hfillet₄, rfl⟩

/-- The sides of a rectangle once its corners are rounded. -/
theorem sides_of_filletCorners (h : (rectangle left right upper lower).filletCorners r = .ok m) :
    FitsTwice left right r ∧ FitsTwice upper lower r ∧ ∃ arcs, m = sides
      ⟨⟨toward left right r, upper⟩, ⟨toward right (toward left right r) r, upper⟩⟩
      ⟨⟨toward left right r, lower⟩, ⟨toward right (toward left right r) r, lower⟩⟩
      ⟨⟨left, toward upper lower r⟩, ⟨left, toward lower (toward upper lower r) r⟩⟩
      ⟨⟨right, toward upper lower r⟩, ⟨right, toward lower (toward upper lower r) r⟩⟩ arcs := by
  have hsides : rectangle left right upper lower = sides ⟨⟨left, upper⟩, ⟨right, upper⟩⟩
      ⟨⟨left, lower⟩, ⟨right, lower⟩⟩ ⟨⟨left, upper⟩, ⟨left, lower⟩⟩ ⟨⟨right, upper⟩, ⟨right, lower⟩⟩ [] := rfl
  rw [hsides] at h
  obtain ⟨top', left', _, h₁, top'', right', _, h₂, bottom', left'', _, h₃, bottom'', right'', _, h₄, rfl⟩ :=
    fillets_of_filletCorners h
  obtain ⟨hwide₁, htall₁, rfl, rfl⟩ := Line.cut_of_fillet (e := .start) (f := .start) h₁ rfl rfl rfl
  obtain ⟨hwide₂, -, rfl, rfl⟩ := Line.cut_of_fillet (e := .stop) (f := .start) h₂ rfl rfl rfl
  obtain ⟨-, htall₃, rfl, rfl⟩ := Line.cut_of_fillet (e := .start) (f := .stop) h₃ rfl rfl rfl
  obtain ⟨-, -, rfl, rfl⟩ := Line.cut_of_fillet (e := .stop) (f := .stop) h₄ rfl rfl rfl
  exact ⟨⟨hwide₁, hwide₂⟩, ⟨htall₁, htall₃⟩, _, rfl⟩

/-! ## The rounded rectangle -/

/-- A level side cut back by `r` at both ends. -/
noncomputable def cutLevel (left right y r : ℝ) : Line ℝ := ⟨⟨toward left right r, y⟩, ⟨toward right left r, y⟩⟩

noncomputable def cutUpright (x upper lower r : ℝ) : Line ℝ := ⟨⟨x, toward upper lower r⟩, ⟨x, toward lower upper r⟩⟩

/-- The arc in the corner `(x, y)` of a rectangle whose opposite corner is `(x', y')`. -/
noncomputable def insideCorner (x x' y y' r : ℝ) : Arc ℝ :=
  Arc.quarter ⟨x, y⟩ (Axis.level.heading ⟨x, y⟩ ⟨x', y⟩) (Axis.upright.heading ⟨x, y⟩ ⟨x, y'⟩) r

/-- The rectangle with its sides cut back and an arc in each corner. -/
noncomputable def roundedRectangle (left right upper lower r : ℝ) : Model ℝ :=
  sides (cutLevel left right upper r) (cutLevel left right lower r) (cutUpright left upper lower r)
    (cutUpright right upper lower r) [
    ("filletTopLeft", .arc (insideCorner left right upper lower r)),
    ("filletTopRight", .arc (insideCorner right left upper lower r)),
    ("filletBottomLeft", .arc (insideCorner left right lower upper r)),
    ("filletBottomRight", .arc (insideCorner right left lower upper r))]

section
variable (x x' y y' : ℝ)

theorem insideCorner_isQuarter (hr : 0 < r) :
    (insideCorner x x' y y' r).IsQuarter ⟨toward x x' r, toward y y' r⟩ r := by
  refine ⟨?_, Arc.quarter_radius _ _ _ r, Arc.quarter_span _ hr (Axis.dot_heading (by decide))⟩
  have hlevel := Axis.level_add_heading ⟨x, y⟩ ⟨x', y⟩ r
  have hupright := Axis.upright_add_heading ⟨x, y⟩ ⟨x, y'⟩ r
  rw [Point.add_def, Point.scale_def, Point.mk.injEq] at hlevel hupright
  rw [insideCorner, Arc.quarter_center, Point.add_def, Point.scale_def, Point.mk.injEq]
  dsimp only [Point.add_def] at hlevel hupright ⊢
  constructor
  · linarith
  · linarith

theorem insideCorner_joins (hr : 0 < r) :
    (insideCorner x x' y y' r).Joins ⟨toward x x' r, y⟩ ⟨x, toward y y' r⟩ := by
  have hlevel := Axis.level_add_heading ⟨x, y⟩ ⟨x', y⟩ r
  have hupright := Axis.upright_add_heading ⟨x, y⟩ ⟨x, y'⟩ r
  dsimp only at hlevel hupright
  rw [← hlevel, ← hupright]
  exact Arc.quarter_joins _ hr (Axis.dot_heading (by decide))

end

/-- The sides and arcs of a rounded rectangle, taken in turn, the lower and the left side backwards. -/
noncomputable def roundedRing (left right upper lower r : ℝ) : List (Line ℝ × Arc ℝ) := [
  (cutLevel left right upper r, insideCorner right left upper lower r),
  (cutUpright right upper lower r, insideCorner right left lower upper r),
  ((cutLevel left right lower r).reverse, insideCorner left right lower upper r),
  ((cutUpright left upper lower r).reverse, insideCorner left right upper lower r)]

theorem isRing_roundedRing (hr : 0 < r) : IsRing (roundedRing left right upper lower r) := by
  intro pair hpair
  simp only [roundedRing, List.rotate_cons_succ, List.rotate_zero, List.cons_append, List.nil_append,
    List.zip_cons_cons, List.zip_nil_left, List.mem_cons, List.not_mem_nil, or_false] at hpair
  obtain rfl | rfl | rfl | rfl := hpair
  · exact insideCorner_joins right left upper lower hr
  · exact (insideCorner_joins right left lower upper hr).symm
  · exact insideCorner_joins left right lower upper hr
  · exact (insideCorner_joins left right upper lower hr).symm

/-- The direction from one coordinate to another, as a sign. -/
noncomputable def sign (p q : ℝ) : ℝ := if p ≤ q then 1 else -1

section
variable {p q : ℝ}

theorem sign_mul_self : sign p q * sign p q = 1 := by
  unfold sign
  split <;> norm_num

theorem sign_symm (hne : p ≠ q) : sign q p = -sign p q := by
  unfold sign
  cases lt_or_gt_of_ne hne with
  | inl hlt => rw [if_neg (not_le.mpr hlt), if_pos hlt.le]
  | inr hgt => rw [if_pos hgt.le, if_neg (not_le.mpr hgt), neg_neg]

theorem add_sign_mul_abs : p + sign p q * |q - p| = q := by
  unfold sign
  split
  · rename_i h
    rw [abs_of_nonneg (sub_nonneg.mpr h)]
    ring
  · rename_i h
    rw [abs_of_neg (sub_neg.mpr (not_le.mp h))]
    ring

theorem toward_eq_add_sign (r : ℝ) : toward p q r = p + sign p q * r := by
  unfold toward sign
  split <;> ring

theorem toward_eq_sub_sign (hne : p ≠ q) (r : ℝ) : toward q p r = p + sign p q * (|q - p| - r) := by
  rw [toward_eq_add_sign, sign_symm hne]
  linear_combination -add_sign_mul_abs (p := p) (q := q)

theorem step_level (y : ℝ) : (Axis.level.heading ⟨p, y⟩ ⟨q, y⟩).step = ⟨sign p q, 0⟩ := by
  unfold Axis.heading sign
  dsimp only
  split <;> rfl

theorem step_upright (x : ℝ) : (Axis.upright.heading ⟨x, p⟩ ⟨x, q⟩).step = ⟨0, sign p q⟩ := by
  unfold Axis.heading sign
  dsimp only
  split <;> rfl

end

theorem cornerArc_eq_insideCorner (x x' y y' r : ℝ) :
    cornerArc ⟨x, y⟩ ⟨sign x x', 0⟩ ⟨0, sign y y'⟩ r = insideCorner x x' y y' r := by
  rw [← step_level y, ← step_upright x]
  rfl

theorem rounded_eq_roundedRectangle (hwidth : left ≠ right) (hheight : upper ≠ lower) (r : ℝ) :
    rounded left upper (sign left right) (sign upper lower) |right - left| |lower - upper| r =
      roundedRectangle left right upper lower r := by
  simp only [rounded, roundedRectangle, sides, cutLevel, cutUpright, spot, ← sign_symm hwidth, ← sign_symm hheight,
    add_sign_mul_abs, toward_eq_sub_sign hwidth, toward_eq_sub_sign hheight,
    toward_eq_add_sign (p := left) (q := right), toward_eq_add_sign (p := upper) (q := lower), mul_zero, add_zero, cornerArc_eq_insideCorner]
  rfl

/-- A rectangle can have its corners rounded exactly if twice the radius fits both of its sides, but for the tolerance.
Then its sides are cut back by the radius, a quarter circle of that radius stands in each corner with its center as far
inside both sides, and sides and arcs are one closed ring. -/
theorem filletCorners_rounds (hwidth : 0.001 ≤ |right - left|) (hheight : 0.001 ≤ |lower - upper|) (hr : 0 < r) :
    ((∃ m, (rectangle left right upper lower).filletCorners r = .ok m) ↔
      2 * r ≤ |right - left| + 1e-6 ∧ 2 * r ≤ |lower - upper| + 1e-6) ∧
    ∀ m, (rectangle left right upper lower).filletCorners r = .ok m →
      m = roundedRectangle left right upper lower r ∧
      (insideCorner left right upper lower r).IsQuarter ⟨toward left right r, toward upper lower r⟩ r ∧
      (insideCorner right left upper lower r).IsQuarter ⟨toward right left r, toward upper lower r⟩ r ∧
      (insideCorner left right lower upper r).IsQuarter ⟨toward left right r, toward lower upper r⟩ r ∧
      (insideCorner right left lower upper r).IsQuarter ⟨toward right left r, toward lower upper r⟩ r ∧
      IsRing (roundedRing left right upper lower r) := by
  have htol : (jointTolerance : ℝ) = 1e-6 := rfl
  have hleft : left ≠ right := by
    rintro rfl
    rw [sub_self, abs_zero] at hwidth
    norm_num at hwidth
  have hupper : upper ≠ lower := by
    rintro rfl
    rw [sub_self, abs_zero] at hheight
    norm_num at hheight
  have hfits : 2 * r ≤ |right - left| + 1e-6 ∧ 2 * r ≤ |lower - upper| + 1e-6 →
      (rectangle left right upper lower).filletCorners r = .ok (roundedRectangle left right upper lower r) := by
    rintro ⟨hwide, htall⟩
    rw [← rounded_eq_roundedRectangle hleft hupper]
    exact filletCorners_rectangle add_sign_mul_abs.symm add_sign_mul_abs.symm sign_mul_self sign_mul_self hr hwide htall
      (by rw [htol]; linarith) (by rw [htol]; linarith)
  have hnecessary : ∀ m, (rectangle left right upper lower).filletCorners r = .ok m →
      2 * r ≤ |right - left| + 1e-6 ∧ 2 * r ≤ |lower - upper| + 1e-6 := by
    intro m hm
    obtain ⟨hwide, htall, -⟩ := sides_of_filletCorners hm
    rw [abs_sub_comm] at hwidth hheight
    have hwide' := hwide.double_le (by rw [htol]; linarith)
    have htall' := htall.double_le (by rw [htol]; linarith)
    rw [abs_sub_comm] at hwide' htall'
    exact ⟨hwide', htall'⟩
  refine ⟨⟨fun ⟨m, hm⟩ => hnecessary m hm, fun h => ⟨_, hfits h⟩⟩, fun m hm => ⟨?_, ?_, ?_, ?_, ?_, ?_⟩⟩
  · exact Except.ok.inj (hm.symm.trans (hfits (hnecessary m hm)))
  · exact insideCorner_isQuarter left right upper lower hr
  · exact insideCorner_isQuarter right left upper lower hr
  · exact insideCorner_isQuarter left right lower upper hr
  · exact insideCorner_isQuarter right left lower upper hr
  · exact isRing_roundedRing hr

/-- A plate of 19.05 by 19.05 takes a radius of 1. -/
theorem unitPlate_rounds : (0.001 : ℝ) ≤ |19.05 - 0| ∧ (0.001 : ℝ) ≤ |0 - 19.05| ∧ (0 : ℝ) < 1 ∧
    (rectangle (0 : ℝ) 19.05 19.05 0).filletCorners 1 = .ok (roundedRectangle 0 19.05 19.05 0 1) := by
  have hwidth : (0.001 : ℝ) ≤ |19.05 - 0| := by norm_num
  have hheight : (0.001 : ℝ) ≤ |0 - 19.05| := by norm_num
  have hrounds := filletCorners_rounds hwidth hheight one_pos
  obtain ⟨m, hm⟩ := hrounds.1.mpr ⟨by norm_num, by norm_num⟩
  refine ⟨hwidth, hheight, one_pos, ?_⟩
  rw [hm, (hrounds.2 m hm).1]

end Model

end KeyboardPlate
