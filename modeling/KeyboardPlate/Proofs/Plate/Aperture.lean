import KeyboardPlate.Proofs.Plate.Rounded
import KeyboardPlate.Proofs.Decimal.Rounding
import KeyboardPlate.Proofs.Plate.Build
import KeyboardPlate.Proofs.Plate.Drawn
import KeyboardPlate.Plate.Aperture

/-!
# Radii too large for an aperture

A rounded aperture has its radius measured against its sides, so none of them is drawn backwards. An aperture with
corners that are cut out has not: a side that is shorter than the two insets at its ends is drawn from the wrong end.
-/

set_option autoImplicit false

namespace KeyboardPlate

theorem Plate.length_eq_ok_iff {α : Type} {x : Option Decimal} {d : Decimal} :
    (Plate.length x : Except (PlateError α) Decimal) = .ok d ↔ x = some d := by
  cases x with
  | none => exact ⟨nofun, nofun⟩
  | some _ => exact ⟨fun h => congrArg some (Except.ok.inj h), fun h => congrArg Except.ok (Option.some.inj h)⟩

/-- The two ends of a side change places as soon as the inset is more than half of the side. -/
theorem Decimal.inset_crosses_iff {half inset near far : Decimal} (hnear : (-half).add? inset = some near)
    (hfar : half.sub? inset = some far) : far.toRat < near.toRat ↔ half < inset := by
  have hneg := toRat_neg half
  rw [lt_iff_toRat]
  constructor
  · intro hcross
    by_contra hle
    have hfar' : 0 ≤ far.toRat := not_lt.mp (mt (sub?_neg_iff hfar).mp hle)
    have hnear' := add?_nonpos hnear (by linarith)
    linarith
  · intro hlt
    have hfar' := (sub?_neg_iff hfar).mpr hlt
    have hnear' : 0 ≤ near.toRat := not_lt.mp (mt (add?_neg_iff hnear).mp (by linarith))
    linarith

namespace Aperture

/-- How far from the corner a side starts if corners are cut out. -/
noncomputable def inset? (radius : Decimal) : Option Decimal :=
  (relief (α := ℝ) radius).toOption.bind fun sizes => sizes.shrink.add? sizes.reach

/-- The sides of an aperture, by their names. -/
structure HasSides (m : Model ℝ) (top bottom left right : Line ℝ) : Prop where
  top : Named.get? "lineTop" m.paths = some (.line top)
  bottom : Named.get? "lineBottom" m.paths = some (.line bottom)
  left : Named.get? "lineLeft" m.paths = some (.line left)
  right : Named.get? "lineRight" m.paths = some (.line right)

variable {o : Options} {m : Model ℝ} {halfWidth halfHeight radius : Decimal}

theorem not_le_zero (hradius : 0 < radius) : ¬ radius ≤ 0 := by
  rw [Decimal.le_iff_toRat, not_le]
  exact Decimal.lt_iff_toRat.mp hradius

/-- The sides of a rectangle with its corners cut out, between the insets at its corners. -/
theorem sides_of_dogbone (h : dogbone halfWidth halfHeight radius = .ok m) :
    ∃ inset innerLeft innerRight innerUpper innerLower, inset? radius = some inset ∧
      (-halfWidth).add? inset = some innerLeft ∧ halfWidth.sub? inset = some innerRight ∧
      halfHeight.sub? inset = some innerUpper ∧ (-halfHeight).add? inset = some innerLower ∧
      HasSides m ⟨point innerLeft halfHeight, point innerRight halfHeight⟩
        ⟨point innerLeft (-halfHeight), point innerRight (-halfHeight)⟩
        ⟨point (-halfWidth) innerUpper, point (-halfWidth) innerLower⟩
        ⟨point halfWidth innerUpper, point halfWidth innerLower⟩ := by
  unfold dogbone at h
  obtain ⟨sizes, hsizes, h⟩ := Except.bind_eq_ok_iff.mp h
  dsimp only at h
  simp only [Except.bind_eq_ok_iff, Plate.length_eq_ok_iff] at h
  obtain ⟨left, -, right, -, upper, -, lower, -, inset, hinset, outerX, -, outerY, -, innerLeft, hinnerLeft, innerRight,
    hinnerRight, innerUpper, hinnerUpper, innerLower, hinnerLower, h⟩ := h
  cases h
  have hinset' : inset? radius = some inset := by
    unfold inset?
    rw [hsizes]
    exact hinset
  have hnodup : dogboneNames.Nodup := by decide
  refine ⟨inset, innerLeft, innerRight, innerUpper, innerLower, hinset', hinnerLeft, hinnerRight, hinnerUpper,
    hinnerLower, ?_, ?_, ?_, ?_⟩
  all_goals
    refine (Named.get?_eq_some_iff ?_).mpr (by simp)
    rw [Named.names_append, Named.names_append, names_arcs, names_arcs]
    exact hnodup

/-- The sides of a rectangle whose corners are rounded do not run backwards, but for the tolerance. -/
theorem forward_of_filletCorners {width height r : ℝ} (hwidth : 0 ≤ width) (hheight : 0 ≤ height) (hr : 0 < r)
    (h : (Model.rectangle (-width) width height (-height)).filletCorners r = .ok m) :
    ∃ top bottom left right, HasSides m top bottom left right ∧
      top.start.x ≤ top.stop.x + 1e-6 ∧ bottom.start.x ≤ bottom.stop.x + 1e-6 ∧
      left.stop.y ≤ left.start.y + 1e-6 ∧ right.stop.y ≤ right.start.y + 1e-6 := by
  obtain ⟨hacross, hdown, arcs, rfl⟩ := Model.sides_of_filletCorners h
  have hlevel := hacross.toward_le (by linarith) hr
  have htall : -height < height := by
    refine lt_of_le_of_ne (by linarith) fun heq => ?_
    have hlong := Line.jointTolerance_pos.trans_le hdown.first.long
    rw [heq, sub_self, abs_zero] at hlong
    exact lt_irrefl _ hlong
  have hupright := hdown.le_toward htall
  exact ⟨_, _, _, _, ⟨rfl, rfl, rfl, rfl⟩, hlevel, hlevel, hupright, hupright⟩

theorem dogbone_of_upright (hradius : 0 < o.switchFilletRadius) (hdogbone : o.switchDogbone = true)
    (h : upright o = .ok m) : ∃ halfWidth halfHeight, o.switchWidth.half? = some halfWidth ∧
      o.switchHeight.half? = some halfHeight ∧ dogbone halfWidth halfHeight o.switchFilletRadius = .ok m := by
  obtain ⟨halfWidth, hhalfWidth, h⟩ := Except.bind_eq_ok_iff.mp h
  obtain ⟨halfHeight, hhalfHeight, h⟩ := Except.bind_eq_ok_iff.mp h
  rw [Plate.length_eq_ok_iff] at hhalfWidth hhalfHeight
  dsimp only at h
  rw [if_neg (not_le_zero hradius), if_pos hdogbone] at h
  exact ⟨halfWidth, halfHeight, hhalfWidth, hhalfHeight, h⟩

theorem filletCorners_of_upright (hradius : 0 < o.switchFilletRadius) (hdogbone : o.switchDogbone = false)
    (h : upright o = .ok m) : ∃ halfWidth halfHeight, o.switchWidth.half? = some halfWidth ∧
      o.switchHeight.half? = some halfHeight ∧ (Model.rectangle (-halfWidth.toRat : ℝ) halfWidth.toRat
        halfHeight.toRat (-halfHeight.toRat)).filletCorners (o.switchFilletRadius.toRat : ℝ) = .ok m := by
  obtain ⟨halfWidth, hhalfWidth, h⟩ := Except.bind_eq_ok_iff.mp h
  obtain ⟨halfHeight, hhalfHeight, h⟩ := Except.bind_eq_ok_iff.mp h
  rw [Plate.length_eq_ok_iff] at hhalfWidth hhalfHeight
  dsimp only at h
  rw [if_neg (not_le_zero hradius), hdogbone, if_neg Bool.false_ne_true, Scalar.ofDecimal_neg,
    Scalar.ofDecimal_neg] at h
  exact ⟨halfWidth, halfHeight, hhalfWidth, hhalfHeight, Except.mapError_eq_ok_iff.mp h⟩

end Aperture

open Aperture

/-- An aperture with a positive radius has four sides. If its corners are rounded, they do not run backwards, but for
the tolerance. If its corners are cut out, they run backwards exactly where the inset at a corner is more than half of
the side. -/
theorem Key.aperture_sides {k : Key} {o : Options} {m : Model ℝ} (hwidth : 0 < o.switchWidth)
    (hheight : 0 < o.switchHeight) (hradius : 0 < o.switchFilletRadius) (h : k.aperture o = .ok m) :
    ∃ upright top bottom left right, m = (if k.isVertical then upright.rotate (-90.0) .zero else upright) ∧
      HasSides upright top bottom left right ∧
      (o.switchDogbone = false → top.start.x ≤ top.stop.x + 1e-6 ∧ bottom.start.x ≤ bottom.stop.x + 1e-6 ∧
        left.stop.y ≤ left.start.y + 1e-6 ∧ right.stop.y ≤ right.start.y + 1e-6) ∧
      (o.switchDogbone = true → ∃ halfWidth halfHeight inset, o.switchWidth.half? = some halfWidth ∧
        o.switchHeight.half? = some halfHeight ∧ inset? o.switchFilletRadius = some inset ∧
        (top.stop.x < top.start.x ↔ halfWidth < inset) ∧ (bottom.stop.x < bottom.start.x ↔ halfWidth < inset) ∧
        (left.start.y < left.stop.y ↔ halfHeight < inset) ∧ (right.start.y < right.stop.y ↔ halfHeight < inset)) := by
  obtain ⟨upright, hupright, h⟩ := Except.bind_eq_ok_iff.mp h
  cases h
  cases hdogbone : o.switchDogbone with
  | false =>
    obtain ⟨halfWidth, halfHeight, hhalfWidth, hhalfHeight, hfillet⟩ :=
      filletCorners_of_upright hradius hdogbone hupright
    have hnonnegWidth := Decimal.half?_nonneg (Decimal.nonneg_iff.mp (Decimal.le_of_lt hwidth)) hhalfWidth
    have hnonnegHeight := Decimal.half?_nonneg (Decimal.nonneg_iff.mp (Decimal.le_of_lt hheight)) hhalfHeight
    obtain ⟨top, bottom, left, right, hsides, hforward⟩ := forward_of_filletCorners (Rat.cast_nonneg.mpr hnonnegWidth)
      (Rat.cast_nonneg.mpr hnonnegHeight) (Rat.cast_pos.mpr (Decimal.pos_iff.mp hradius)) hfillet
    exact ⟨upright, top, bottom, left, right, rfl, hsides, fun _ => hforward, nofun⟩
  | true =>
    obtain ⟨halfWidth, halfHeight, hhalfWidth, hhalfHeight, hcut⟩ := dogbone_of_upright hradius hdogbone hupright
    obtain ⟨inset, innerLeft, innerRight, innerUpper, innerLower, hinset, hinnerLeft, hinnerRight, hinnerUpper,
      hinnerLower, hsides⟩ := sides_of_dogbone hcut
    have hacross : (Scalar.ofDecimal innerRight : ℝ) < Scalar.ofDecimal innerLeft ↔ halfWidth < inset :=
      Rat.cast_lt.trans (Decimal.inset_crosses_iff hinnerLeft hinnerRight)
    have hdown : (Scalar.ofDecimal innerUpper : ℝ) < Scalar.ofDecimal innerLower ↔ halfHeight < inset :=
      Rat.cast_lt.trans (Decimal.inset_crosses_iff hinnerLower hinnerUpper)
    exact ⟨upright, _, _, _, _, rfl, hsides, nofun, fun _ => ⟨halfWidth, halfHeight, inset, hhalfWidth, hhalfHeight,
      hinset, hacross, hacross, hdown, hdown⟩⟩

/-- A key higher than wide, whose aperture is turned. -/
def uprightKey : Key :=
  { x := 0, y := 0, height := 2, centerX := 0.5, centerY := 1, center_eq := by decide +kernel }

/-- An aperture wider than high. -/
def lowOptions : Options := { switchHeight := 10 }

theorem uprightKey_aperture_sides : ∃ m : Model ℝ, 0 < lowOptions.switchWidth ∧ 0 < lowOptions.switchHeight ∧
    0 < lowOptions.switchFilletRadius ∧ uprightKey.aperture lowOptions = .ok m ∧
    ∃ upright top bottom left right, m = upright.rotate (-90.0) .zero ∧ HasSides upright top bottom left right ∧
      top.start.x ≤ top.stop.x ∧ bottom.start.x ≤ bottom.stop.x ∧
      left.stop.y ≤ left.start.y ∧ right.stop.y ≤ right.start.y := by
  have hwidth : 0 < lowOptions.switchWidth := by decide +kernel
  have hheight : 0 < lowOptions.switchHeight := by decide +kernel
  have hradius : 0 < lowOptions.switchFilletRadius := by decide +kernel
  have hbuilt : (uprightKey.aperture lowOptions : Except (PlateError ℝ) (Model ℝ)).isOk = true := by decide +kernel
  obtain ⟨m, hm⟩ := Except.exists_of_isOk hbuilt
  obtain ⟨upright, top, bottom, left, right, hturned, hsides, -, hcut⟩ :=
    Key.aperture_sides hwidth hheight hradius hm
  obtain ⟨halfWidth, halfHeight, inset, hhalfWidth, hhalfHeight, hinset, htop, hbottom, hleft, hright⟩ := hcut rfl
  have hfits : ∀ inset ∈ inset? lowOptions.switchFilletRadius,
      (∀ half ∈ lowOptions.switchWidth.half?, ¬ half < inset) ∧
        ∀ half ∈ lowOptions.switchHeight.half?, ¬ half < inset := by
    decide +kernel
  obtain ⟨hacross, hdown⟩ := hfits inset hinset
  have hacross := hacross halfWidth hhalfWidth
  have hdown := hdown halfHeight hhalfHeight
  exact ⟨m, hwidth, hheight, hradius, hm, upright, top, bottom, left, right, hturned, hsides,
    not_lt.mp (mt htop.mp hacross), not_lt.mp (mt hbottom.mp hacross), not_lt.mp (mt hleft.mp hdown),
    not_lt.mp (mt hright.mp hdown)⟩

/-- A radius of more than half of the aperture. -/
def oversizedOptions : Options := { switchFilletRadius := 8 }

theorem not_forall_sides_forward : ¬ ∀ (k : Key) (o : Options) (m : Model ℝ), 0 < o.switchWidth → 0 < o.switchHeight →
    0 < o.switchFilletRadius → k.aperture o = .ok m →
      ∃ upright top bottom left right, m = (if k.isVertical then upright.rotate (-90.0) .zero else upright) ∧
        HasSides upright top bottom left right ∧
        top.start.x ≤ top.stop.x + 1e-6 ∧ bottom.start.x ≤ bottom.stop.x + 1e-6 ∧
        left.stop.y ≤ left.start.y + 1e-6 ∧ right.stop.y ≤ right.start.y + 1e-6 := by
  intro hall
  have hradius : 0 < oversizedOptions.switchFilletRadius := by decide +kernel
  have hlevel : ¬ Plate.unitKey.isVertical = true := by decide +kernel
  have hbuilt : (Aperture.upright oversizedOptions : Except (PlateError ℝ) (Model ℝ)).isOk = true := by decide +kernel
  obtain ⟨m, hm⟩ := Except.exists_of_isOk hbuilt
  have haperture : Plate.unitKey.aperture oversizedOptions = .ok m :=
    Except.bind_eq_ok_iff.mpr ⟨m, hm, congrArg Except.ok (if_neg hlevel)⟩
  obtain ⟨upright, top, bottom, left, right, hturned, hsides, hforward, -⟩ :=
    hall Plate.unitKey oversizedOptions m (by decide +kernel) (by decide +kernel) hradius haperture
  rw [if_neg hlevel] at hturned
  subst hturned
  obtain ⟨halfWidth, halfHeight, hhalfWidth, -, hcut⟩ := dogbone_of_upright hradius rfl hm
  obtain ⟨inset, near, far, _, _, hinset, hnear, hfar, -, -, hsides'⟩ := sides_of_dogbone hcut
  have hcrosses : ∀ inset ∈ inset? oversizedOptions.switchFilletRadius, ∀ half ∈ oversizedOptions.switchWidth.half?,
      ∀ near ∈ (-half).add? inset, ∀ far ∈ half.sub? inset, far.toRat + 1 / 1000000 < near.toRat := by decide +kernel
  have hreversed := hcrosses inset hinset halfWidth hhalfWidth near hnear far hfar
  have htop := Option.some.inj (hsides.top.symm.trans hsides'.top)
  rw [Path.line.injEq] at htop
  rw [htop] at hforward
  have hcast := (Rat.cast_lt (K := ℝ)).mpr hreversed
  push_cast at hcast
  have htolerance : (1e-6 : ℝ) = 1 / 1000000 := by norm_num
  change (near.toRat : ℝ) ≤ far.toRat + 1e-6 at hforward
  rw [htolerance] at hforward
  exact absurd hforward (not_le.mpr hcast)

end KeyboardPlate
