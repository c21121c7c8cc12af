import KeyboardPlate.Plate.Rectangle
import KeyboardPlate.Proofs.Except
import KeyboardPlate.Proofs.Geometry.Fillet

/-!
# Rounded rectangles

The corners of a rectangle are rounded one after the other, so each side is cut at one end before the other.
That works if twice the radius fits both sides.
-/

set_option autoImplicit false

namespace KeyboardPlate.Model

open Line (Square)

variable {x y sx sy radius width height : ℝ} {first second name : String}

theorem addFillet_of_fillet {m : Model ℝ} {a b a' b' : Line ℝ} {arc : Arc ℝ}
    (ha : Named.get? first m.paths = some (.line a)) (hb : Named.get? second m.paths = some (.line b))
    (hradius : 0 < radius) (h : a.fillet b radius = .ok (a', b', arc)) :
    m.addFillet name first second radius =
      .ok (((m.addPath first (.line a')).addPath second (.line b')).addPath name (.arc arc)) := by
  have hzero : ¬ radius ≤ (0.0 : ℝ) := by
    have heq : (0.0 : ℝ) = 0 := by norm_num
    rw [heq, not_le]
    exact hradius
  have hpath : Path.fillet (.line a) (.line b) radius = .ok (a', b', arc) := by
    rw [← h]
    exact if_neg hzero
  unfold addFillet filletPaths
  rw [ha, hb]
  dsimp only
  rw [hpath]
  rfl

/-- A fillet that is drawn between two lines has cut them, and stands where they were. -/
theorem fillet_of_addFillet {m m' : Model ℝ} {a b : Line ℝ} (ha : Named.get? first m.paths = some (.line a))
    (hb : Named.get? second m.paths = some (.line b)) (h : m.addFillet name first second radius = .ok m') :
    ∃ a' b' arc, a.fillet b radius = .ok (a', b', arc) ∧
      m' = ((m.addPath first (.line a')).addPath second (.line b')).addPath name (.arc arc) := by
  obtain ⟨⟨cut, arc⟩, hcut, rfl⟩ := Except.map_eq_ok_iff.mp h
  unfold filletPaths at hcut
  rw [ha, hb] at hcut
  dsimp only at hcut
  split at hcut
  · cases hcut
  · rename_i a' b' arc' hfillet
    cases hcut
    unfold Path.fillet at hfillet
    split at hfillet
    · cases hfillet
    · exact ⟨a', b', arc, hfillet, rfl⟩

/-- The arc between two perpendicular directions from a corner. -/
noncomputable def cornerArc (c u v : Point ℝ) (radius : ℝ) : Arc ℝ :=
  Line.shorterArc (c + (u + v).scale radius) radius (c + u.scale radius) (c + v.scale radius)

theorem fillet_corner {a b : Line ℝ} {e f : End} {c u v : Point ℝ} {lengthA lengthB : ℝ}
    (h : Square a b e f c u v lengthA lengthB) (radius : ℝ) (hA : radius ≤ lengthA + jointTolerance)
    (hB : radius ≤ lengthB + jointTolerance) :
    a.fillet b radius =
      .ok (a.withEnd (c + u.scale radius) e, b.withEnd (c + v.scale radius) f, cornerArc c u v radius) := by
  rw [h.fillet, if_neg]
  · rfl
  · rw [not_or, not_lt, not_lt]
    exact ⟨hA, hB⟩

/-- A point of a rectangle, by how far it is from its left and its upper side. -/
def spot (x y sx sy s t : ℝ) : Point ℝ := ⟨x + sx * s, y + sy * t⟩

theorem spot_right (s t k : ℝ) : spot x y sx sy s t + Point.scale k ⟨sx, 0⟩ = spot x y sx sy (s + k) t := by
  rw [Point.scale_def, Point.add_def, spot, spot]
  congr 1
  · ring
  · ring

theorem spot_left (s t k : ℝ) : spot x y sx sy s t + Point.scale k ⟨-sx, 0⟩ = spot x y sx sy (s - k) t := by
  rw [Point.scale_def, Point.add_def, spot, spot]
  congr 1
  · ring
  · ring

theorem spot_down (s t k : ℝ) : spot x y sx sy s t + Point.scale k ⟨0, sy⟩ = spot x y sx sy s (t + k) := by
  rw [Point.scale_def, Point.add_def, spot, spot]
  congr 1
  · ring
  · ring

theorem spot_up (s t k : ℝ) : spot x y sx sy s t + Point.scale k ⟨0, -sy⟩ = spot x y sx sy s (t - k) := by
  rw [Point.scale_def, Point.add_def, spot, spot]
  congr 1
  · ring
  · ring

/-- The rectangle with its sides cut back and an arc at each corner. -/
noncomputable def rounded (x y sx sy width height radius : ℝ) : Model ℝ :=
  let at' := spot x y sx sy
  { paths := [
      ("lineTop", .between (at' radius 0) (at' (width - radius) 0)),
      ("lineBottom", .between (at' radius height) (at' (width - radius) height)),
      ("lineLeft", .between (at' 0 radius) (at' 0 (height - radius))),
      ("lineRight", .between (at' width radius) (at' width (height - radius))),
      ("filletTopLeft", .arc (cornerArc (at' 0 0) ⟨sx, 0⟩ ⟨0, sy⟩ radius)),
      ("filletTopRight", .arc (cornerArc (at' width 0) ⟨-sx, 0⟩ ⟨0, sy⟩ radius)),
      ("filletBottomLeft", .arc (cornerArc (at' 0 height) ⟨sx, 0⟩ ⟨0, -sy⟩ radius)),
      ("filletBottomRight", .arc (cornerArc (at' width height) ⟨-sx, 0⟩ ⟨0, -sy⟩ radius))] }

/-- The four sides, and the arcs drawn so far. -/
def sides (top bottom left right : Line ℝ) (arcs : List (String × Path ℝ)) : Model ℝ :=
  { paths := [("lineTop", .line top), ("lineBottom", .line bottom), ("lineLeft", .line left),
      ("lineRight", .line right)] ++ arcs }

theorem filletCorners_sides {top bottom left right top' left' top'' right' bottom' left'' bottom'' right'' : Line ℝ}
    {topLeft topRight bottomLeft bottomRight : Arc ℝ} (hradius : 0 < radius)
    (h₁ : top.fillet left radius = .ok (top', left', topLeft))
    (h₂ : top'.fillet right radius = .ok (top'', right', topRight))
    (h₃ : bottom.fillet left' radius = .ok (bottom', left'', bottomLeft))
    (h₄ : bottom'.fillet right' radius = .ok (bottom'', right'', bottomRight)) :
    (sides top bottom left right []).filletCorners radius = .ok (sides top'' bottom'' left'' right'' [
      ("filletTopLeft", .arc topLeft), ("filletTopRight", .arc topRight),
      ("filletBottomLeft", .arc bottomLeft), ("filletBottomRight", .arc bottomRight)]) := by
  have step₁ : (sides top bottom left right []).addFillet "filletTopLeft" "lineTop" "lineLeft" radius =
      .ok (sides top' bottom left' right [("filletTopLeft", .arc topLeft)]) :=
    addFillet_of_fillet rfl rfl hradius h₁
  have step₂ : (sides top' bottom left' right [("filletTopLeft", .arc topLeft)]).addFillet "filletTopRight" "lineTop"
      "lineRight" radius = .ok (sides top'' bottom left' right' [("filletTopLeft", .arc topLeft),
        ("filletTopRight", .arc topRight)]) :=
    addFillet_of_fillet rfl rfl hradius h₂
  have step₃ : (sides top'' bottom left' right' [("filletTopLeft", .arc topLeft),
      ("filletTopRight", .arc topRight)]).addFillet "filletBottomLeft" "lineBottom" "lineLeft" radius =
        .ok (sides top'' bottom' left'' right' [("filletTopLeft", .arc topLeft),
          ("filletTopRight", .arc topRight), ("filletBottomLeft", .arc bottomLeft)]) :=
    addFillet_of_fillet rfl rfl hradius h₃
  have step₄ : (sides top'' bottom' left'' right' [("filletTopLeft", .arc topLeft),
      ("filletTopRight", .arc topRight), ("filletBottomLeft", .arc bottomLeft)]).addFillet "filletBottomRight"
        "lineBottom" "lineRight" radius = .ok (sides top'' bottom'' left'' right'' [("filletTopLeft", .arc topLeft),
          ("filletTopRight", .arc topRight), ("filletBottomLeft", .arc bottomLeft),
          ("filletBottomRight", .arc bottomRight)]) :=
    addFillet_of_fillet rfl rfl hradius h₄
  unfold filletCorners corners
  simp only [List.foldlM_cons, List.foldlM_nil]
  refine Except.bind_eq_ok_iff.mpr ⟨_, step₁, ?_⟩
  refine Except.bind_eq_ok_iff.mpr ⟨_, step₂, ?_⟩
  refine Except.bind_eq_ok_iff.mpr ⟨_, step₃, ?_⟩
  exact Except.bind_eq_ok_iff.mpr ⟨_, step₄, rfl⟩

theorem square_of_spots {a b : Line ℝ} {e f : End} {c : Point ℝ} {σ τ lengthA lengthB : ℝ}
    (hσ : σ * σ = 1) (hτ : τ * τ = 1) (hA : a.point e = c) (hB : b.point f = c)
    (hfarA : a.far e = c + Point.scale lengthA ⟨σ, 0⟩) (hfarB : b.far f = c + Point.scale lengthB ⟨0, τ⟩)
    (hlongA : jointTolerance ≤ lengthA) (hlongB : jointTolerance ≤ lengthB) :
    Square a b e f c ⟨σ, 0⟩ ⟨0, τ⟩ lengthA lengthB where
  cornerA := hA
  cornerB := hB
  farA := hfarA
  farB := hfarB
  unitA := by simp [Point.dot_def, hσ]
  unitB := by simp [Point.dot_def, hτ]
  square := by simp [Point.dot_def]
  longA := hlongA
  longB := hlongB

/-- A rectangle whose sides are at least twice the radius, but for the tolerance, gets its corners rounded. -/
theorem filletCorners_rectangle {right lower : ℝ} (hright : right = x + sx * width) (hlower : lower = y + sy * height)
    (hx : sx * sx = 1) (hy : sy * sy = 1) (hradius : 0 < radius)
    (hwidth : 2 * radius ≤ width + jointTolerance) (hheight : 2 * radius ≤ height + jointTolerance)
    (hlong : jointTolerance ≤ width - radius) (htall : jointTolerance ≤ height - radius) :
    (rectangle x right y lower).filletCorners radius = .ok (rounded x y sx sy width height radius) := by
  subst hright hlower
  have htol := Line.jointTolerance_pos
  have hx' : -sx * -sx = 1 := by rw [neg_mul_neg, hx]
  have hy' : -sy * -sy = 1 := by rw [neg_mul_neg, hy]
  have hsides : rectangle x (x + sx * width) y (y + sy * height) = sides
      ⟨spot x y sx sy 0 0, spot x y sx sy width 0⟩ ⟨spot x y sx sy 0 height, spot x y sx sy width height⟩
      ⟨spot x y sx sy 0 0, spot x y sx sy 0 height⟩ ⟨spot x y sx sy width 0, spot x y sx sy width height⟩ [] := by
    simp [rectangle, sides, spot]
  -- each corner with the two sides as the fillets before it have left them
  have htopLeft : Square ⟨spot x y sx sy 0 0, spot x y sx sy width 0⟩
      ⟨spot x y sx sy 0 0, spot x y sx sy 0 height⟩ .start .start (spot x y sx sy 0 0) ⟨sx, 0⟩ ⟨0, sy⟩ width height :=
    square_of_spots hx hy rfl rfl (by rw [spot_right, zero_add]; rfl) (by rw [spot_down, zero_add]; rfl)
      (by linarith) (by linarith)
  have htopRight : Square ⟨spot x y sx sy radius 0, spot x y sx sy width 0⟩
      ⟨spot x y sx sy width 0, spot x y sx sy width height⟩ .stop .start (spot x y sx sy width 0) ⟨-sx, 0⟩ ⟨0, sy⟩
      (width - radius) height :=
    square_of_spots hx' hy rfl rfl (by rw [spot_left, sub_sub_cancel]; rfl) (by rw [spot_down, zero_add]; rfl)
      hlong (by linarith)
  have hbottomLeft : Square ⟨spot x y sx sy 0 height, spot x y sx sy width height⟩
      ⟨spot x y sx sy 0 radius, spot x y sx sy 0 height⟩ .start .stop (spot x y sx sy 0 height) ⟨sx, 0⟩ ⟨0, -sy⟩
      width (height - radius) :=
    square_of_spots hx hy' rfl rfl (by rw [spot_right, zero_add]; rfl) (by rw [spot_up, sub_sub_cancel]; rfl)
      (by linarith) htall
  have hbottomRight : Square ⟨spot x y sx sy radius height, spot x y sx sy width height⟩
      ⟨spot x y sx sy width radius, spot x y sx sy width height⟩ .stop .stop (spot x y sx sy width height)
      ⟨-sx, 0⟩ ⟨0, -sy⟩ (width - radius) (height - radius) :=
    square_of_spots hx' hy' rfl rfl (by rw [spot_left, sub_sub_cancel]; rfl) (by rw [spot_up, sub_sub_cancel]; rfl)
      hlong htall
  have h₁ := fillet_corner htopLeft radius (by linarith) (by linarith)
  have h₂ := fillet_corner htopRight radius (by linarith) (by linarith)
  have h₃ := fillet_corner hbottomLeft radius (by linarith) (by linarith)
  have h₄ := fillet_corner hbottomRight radius (by linarith) (by linarith)
  simp only [spot_right, spot_left, spot_down, spot_up, zero_add, Line.withEnd] at h₁ h₂ h₃ h₄
  rw [hsides, filletCorners_sides hradius h₁ h₂ h₃ h₄]
  rfl

end KeyboardPlate.Model
