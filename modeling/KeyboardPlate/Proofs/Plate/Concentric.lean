import KeyboardPlate.Proofs.Plate.Aperture
import KeyboardPlate.Proofs.Plate.Moderate
import KeyboardPlate.Proofs.Plate.Names
import KeyboardPlate.Proofs.Model.InPlace

/-!
# Arcs that follow the corners of a plate

The arcs along the edge of a plate have centers of their own: its bounds, inset by its radius. These are the centers of
the fillets of its outline, and the arcs cover the same quarter turns, unless a side of the plate is just as long as the
tolerance. Such a side takes a radius of twice the tolerance at both ends, and the second fillet stands outside it.
-/

set_option autoImplicit false

namespace KeyboardPlate

/-! ## Fillets of upright rectangles -/

theorem FitsTwice.room {p q r : ℝ} (h : FitsTwice p q r) (hpq : p < q)
    (hthick : r = 2 * jointTolerance → q - p ≠ jointTolerance) :
    jointTolerance ≤ q - p - r ∧ 2 * r ≤ q - p + jointTolerance := by
  obtain ⟨⟨hlong, hfits⟩, ⟨hlong', hfits'⟩⟩ := h
  have hcut : toward p q r = p + r := if_pos hpq.le
  rw [abs_of_neg (sub_neg.mpr hpq)] at hlong hfits
  rw [hcut] at hlong' hfits'
  rcases abs_cases (q - (p + r)) with ⟨habs, -⟩ | ⟨habs, -⟩
  · rw [habs] at hlong' hfits'
    constructor
    · linarith
    · linarith
  · -- the first cut has overrun the side by the tolerance, and the second is no longer than that again
    rw [habs] at hlong' hfits'
    have hside : q - p = jointTolerance := by linarith
    exact absurd hside (hthick (by linarith))

theorem cast_jointTolerance : ((1 / 1000000 : ℚ) : ℝ) = jointTolerance := by
  rw [jointTolerance_eq]
  norm_num

namespace Model

variable {left right upper lower r : ℝ} {m : Model ℝ}

theorem filletCorners_upright (hr : 0 < r) (hwide : jointTolerance ≤ right - left - r)
    (hwide' : 2 * r ≤ right - left + jointTolerance) (htall : jointTolerance ≤ lower - upper - r)
    (htall' : 2 * r ≤ lower - upper + jointTolerance) :
    (rectangle left right upper lower).filletCorners r =
      .ok (rounded left upper 1 1 (right - left) (lower - upper) r) :=
  filletCorners_rectangle (by ring) (by ring) (one_mul 1) (one_mul 1) hr hwide' htall' hwide htall

/-- The same of a rectangle of rational numbers, upside down as drawings are. -/
theorem exists_filletCorners_upright {left right upper lower r : ℚ} (hr : 0 < r)
    (hwide : 1 / 1000000 ≤ right - left - r) (hwide' : 2 * r ≤ right - left + 1 / 1000000)
    (htall : 1 / 1000000 ≤ upper - lower - r) (htall' : 2 * r ≤ upper - lower + 1 / 1000000) :
    ∃ m, (rectangle (left : ℝ) right (-upper) (-lower)).filletCorners (r : ℝ) = .ok m := by
  refine ⟨_, filletCorners_upright (Rat.cast_pos.mpr hr) ?_ ?_ ?_ ?_⟩
  · rw [← cast_jointTolerance]
    exact_mod_cast hwide
  · rw [← cast_jointTolerance]
    exact_mod_cast hwide'
  · rw [← cast_jointTolerance, neg_sub_neg]
    exact_mod_cast htall
  · rw [← cast_jointTolerance, neg_sub_neg]
    exact_mod_cast htall'

/-- Corners that have been rounded are, unless a side is just as long as the tolerance and the radius twice that. -/
theorem eq_rounded_of_filletCorners (hacross : left < right) (hdown : upper < lower)
    (hthick : r = 2 * jointTolerance → right - left ≠ jointTolerance ∧ lower - upper ≠ jointTolerance) (hr : 0 < r)
    (h : (rectangle left right upper lower).filletCorners r = .ok m) :
    m = rounded left upper 1 1 (right - left) (lower - upper) r := by
  obtain ⟨hlevel, hupright, -⟩ := sides_of_filletCorners h
  obtain ⟨hwide, hwide'⟩ := hlevel.room hacross fun h => (hthick h).1
  obtain ⟨htall, htall'⟩ := hupright.room hdown fun h => (hthick h).2
  exact Except.ok.inj (h.symm.trans (filletCorners_upright hr hwide hwide' htall htall'))

/-- The quarter circle in each corner of an upright rectangle. -/
noncomputable def cornerFillet (left right upper lower r : ℝ) : Fin 4 → Arc ℝ := ![
  ⟨⟨left + r, upper + r⟩, r, Heading.west.degrees, Heading.south.degrees⟩,
  ⟨⟨right - r, upper + r⟩, r, Heading.south.degrees, Heading.east.degrees⟩,
  ⟨⟨left + r, lower - r⟩, r, Heading.north.degrees, Heading.west.degrees⟩,
  ⟨⟨right - r, lower - r⟩, r, Heading.east.degrees, Heading.north.degrees⟩]

/-- The name of each corner's fillet. -/
def filletName (i : Fin 4) : String := (corners.get i).1

/-- The fillets of the corners, under their names. -/
def HasFillets (m : Model ℝ) (fillets : Fin 4 → Arc ℝ) : Prop :=
  ∀ i, Named.get? (filletName i) m.paths = some (.arc (fillets i))

theorem cornerArc_left {c p : Point ℝ} (h : Heading) (hr : 0 < r) (hp : c + (h.step + h.left.step).scale r = p) :
    cornerArc c h.step h.left.step r = ⟨p, r, h.back.degrees, h.right.degrees⟩ := by
  rw [← hp]
  exact Arc.quarter_left c h hr

theorem cornerArc_right {c p : Point ℝ} (h : Heading) (hr : 0 < r) (hp : c + (h.step + h.right.step).scale r = p) :
    cornerArc c h.step h.right.step r = ⟨p, r, h.left.degrees, h.back.degrees⟩ := by
  rw [← hp]
  exact Arc.quarter_right c h hr

theorem hasFillets_rounded (hr : 0 < r) :
    HasFillets (rounded left upper 1 1 (right - left) (lower - upper) r) (cornerFillet left right upper lower r) := by
  intro i
  fin_cases i
  · refine congrArg (some ∘ Path.arc) (cornerArc_left .east hr ?_)
    simp [spot, Heading.left, Heading.step, Point.add_def, Point.scale_def]
  · refine congrArg (some ∘ Path.arc) (cornerArc_right .west hr ?_)
    simp [spot, Heading.right, Heading.back, Heading.left, Heading.step, Point.add_def, Point.scale_def, sub_eq_add_neg]
  · refine congrArg (some ∘ Path.arc) (cornerArc_right .east hr ?_)
    simp [spot, Heading.right, Heading.back, Heading.left, Heading.step, Point.add_def, Point.scale_def, sub_eq_add_neg]
  · refine congrArg (some ∘ Path.arc) (cornerArc_left .west hr ?_)
    simp [spot, Heading.left, Heading.step, Point.add_def, Point.scale_def, sub_eq_add_neg]

end Model

/-! ## Concentric arcs -/

/-- An arc about the center of another, over the same quarter turn. -/
structure Arc.Follows (a b : Arc ℝ) : Prop where
  center : a.center = b.center
  startAngle : SameAngle a.startAngle b.startAngle
  endAngle : SameAngle a.endAngle b.endAngle
  span : a.span = 90 ∧ b.span = 90

theorem sweep_up_to_turn : sweep Heading.south.degrees 360 = 90 := by
  have hlt : ¬ Heading.south.degrees < 0 := not_lt.mpr (Heading.degrees_nonneg _)
  have hpos : 0 < Heading.south.degrees := by norm_num [Heading.degrees]
  unfold sweep
  rw [normalizeAngle_turn, Heading.normalizeAngle_degrees]
  dsimp only
  rw [if_neg hlt, if_pos hpos]
  norm_num [Heading.degrees]

/-- An arc from one heading to the next, which may be a whole turn up, follows the arc between them. -/
theorem Arc.follows_of_heading {c : Point ℝ} {radius r stop : ℝ} (h : Heading)
    (hstop : SameAngle stop h.left.degrees) (hspan : sweep h.degrees stop = 90) :
    Arc.Follows ⟨c, radius, h.degrees, stop⟩ ⟨c, r, h.degrees, h.left.degrees⟩ where
  center := rfl
  startAngle := SameAngle.refl _
  endAngle := hstop
  span := ⟨hspan, h.sweep_left⟩

namespace Pattern

/-- The parts of a plate's corner arcs, by the coordinates of their centers. -/
noncomputable def cornerParts (left right upper lower : ℝ) : List (Point ℝ × ℝ × ℝ) := [
  (⟨left, upper⟩, 180.0, 270.0),
  (⟨right, upper⟩, 270.0, 360.0),
  (⟨left, lower⟩, 90.0, 180.0),
  (⟨right, lower⟩, 0.0, 90.0)]

theorem cornerParts_eq (left right upper lower : ℝ) : cornerParts left right upper lower = [
    (⟨left, upper⟩, Heading.west.degrees, Heading.south.degrees),
    (⟨right, upper⟩, Heading.south.degrees, 360),
    (⟨left, lower⟩, Heading.north.degrees, Heading.west.degrees),
    (⟨right, lower⟩, Heading.east.degrees, Heading.north.degrees)] := by
  norm_num [cornerParts, Heading.degrees]

/-- The arc that is drawn of a part. -/
def partArc (radius : ℝ) (part : Point ℝ × ℝ × ℝ) : Arc ℝ := ⟨part.1, radius, part.2.1, part.2.2⟩

/-- Drawn about the corners of a rectangle inset by a radius, the arcs follow the fillets of that radius. -/
theorem follows_cornerFillet (left right upper lower r radius : ℝ) (i : Fin 4) :
    ∃ part, (cornerParts (left + r) (right - r) (upper + r) (lower - r))[(i : Nat)]? = some part ∧
      (partArc radius part).Follows (Model.cornerFillet left right upper lower r i) := by
  have hturn : SameAngle 360 Heading.east.degrees := ⟨1, by simp [Heading.degrees]⟩
  rw [cornerParts_eq]
  fin_cases i
  · exact ⟨_, rfl, Arc.follows_of_heading .west (SameAngle.refl _) Heading.west.sweep_left⟩
  · exact ⟨_, rfl, Arc.follows_of_heading .south hturn sweep_up_to_turn⟩
  · exact ⟨_, rfl, Arc.follows_of_heading .north (SameAngle.refl _) Heading.north.sweep_left⟩
  · exact ⟨_, rfl, Arc.follows_of_heading .east (SameAngle.refl _) Heading.east.sweep_left⟩

variable {radius : Decimal} {m : Model ℝ}

theorem drawArcs_append (name : String) (radius : Decimal) (parts : List (Point ℝ × ℝ × ℝ)) (part : Point ℝ × ℝ × ℝ)
    (m : Model ℝ) : drawArcs name radius (parts ++ [part]) m =
      (drawArcs name radius parts m).addPath (name ++ toString parts.length)
        (.arc (partArc (Scalar.ofDecimal radius) part)) := by
  unfold drawArcs
  rw [List.zipIdx_append, List.foldl_append, Nat.zero_add]
  rfl

/-- Under each number stands its arc, and under the numbers behind them what was there. -/
theorem get?_drawArcs (name : String) (radius : Decimal) (parts : List (Point ℝ × ℝ × ℝ)) (m : Model ℝ) (i : Nat) :
    Named.get? (name ++ toString i) (drawArcs name radius parts m).paths =
      (parts[i]?.map fun part => .arc (partArc (Scalar.ofDecimal radius) part)).or
        (Named.get? (name ++ toString i) m.paths) := by
  induction parts using List.reverseRecOn with
  | nil => rfl
  | append_singleton parts part ih =>
    rw [drawArcs_append, Model.addPath, Named.get?_put, ih]
    by_cases hi : i = parts.length
    · subst hi
      rw [if_pos rfl, List.getElem?_concat_length]
      rfl
    · have hname : name ++ toString i ≠ name ++ toString parts.length := by
        intro heq
        rw [String.append_right_inj] at heq
        exact hi (Nat.repr_injective heq)
      rw [if_neg hname]
      rcases Nat.lt_or_gt_of_ne hi with hlt | hgt
      · rw [List.getElem?_append_left hlt]
      · rw [List.getElem?_eq_none hgt.le, List.getElem?_eq_none (by simpa using hgt)]

/-! ## The arcs of a pattern -/

/-- The corner arcs of a drawing are four of one radius, each along the fillet of an outline, or none if the radius has
vanished. -/
structure FollowsCorners (m outline : Model ℝ) (radius : ℝ) : Prop where
  drawn : ∀ i, (∃ path, Named.get? ("beautyArc" ++ toString i) m.paths = some path) ↔ 0 < radius ∧ i < 4
  follows : 0 < radius → ∀ i : Fin 4, ∃ fillet arc,
    Named.get? (Model.filletName i) outline.paths = some (.arc fillet) ∧
      Named.get? ("beautyArc" ++ toString (i : Nat)) m.paths = some (.arc arc) ∧
      arc.radius = radius ∧ arc.Follows fillet

theorem FollowsCorners.withLayer {m outline : Model ℝ} {radius : ℝ} (h : FollowsCorners m outline radius)
    (layer : Layer) : FollowsCorners (m.withLayer layer) outline radius := ⟨h.drawn, h.follows⟩

/-- No length that the corner arcs of a plate are drawn from is rounded. -/
structure Unrounded (b : Bounds) (o : Options) : Prop where
  left : ∀ x ∈ b.minX.add? o.plateRadius, x.toRat = b.minX.toRat + o.plateRadius.toRat
  right : ∀ x ∈ b.maxX.sub? o.plateRadius, x.toRat = b.maxX.toRat - o.plateRadius.toRat
  upper : ∀ y ∈ (-b.maxY).add? o.plateRadius, y.toRat = -b.maxY.toRat + o.plateRadius.toRat
  lower : ∀ y ∈ (-b.minY).sub? o.plateRadius, y.toRat = -b.minY.toRat - o.plateRadius.toRat
  copper : ∀ half ∈ o.plateLineWidth.half?, ∀ radius ∈ o.plateRadius.sub? half,
    radius.toRat = o.plateRadius.toRat - o.plateLineWidth.toRat / 2
  mask : ∀ half ∈ o.plateLineWidth.half?, ∀ radius ∈ o.plateRadius.sub? half,
    ∀ expansion ∈ o.plateSolderMaskExpansion.half?, ∀ radius' ∈ radius.sub? expansion,
      radius'.toRat = radius.toRat - o.plateSolderMaskExpansion.toRat / 2

/-- A drawing whose names have no numbers. -/
def Unnumbered (m : Model ℝ) : Prop := ∀ name ∈ Named.names m.paths, Plate.IsWord name

theorem Unnumbered.get?_eq_none (h : Unnumbered m) (name : String) (i : Nat) :
    Named.get? (name ++ toString i) m.paths = none := by
  by_contra hfound
  obtain ⟨path, hpath⟩ := Option.ne_none_iff_exists'.mp hfound
  exact Plate.not_isWord_append_toString name i (h _ (Named.mem_names_of_get? hpath))

/-- On a drawing whose names have no numbers there are as many numbered arcs as have been drawn. -/
theorem Unnumbered.exists_numbered_iff (h : Unnumbered m) (name : String) (radius : Decimal)
    (parts : List (Point ℝ × ℝ × ℝ)) (i : Nat) :
    (∃ path, Named.get? (name ++ toString i) (drawArcs name radius parts m).paths = some path) ↔ i < parts.length := by
  rw [get?_drawArcs, h.get?_eq_none, Option.or_none, ← Option.isSome_iff_exists, Option.isSome_map,
    Option.isSome_iff_ne_none, Ne, List.getElem?_eq_none_iff, not_le]

variable {b : Bounds} {o : Options} {outline base : Model ℝ} {plateRadius distance : Decimal}

theorem sides_of_inset (h : inset b distance = .ok base) :
    ∃ top bottom left right, base = Model.sides top bottom left right [] := by
  obtain ⟨left, -, h⟩ := Except.bind_eq_ok_iff.mp h
  obtain ⟨right, -, h⟩ := Except.bind_eq_ok_iff.mp h
  obtain ⟨upper, -, h⟩ := Except.bind_eq_ok_iff.mp h
  obtain ⟨lower, -, h⟩ := Except.bind_eq_ok_iff.mp h
  cases h
  exact ⟨⟨_, _⟩, ⟨_, _⟩, ⟨_, _⟩, ⟨_, _⟩, rfl⟩

theorem unnumbered_of_inset (h : inset b distance = .ok base) : Unnumbered base := by
  obtain ⟨top, bottom, left, right, rfl⟩ := sides_of_inset h
  have hwords : ∀ name ∈ ["lineTop", "lineBottom", "lineLeft", "lineRight"], Plate.IsWord name := by decide
  exact hwords

theorem unnumbered_of_filletCorners {r : ℝ} (h : inset b distance = .ok base) (hm : base.filletCorners r = .ok m) :
    Unnumbered m := by
  obtain ⟨top, bottom, left, right, rfl⟩ := sides_of_inset h
  have hwords : ∀ name ∈ ["lineTop", "lineBottom", "lineLeft", "lineRight", "filletTopLeft", "filletTopRight",
      "filletBottomLeft", "filletBottomRight"], Plate.IsWord name := by decide
  obtain ⟨_, _, _, -, _, _, _, -, _, _, _, -, _, _, _, -, rfl⟩ := Model.fillets_of_filletCorners hm
  exact hwords

theorem drawArcs_of_drawCorners (hradius : 0 < radius) (h : drawCorners b plateRadius radius base = .ok m) :
    ∃ left right upper lower, b.minX.add? plateRadius = some left ∧ b.maxX.sub? plateRadius = some right ∧
      (-b.maxY).add? plateRadius = some upper ∧ (-b.minY).sub? plateRadius = some lower ∧
      m = drawArcs "beautyArc" radius (cornerParts left.toRat right.toRat upper.toRat lower.toRat) base := by
  unfold drawCorners at h
  rw [if_neg (Aperture.not_le_zero hradius)] at h
  simp only [Except.bind_eq_ok_iff, Plate.length_eq_ok_iff] at h
  obtain ⟨left, hleft, right, hright, upper, hupper, lower, hlower, h⟩ := h
  exact ⟨left, right, upper, lower, hleft, hright, hupper, hlower, (Except.ok.inj h).symm⟩

theorem eq_of_drawCorners (hradius : ¬ 0 < radius) (h : drawCorners b plateRadius radius base = .ok m) : m = base := by
  unfold drawCorners at h
  rw [if_pos (Decimal.le_of_not_lt hradius)] at h
  exact (Except.ok.inj h).symm

/-- Arcs that are drawn on a drawing without numbered paths. -/
theorem followsCorners_of_drawCorners (hexact : Unrounded b o) (hbase : Unnumbered base)
    (houtline : Model.HasFillets outline (Model.cornerFillet b.minX.toRat b.maxX.toRat (-b.maxY.toRat) (-b.minY.toRat)
      o.plateRadius.toRat))
    (h : drawCorners b o.plateRadius radius base = .ok m) : FollowsCorners m outline radius.toRat := by
  have hpos : (0 : ℝ) < radius.toRat ↔ 0 < radius := Rat.cast_pos.trans Decimal.pos_iff.symm
  by_cases hradius : 0 < radius
  · obtain ⟨left, right, upper, lower, hleft, hright, hupper, hlower, rfl⟩ := drawArcs_of_drawCorners hradius h
    have hleft' : (left.toRat : ℝ) = b.minX.toRat + o.plateRadius.toRat := by
      exact_mod_cast hexact.left left hleft
    have hright' : (right.toRat : ℝ) = b.maxX.toRat - o.plateRadius.toRat := by
      exact_mod_cast hexact.right right hright
    have hupper' : (upper.toRat : ℝ) = -b.maxY.toRat + o.plateRadius.toRat := by
      exact_mod_cast hexact.upper upper hupper
    have hlower' : (lower.toRat : ℝ) = -b.minY.toRat - o.plateRadius.toRat := by
      exact_mod_cast hexact.lower lower hlower
    constructor
    · intro i
      rw [hpos, and_iff_right hradius]
      exact hbase.exists_numbered_iff "beautyArc" radius _ i
    · intro _ i
      obtain ⟨part, hpart, hfollows⟩ := follows_cornerFillet b.minX.toRat b.maxX.toRat (-b.maxY.toRat) (-b.minY.toRat)
        o.plateRadius.toRat radius.toRat i
      rw [← hleft', ← hright', ← hupper', ← hlower'] at hpart
      refine ⟨_, partArc radius.toRat part, houtline i, ?_, rfl, hfollows⟩
      rw [get?_drawArcs, hpart]
      rfl
  · rw [eq_of_drawCorners hradius h]
    rw [← hpos] at hradius
    constructor
    · intro i
      rw [hbase.get?_eq_none]
      exact ⟨nofun, fun h => absurd h.1 hradius⟩
    · intro h
      exact absurd h hradius

/-- The steps of a pattern with corner arcs. -/
theorem corners_of_ofPlate {p : Pattern ℝ} (hpattern : 0 < o.platePatternRadius) (h : ofPlate b o = .ok p) :
    ∃ halfExpansion halfLine copperRadius maskRadius, ∃ copper mask copperDrawn maskDrawn : Model ℝ,
      o.plateSolderMaskExpansion.half? = some halfExpansion ∧ o.plateLineWidth.half? = some halfLine ∧
      o.plateRadius.sub? halfLine = some copperRadius ∧ copperRadius.sub? halfExpansion = some maskRadius ∧
      Unnumbered copper ∧ Unnumbered mask ∧
      drawCorners b o.plateRadius copperRadius copper = .ok copperDrawn ∧
      drawCorners b o.plateRadius maskRadius mask = .ok maskDrawn ∧ p = mirrored copperDrawn maskDrawn := by
  unfold ofPlate at h
  simp only [if_pos hpattern, Except.bind_eq_ok_iff, Plate.length_eq_ok_iff] at h
  obtain ⟨halfExpansion, hhalfExpansion, halfLine, hhalfLine, copper, hcopper, width, -, halfWidth, -, mask, hmask,
    radius, -, copper', hcopper', maskRadius, -, h⟩ := h
  have hfilleted (mask') (h : Plate.geometry (mask.filletCorners (Scalar.ofDecimal maskRadius)) = .ok mask') :
      Unnumbered mask' := unnumbered_of_filletCorners hmask (Except.mapError_eq_ok_iff.mp h)
  have hsharp (mask') (h : (pure mask : Except (PlateError ℝ) (Model ℝ)) = .ok mask') : Unnumbered mask' := by
    cases h
    exact unnumbered_of_inset hmask
  obtain ⟨mask', hmask', h⟩ := Except.exists_of_ite_bind hfilleted hsharp h
  simp only [Except.bind_eq_ok_iff, Plate.length_eq_ok_iff] at h
  obtain ⟨copperRadius, hcopperRadius, copperDrawn, hcopperDrawn, arcRadius, harcRadius, maskDrawn, hmaskDrawn, h⟩ := h
  cases h
  exact ⟨halfExpansion, halfLine, copperRadius, arcRadius, copper', mask', copperDrawn, maskDrawn, hhalfExpansion,
    hhalfLine, hcopperRadius, harcRadius,
    unnumbered_of_filletCorners hcopper (Except.mapError_eq_ok_iff.mp hcopper'), hmask', hcopperDrawn, hmaskDrawn, rfl⟩

/-- The outline of a plate that is rounded. -/
theorem edge_eq_ok_iff (hradius : 0 < o.plateRadius) : Plate.edge b o = .ok outline ↔
    ∃ m, (Model.rectangle (b.minX.toRat : ℝ) b.maxX.toRat (-b.maxY.toRat) (-b.minY.toRat)).filletCorners
      (o.plateRadius.toRat : ℝ) = .ok m ∧ outline = m.withLayer .plate := by
  unfold Plate.edge
  simp only [if_pos hradius, Except.bind_eq_ok_iff, Scalar.ofDecimal_neg]
  constructor
  · rintro ⟨m, hm, h⟩
    exact ⟨m, Except.mapError_eq_ok_iff.mp hm, (Except.ok.inj h).symm⟩
  · rintro ⟨m, hm, rfl⟩
    exact ⟨m, Except.mapError_eq_ok_iff.mpr hm, rfl⟩

/-- The corner arcs of copper and mask, on both sides of the plate, follow the fillets of the outline, unless a side is
just as long as the tolerance and the radius twice that. -/
theorem corners_follow {p : Pattern ℝ} (hacross : b.minX < b.maxX) (hdown : b.minY < b.maxY)
    (hthick : o.plateRadius.toRat = 2 / 1000000 → b.maxX.toRat - b.minX.toRat ≠ 1 / 1000000 ∧
      b.maxY.toRat - b.minY.toRat ≠ 1 / 1000000)
    (hradius : 0 < o.plateRadius) (hpattern : 0 < o.platePatternRadius) (hexact : Unrounded b o)
    (houtline : Plate.edge b o = .ok outline) (hp : ofPlate b o = .ok p) :
    (∀ m ∈ [p.top, p.bottom], FollowsCorners m outline (o.plateRadius.toRat - o.plateLineWidth.toRat / 2)) ∧
      ∀ m ∈ [p.topSolderMask, p.bottomSolderMask], FollowsCorners m outline
        (o.plateRadius.toRat - o.plateLineWidth.toRat / 2 - o.plateSolderMaskExpansion.toRat / 2) := by
  obtain ⟨rounded, hrounded, rfl⟩ := (edge_eq_ok_iff hradius).mp houtline
  have hr : (0 : ℝ) < o.plateRadius.toRat := Rat.cast_pos.mpr (Decimal.pos_iff.mp hradius)
  have hacross' : (b.minX.toRat : ℝ) < b.maxX.toRat := Rat.cast_lt.mpr (Decimal.lt_iff_toRat.mp hacross)
  have hdown' : (b.minY.toRat : ℝ) < b.maxY.toRat := Rat.cast_lt.mpr (Decimal.lt_iff_toRat.mp hdown)
  have hthick' : (o.plateRadius.toRat : ℝ) = 2 * jointTolerance → (b.maxX.toRat : ℝ) - b.minX.toRat ≠ jointTolerance ∧
      -(b.minY.toRat : ℝ) - -b.maxY.toRat ≠ jointTolerance := by
    rw [← mul_one_div] at hthick
    rw [← cast_jointTolerance, neg_sub_neg]
    exact_mod_cast hthick
  have heq := Model.eq_rounded_of_filletCorners hacross' (neg_lt_neg hdown') hthick' hr hrounded
  have hfillets : Model.HasFillets (rounded.withLayer .plate) (Model.cornerFillet b.minX.toRat b.maxX.toRat
      (-b.maxY.toRat) (-b.minY.toRat) o.plateRadius.toRat) := by
    rw [heq]
    exact Model.hasFillets_rounded hr
  obtain ⟨halfExpansion, halfLine, copperRadius, maskRadius, copper, mask, copperDrawn, maskDrawn, hhalfExpansion,
    hhalfLine, hcopperRadius, hmaskRadius, hcopper, hmask, hcopperDrawn, hmaskDrawn, rfl⟩ :=
    corners_of_ofPlate hpattern hp
  have hcopperExact := hexact.copper halfLine hhalfLine copperRadius hcopperRadius
  have hmaskExact := hexact.mask halfLine hhalfLine copperRadius hcopperRadius halfExpansion hhalfExpansion maskRadius
    hmaskRadius
  have hcopperFollows := followsCorners_of_drawCorners hexact hcopper hfillets hcopperDrawn
  have hmaskFollows := followsCorners_of_drawCorners hexact hmask hfillets hmaskDrawn
  rw [hmaskExact] at hmaskFollows
  rw [hcopperExact] at hcopperFollows hmaskFollows
  push_cast at hcopperFollows hmaskFollows
  constructor
  · intro m hm
    rcases List.mem_pair.mp hm with rfl | rfl <;> exact hcopperFollows.withLayer _
  · intro m hm
    rcases List.mem_pair.mp hm with rfl | rfl <;> exact hmaskFollows.withLayer _

/-! ## Patterns that can be drawn -/

/-- The lengths that a pattern with corner arcs is drawn from. -/
structure Lengths where
  halfExpansion : Decimal
  halfLine : Decimal
  width : Decimal
  halfWidth : Decimal
  radius : Decimal
  maskRadius : Decimal
  copperArc : Decimal
  maskArc : Decimal
  left : Decimal
  right : Decimal
  upper : Decimal
  lower : Decimal

/-- The lengths of a pattern, none of which is out of range. -/
structure Measured (b : Bounds) (o : Options) (l : Lengths) : Prop where
  halfExpansion : o.plateSolderMaskExpansion.half? = some l.halfExpansion
  halfLine : o.plateLineWidth.half? = some l.halfLine
  width : o.plateLineWidth.add? o.plateSolderMaskExpansion = some l.width
  halfWidth : l.width.half? = some l.halfWidth
  radius : o.platePatternRadius.mul? 2 = some l.radius
  maskRadius : l.radius.sub? l.halfExpansion = some l.maskRadius
  copperArc : o.plateRadius.sub? l.halfLine = some l.copperArc
  maskArc : l.copperArc.sub? l.halfExpansion = some l.maskArc
  left : b.minX.add? o.plateRadius = some l.left
  right : b.maxX.sub? o.plateRadius = some l.right
  upper : (-b.maxY).add? o.plateRadius = some l.upper
  lower : (-b.minY).sub? o.plateRadius = some l.lower

theorem inset_eq_ok {left right upper lower : Decimal} (hleft : b.minX.add? distance = some left)
    (hright : b.maxX.sub? distance = some right) (hupper : b.maxY.sub? distance = some upper)
    (hlower : b.minY.add? distance = some lower) :
    inset b distance = .ok (.rectangle (left.toRat : ℝ) right.toRat (-upper.toRat) (-lower.toRat)) := by
  have hneg (d : Decimal) : -(d.toRat : ℝ) = Scalar.ofDecimal (-d) := (Scalar.ofDecimal_neg d).symm
  unfold inset
  rw [hleft, hright, hupper, hlower, hneg, hneg]
  rfl

theorem Measured.exists_drawCorners {l : Lengths} (hl : Measured b o l) (radius : Decimal) (base : Model ℝ) :
    ∃ m, drawCorners b o.plateRadius radius base = .ok m := by
  unfold drawCorners
  split
  · exact ⟨_, rfl⟩
  · rw [hl.left, hl.right, hl.upper, hl.lower]
    exact ⟨_, rfl⟩

/-- A pattern can be drawn if both of its rectangles can be rounded. -/
theorem Measured.exists_ofPlate {l : Lengths} {copper mask : Model ℝ} (hl : Measured b o l)
    (hpattern : 0 < o.platePatternRadius) (hcopper : inset b l.halfLine = .ok copper)
    (hmask : inset b l.halfWidth = .ok mask) (hround : ∃ m, copper.filletCorners (l.radius.toRat : ℝ) = .ok m)
    (hround' : ∃ m, mask.filletCorners (l.maskRadius.toRat : ℝ) = .ok m) : ∃ p : Pattern ℝ, ofPlate b o = .ok p := by
  obtain ⟨copper', hcopper'⟩ := hround
  have htail (mask' : Model ℝ) : ∃ p : Pattern ℝ, (do
      let arcRadius ← Plate.length (o.plateRadius.sub? l.halfLine)
      let copper ← drawCorners b o.plateRadius arcRadius copper'
      let mask ← drawCorners b o.plateRadius (← Plate.length (arcRadius.sub? l.halfExpansion)) mask'
      return mirrored copper mask : Except (PlateError ℝ) (Pattern ℝ)) = .ok p := by
    obtain ⟨copperDrawn, hcopperDrawn⟩ := hl.exists_drawCorners l.copperArc copper'
    obtain ⟨maskDrawn, hmaskDrawn⟩ := hl.exists_drawCorners l.maskArc mask'
    apply Except.exists_bind_eq_ok (Plate.length_eq_ok_iff.mpr hl.copperArc)
    apply Except.exists_bind_eq_ok hcopperDrawn
    apply Except.exists_bind_eq_ok (Plate.length_eq_ok_iff.mpr hl.maskArc)
    apply Except.exists_bind_eq_ok hmaskDrawn
    exact ⟨_, rfl⟩
  unfold ofPlate
  apply Except.exists_bind_eq_ok (Plate.length_eq_ok_iff.mpr hl.halfExpansion)
  apply Except.exists_bind_eq_ok (Plate.length_eq_ok_iff.mpr hl.halfLine)
  apply Except.exists_bind_eq_ok hcopper
  apply Except.exists_bind_eq_ok (Plate.length_eq_ok_iff.mpr hl.width)
  apply Except.exists_bind_eq_ok (Plate.length_eq_ok_iff.mpr hl.halfWidth)
  apply Except.exists_bind_eq_ok hmask
  rw [if_pos hpattern]
  apply Except.exists_bind_eq_ok (Plate.length_eq_ok_iff.mpr hl.radius)
  apply Except.exists_bind_eq_ok (Except.mapError_eq_ok_iff.mpr hcopper')
  apply Except.exists_bind_eq_ok (Plate.length_eq_ok_iff.mpr hl.maskRadius)
  dsimp only
  split
  · obtain ⟨mask', hmask'⟩ := hround'
    exact Except.exists_bind_eq_ok (Except.mapError_eq_ok_iff.mpr hmask') (htail mask')
  · exact Except.exists_bind_eq_ok rfl (htail mask)

/-- The bounds of two keys side by side. -/
def twoUnits : Bounds := ⟨0, 38.1, 0, 19.05⟩

/-- The lengths of their pattern with default options. -/
def twoUnitLengths : Lengths :=
  { halfExpansion := 0.0255, halfLine := 0.5, width := 1.051, halfWidth := 0.5255, radius := 1.0, maskRadius := 0.9745,
    copperArc := 0.5, maskArc := 0.4745, left := 1, right := 37.1, upper := -18.05, lower := -1 }

theorem measured_twoUnits : Measured twoUnits {} twoUnitLengths := by constructor <;> decide +kernel

theorem unrounded_twoUnits : Unrounded twoUnits {} := by constructor <;> decide +kernel

theorem roomy_twoUnits : twoUnits.Roomy := by constructor <;> decide +kernel

theorem exists_twoUnits : ∃ p : Pattern ℝ, ofPlate twoUnits {} = .ok p := by
  have hcopper : inset twoUnits 0.5 = .ok (.rectangle ((0.5 : Decimal).toRat : ℝ) (37.6 : Decimal).toRat
      (-(18.55 : Decimal).toRat) (-(0.5 : Decimal).toRat)) :=
    inset_eq_ok (by decide +kernel) (by decide +kernel) (by decide +kernel) (by decide +kernel)
  have hmask : inset twoUnits 0.5255 = .ok (.rectangle ((0.5255 : Decimal).toRat : ℝ) (37.5745 : Decimal).toRat
      (-(18.5245 : Decimal).toRat) (-(0.5255 : Decimal).toRat)) :=
    inset_eq_ok (by decide +kernel) (by decide +kernel) (by decide +kernel) (by decide +kernel)
  apply measured_twoUnits.exists_ofPlate (by decide +kernel) hcopper hmask
  · apply Model.exists_filletCorners_upright <;> decide +kernel
  · apply Model.exists_filletCorners_upright <;> decide +kernel

theorem twoUnits_corners_follow : twoUnits.minX < twoUnits.maxX ∧ twoUnits.minY < twoUnits.maxY ∧
    (({} : Options).plateRadius.toRat = 2 / 1000000 → twoUnits.maxX.toRat - twoUnits.minX.toRat ≠ 1 / 1000000 ∧
      twoUnits.maxY.toRat - twoUnits.minY.toRat ≠ 1 / 1000000) ∧
    0 < ({} : Options).plateRadius ∧ 0 < ({} : Options).platePatternRadius ∧ Unrounded twoUnits {} ∧
    ∃ (outline : Model ℝ) (p : Pattern ℝ), Plate.edge twoUnits {} = .ok outline ∧ ofPlate twoUnits {} = .ok p ∧
      (∀ m ∈ [p.top, p.bottom], FollowsCorners m outline 0.5) ∧
      ∀ m ∈ [p.topSolderMask, p.bottomSolderMask], FollowsCorners m outline 0.4745 := by
  have hacross : twoUnits.minX < twoUnits.maxX := by decide +kernel
  have hdown : twoUnits.minY < twoUnits.maxY := by decide +kernel
  have hthick : ({} : Options).plateRadius.toRat = 2 / 1000000 →
      twoUnits.maxX.toRat - twoUnits.minX.toRat ≠ 1 / 1000000 ∧
        twoUnits.maxY.toRat - twoUnits.minY.toRat ≠ 1 / 1000000 := by decide +kernel
  have hradius : 0 < ({} : Options).plateRadius := by decide +kernel
  have hpattern : 0 < ({} : Options).platePatternRadius := by decide +kernel
  obtain ⟨outline, houtline⟩ := Plate.exists_edge roomy_twoUnits
  obtain ⟨p, hp⟩ := exists_twoUnits
  obtain ⟨hcopper, hmask⟩ :=
    corners_follow hacross hdown hthick hradius hpattern unrounded_twoUnits houtline hp
  -- radius and line width are the same decimal by default
  have hone : ({} : Options).plateRadius.toRat = 1 := by decide +kernel
  have hexpansion : ({} : Options).plateSolderMaskExpansion.toRat = 51 / 1000 := by decide +kernel
  have hcopperRadius : (({} : Options).plateRadius.toRat : ℝ) - ({} : Options).plateLineWidth.toRat / 2 = 0.5 := by
    rw [hone]
    norm_num
  have hmaskRadius : (0.5 : ℝ) - ({} : Options).plateSolderMaskExpansion.toRat / 2 = 0.4745 := by
    rw [hexpansion]
    norm_num
  rw [hcopperRadius] at hcopper hmask
  rw [hmaskRadius] at hmask
  exact ⟨hacross, hdown, hthick, hradius, hpattern, unrounded_twoUnits, outline, p, houtline, hp, hcopper,
    hmask⟩

end Pattern

/-! ## Sides as short as the tolerance -/

namespace Model

open Line (Square)

/-- A side just as long as the tolerance takes a radius of twice that at both ends, and the second fillet stands outside
of it. -/
theorem exists_filletCorners_thin (left upper : ℝ) {height : ℝ} (hheight : 5 * jointTolerance ≤ height) : ∃ m,
    (rectangle left (left + jointTolerance) upper (upper + height)).filletCorners (2 * jointTolerance) = .ok m ∧
      ∃ arc, Named.get? "filletTopRight" m.paths = some (.arc arc) ∧ arc.center.x = left + 3 * jointTolerance := by
  have htol := Line.jointTolerance_pos
  have hback : (-1 : ℝ) * -1 = 1 := by norm_num
  have hsides : rectangle left (left + jointTolerance) upper (upper + height) = sides
      ⟨spot left upper 1 1 0 0, spot left upper 1 1 jointTolerance 0⟩
      ⟨spot left upper 1 1 0 height, spot left upper 1 1 jointTolerance height⟩
      ⟨spot left upper 1 1 0 0, spot left upper 1 1 0 height⟩
      ⟨spot left upper 1 1 jointTolerance 0, spot left upper 1 1 jointTolerance height⟩ [] := by
    simp [rectangle, sides, spot]
  -- the first fillets leave of the level sides what is as long again, but reversed
  have htopLeft : Square ⟨spot left upper 1 1 0 0, spot left upper 1 1 jointTolerance 0⟩
      ⟨spot left upper 1 1 0 0, spot left upper 1 1 0 height⟩ .start .start (spot left upper 1 1 0 0) ⟨1, 0⟩ ⟨0, 1⟩
      jointTolerance height :=
    square_of_spots (one_mul 1) (one_mul 1) rfl rfl (by rw [spot_right, zero_add]; rfl)
      (by rw [spot_down, zero_add]; rfl) le_rfl (by linarith)
  have htopRight : Square ⟨spot left upper 1 1 (2 * jointTolerance) 0, spot left upper 1 1 jointTolerance 0⟩
      ⟨spot left upper 1 1 jointTolerance 0, spot left upper 1 1 jointTolerance height⟩ .stop .start
      (spot left upper 1 1 jointTolerance 0) ⟨1, 0⟩ ⟨0, 1⟩ jointTolerance height :=
    square_of_spots (one_mul 1) (one_mul 1) rfl rfl (by rw [spot_right, ← two_mul]; rfl)
      (by rw [spot_down, zero_add]; rfl) le_rfl (by linarith)
  have hbottomLeft : Square ⟨spot left upper 1 1 0 height, spot left upper 1 1 jointTolerance height⟩
      ⟨spot left upper 1 1 0 (2 * jointTolerance), spot left upper 1 1 0 height⟩ .start .stop
      (spot left upper 1 1 0 height) ⟨1, 0⟩ ⟨0, -1⟩ jointTolerance (height - 2 * jointTolerance) :=
    square_of_spots (one_mul 1) hback rfl rfl (by rw [spot_right, zero_add]; rfl)
      (by rw [spot_up, sub_sub_cancel]; rfl) le_rfl (by linarith)
  have hbottomRight : Square
      ⟨spot left upper 1 1 (2 * jointTolerance) height, spot left upper 1 1 jointTolerance height⟩
      ⟨spot left upper 1 1 jointTolerance (2 * jointTolerance), spot left upper 1 1 jointTolerance height⟩ .stop .stop
      (spot left upper 1 1 jointTolerance height) ⟨1, 0⟩ ⟨0, -1⟩ jointTolerance (height - 2 * jointTolerance) :=
    square_of_spots (one_mul 1) hback rfl rfl (by rw [spot_right, ← two_mul]; rfl)
      (by rw [spot_up, sub_sub_cancel]; rfl) le_rfl (by linarith)
  have h₁ := fillet_corner htopLeft (2 * jointTolerance) (by linarith) (by linarith)
  have h₂ := fillet_corner htopRight (2 * jointTolerance) (by linarith) (by linarith)
  have h₃ := fillet_corner hbottomLeft (2 * jointTolerance) (by linarith) (by linarith)
  have h₄ := fillet_corner hbottomRight (2 * jointTolerance) (by linarith) (by linarith)
  simp only [spot_right, spot_down, spot_up, zero_add, Line.withEnd] at h₁ h₂ h₃ h₄
  have hcenter := Arc.quarter_center (spot left upper 1 1 jointTolerance 0) .east .north (2 * jointTolerance)
  rw [hsides, filletCorners_sides (by linarith) h₁ h₂ h₃ h₄]
  refine ⟨_, rfl, _, rfl, (congrArg Point.x hcenter).trans ?_⟩
  dsimp only [Point.add_def, Point.scale_def, spot, Heading.step]
  ring

end Model

namespace Pattern

/-- The bounds of a key that is just as wide as the tolerance. -/
def thin : Bounds := ⟨0, 0.000001, 0, 19.05⟩

/-- Radii of twice that. -/
def thinOptions : Options :=
  { unitWidth := 0.000001, plateRadius := 0.000002, platePatternRadius := 0.000001, plateLineWidth := 0,
    plateSolderMaskExpansion := 0 }

def thinLengths : Lengths :=
  { halfExpansion := 0, halfLine := 0, width := 0, halfWidth := 0, radius := 0.000002, maskRadius := 0.000002,
    copperArc := 0.000002, maskArc := 0.000002, left := 0.000002, right := -0.000001, upper := -19.049998,
    lower := -0.000002 }

theorem measured_thin : Measured thin thinOptions thinLengths := by constructor <;> decide +kernel

theorem unrounded_thin : Unrounded thin thinOptions := by constructor <;> decide +kernel

/-- The rectangle of these bounds can be rounded, but not about the centers of its corner arcs. -/
theorem exists_rounded_thin : ∃ m : Model ℝ, (Model.rectangle (thin.minX.toRat : ℝ) thin.maxX.toRat
    (-thin.maxY.toRat) (-thin.minY.toRat)).filletCorners (thinOptions.plateRadius.toRat : ℝ) = .ok m ∧
      ∃ arc, Named.get? "filletTopRight" m.paths = some (.arc arc) ∧ arc.center.x = 0.000003 := by
  have hheight : 5 * jointTolerance ≤ (1905 / 100 : ℝ) := by
    rw [jointTolerance_eq]
    norm_num
  have hthin := Model.exists_filletCorners_thin 0 (-(1905 / 100)) hheight
  have hminX : thin.minX.toRat = 0 := by decide +kernel
  have hmaxX : thin.maxX.toRat = 1 / 1000000 := by decide +kernel
  have hmaxY : thin.maxY.toRat = 1905 / 100 := by decide +kernel
  have hminY : thin.minY.toRat = 0 := by decide +kernel
  have hradius : thinOptions.plateRadius.toRat = 2 * (1 / 1000000) := by decide +kernel
  rw [hminX, hmaxX, hmaxY, hminY, hradius]
  push_cast
  rw [← jointTolerance_eq, neg_zero]
  rw [zero_add, neg_add_cancel] at hthin
  obtain ⟨m, hm, arc, harc, hcenter⟩ := hthin
  refine ⟨m, hm, arc, harc, hcenter.trans ?_⟩
  rw [jointTolerance_eq]
  norm_num

theorem not_forall_corners_follow : ¬ ∀ (b : Bounds) (o : Options) (outline : Model ℝ) (p : Pattern ℝ),
    b.minX < b.maxX → b.minY < b.maxY → 0 < o.plateRadius → 0 < o.platePatternRadius → Unrounded b o →
    Plate.edge b o = .ok outline → ofPlate b o = .ok p →
      (∀ m ∈ [p.top, p.bottom], FollowsCorners m outline (o.plateRadius.toRat - o.plateLineWidth.toRat / 2)) ∧
        ∀ m ∈ [p.topSolderMask, p.bottomSolderMask], FollowsCorners m outline
          (o.plateRadius.toRat - o.plateLineWidth.toRat / 2 - o.plateSolderMaskExpansion.toRat / 2) := by
  intro hall
  have hradius : 0 < thinOptions.plateRadius := by decide +kernel
  have hpattern : 0 < thinOptions.platePatternRadius := by decide +kernel
  obtain ⟨m, hm, fillet, hfillet, hcenter⟩ := exists_rounded_thin
  have hinset : inset thin 0 = .ok (.rectangle (thin.minX.toRat : ℝ) thin.maxX.toRat (-thin.maxY.toRat)
      (-thin.minY.toRat)) :=
    inset_eq_ok (by decide +kernel) (by decide +kernel) (by decide +kernel) (by decide +kernel)
  obtain ⟨p, hp⟩ := measured_thin.exists_ofPlate hpattern hinset hinset ⟨m, hm⟩ ⟨m, hm⟩
  have houtline := (edge_eq_ok_iff hradius).mpr ⟨m, hm, rfl⟩
  obtain ⟨hcopper, -⟩ := hall thin thinOptions _ p (by decide +kernel) (by decide +kernel) hradius hpattern
    unrounded_thin houtline hp
  have hpos : (0 : ℝ) < thinOptions.plateRadius.toRat - thinOptions.plateLineWidth.toRat / 2 := by
    exact_mod_cast (by decide +kernel : (0 : ℚ) < thinOptions.plateRadius.toRat - thinOptions.plateLineWidth.toRat / 2)
  obtain ⟨fillet', arc, hfillet', harc, -, hfollows⟩ := (hcopper p.top (.head _)).follows hpos 1
  obtain ⟨_, halfLine, copperRadius, _, copper, _, _, _, -, hhalfLine, hcopperRadius, -, -, -, hdrawn, -, rfl⟩ :=
    corners_of_ofPlate hpattern hp
  cases hhalfLine.symm.trans measured_thin.halfLine
  cases hcopperRadius.symm.trans measured_thin.copperArc
  obtain ⟨left, right, upper, lower, -, hright, -, -, hdrawn⟩ := drawArcs_of_drawCorners (by decide +kernel) hdrawn
  cases hright.symm.trans measured_thin.right
  rw [mirrored, Model.withLayer, hdrawn, get?_drawArcs] at harc
  cases Option.some.inj harc
  cases Path.arc.inj (Option.some.inj (hfillet.symm.trans hfillet'))
  have hcenters : (thinLengths.right.toRat : ℝ) = 0.000003 := (congrArg Point.x hfollows.center).trans hcenter
  have hright' : thinLengths.right.toRat = -(1 / 1000000) := by decide +kernel
  rw [hright'] at hcenters
  norm_num at hcenters

end Pattern

end KeyboardPlate
