import KeyboardPlate.Proofs.Geometry.Semicircle
import KeyboardPlate.Proofs.Plate.Sheet

/-!
# One slot of a switch

The outline of a slot in one quadrant is the mirror image of its outline in the first. Drawn with all its joints
rounded, its lines and arcs are one ring as soon as the fillets fit; drawn with half circles at its ends, they are if no
sum of the sizes was rounded.
-/

set_option autoImplicit false

namespace KeyboardPlate

namespace Slot

open Named

/-- Both signs are one or minus one. -/
structure IsSigns (signs : Decimal × Decimal) : Prop where
  first : signs.1 = 1 ∨ signs.1 = -1
  second : signs.2 = 1 ∨ signs.2 = -1

noncomputable def across (signs : Decimal × Decimal) : ℝ := signs.1.toRat

noncomputable def down (signs : Decimal × Decimal) : ℝ := signs.2.toRat

section
variable {x y outerX outerY : Decimal} {signs : Decimal × Decimal} {s : Slot}

theorem toRat_unit {d : Decimal} (h : d = 1 ∨ d = -1) :
    (d.toRat : ℝ) = if d.negative then -1 else 1 := by
  have hone : (1 : Decimal).toRat = 1 := by decide +kernel
  obtain rfl | rfl := h
  · rw [hone, if_neg (by decide), Rat.cast_one]
  · rw [Decimal.toRat_neg, hone, if_pos (by decide), Rat.cast_neg, Rat.cast_one]

theorem isSigns_one : IsSigns (1, 1) := ⟨Or.inl rfl, Or.inl rfl⟩

theorem across_one : across (1, 1) = 1 := by
  rw [across, toRat_unit isSigns_one.first]
  rfl

theorem down_one : down (1, 1) = 1 := across_one

theorem IsSigns.across_mul_self (h : IsSigns signs) : across signs * across signs = 1 := by
  rw [across, toRat_unit h.first]
  split <;> norm_num

theorem IsSigns.down_mul_self (h : IsSigns signs) : down signs * down signs = 1 := by
  rw [down, toRat_unit h.second]
  split <;> norm_num

/-- The lines as they are in the quadrant of the signs. -/
noncomputable def mirrored {n : Nat} (L : Fin n → Line ℝ) (signs : Decimal × Decimal) (i : Fin n) : Line ℝ :=
  (L i).mirror (across signs) (down signs)

theorem reflect_eq_ok (h : IsSigns signs) (x y : Decimal) : (reflect x y signs : Except (PlateError ℝ) (Point ℝ)) =
    .ok (Point.mirror (across signs) (down signs) ⟨x.toRat, y.toRat⟩) := by
  have hunit : ∀ {d : Decimal}, d = 1 ∨ d = -1 → d.mantissa = 1 ∧ d.scale = 0 := by
    rintro d (rfl | rfl)
    · decide
    · decide
  obtain ⟨z, hz, hx⟩ := Decimal.exists_mul?_unit (hunit h.first).1 (hunit h.first).2 x
  obtain ⟨w, hw, hy⟩ := Decimal.exists_mul?_unit (hunit h.second).1 (hunit h.second).2 y
  have hpoint : (⟨Scalar.ofDecimal z, Scalar.ofDecimal w⟩ : Point ℝ) =
      Point.mirror (across signs) (down signs) ⟨x.toRat, y.toRat⟩ := by
    rw [Scalar.ofDecimal_eq_toRat, Scalar.ofDecimal_eq_toRat, hx, hy, Rat.cast_mul, Rat.cast_mul]
    rfl
  unfold reflect
  rw [hz, hw, ← hpoint]
  rfl

/-! ## The outline of a slot -/

/-- The sizes that the corners of a slot are computed from. -/
structure Measured (s : Slot) (x y outerX outerY : Decimal) : Prop where
  innerX : s.halfWidth.add? s.housing = some x
  innerY : s.halfHeight.add? s.housing = some y
  outerX : x.add? s.width = some outerX
  outerY : y.add? s.width = some outerY

/-- The corners of the slot in the first quadrant. -/
noncomputable def outline (x y outerX outerY c : Decimal) : Fin 6 → Point ℝ := ![
  ⟨x.toRat, y.toRat⟩, ⟨c.toRat, y.toRat⟩, ⟨c.toRat, outerY.toRat⟩,
  ⟨outerX.toRat, outerY.toRat⟩, ⟨outerX.toRat, c.toRat⟩, ⟨x.toRat, c.toRat⟩]

theorem measured_of_corners {c : Decimal} {points : List (Point ℝ)} (h : s.corners c signs = .ok points) :
    ∃ x y outerX outerY, s.Measured x y outerX outerY := by
  unfold corners innerX innerY at h
  simp only [Except.bind_eq_ok_iff, Plate.length_eq_ok_iff] at h
  obtain ⟨x, hx, y, hy, outerX, houterX, outerY, houterY, -⟩ := h
  exact ⟨x, y, outerX, outerY, hx, hy, houterX, houterY⟩

theorem Measured.corners_eq_ok (hm : s.Measured x y outerX outerY) (h : IsSigns signs) (c : Decimal) :
    s.corners c signs =
      .ok (List.ofFn fun i => (outline x y outerX outerY c i).mirror (across signs) (down signs)) := by
  have hmap : (fun p : Decimal × Decimal => (reflect p.1 p.2 signs : Except (PlateError ℝ) (Point ℝ))) =
      fun p => pure (Point.mirror (across signs) (down signs) ⟨p.1.toRat, p.2.toRat⟩) :=
    funext fun p => reflect_eq_ok h p.1 p.2
  unfold Slot.corners Slot.innerX Slot.innerY
  refine Except.bind_eq_ok_iff.mpr ⟨x, Plate.length_eq_ok_iff.mpr hm.innerX, ?_⟩
  refine Except.bind_eq_ok_iff.mpr ⟨y, Plate.length_eq_ok_iff.mpr hm.innerY, ?_⟩
  refine Except.bind_eq_ok_iff.mpr ⟨outerX, Plate.length_eq_ok_iff.mpr hm.outerX, ?_⟩
  refine Except.bind_eq_ok_iff.mpr ⟨outerY, Plate.length_eq_ok_iff.mpr hm.outerY, ?_⟩
  change List.mapM (fun p : Decimal × Decimal => (reflect p.1 p.2 signs : Except (PlateError ℝ) (Point ℝ))) _ = _
  rw [hmap, List.mapM_pure]
  simp only [List.ofFn_succ, List.ofFn_zero, List.map_cons, List.map_nil, outline]
  rfl

/-- What is under way before a quadrant where every quadrant takes so many lines and fillets. -/
def before (lines fillets quadrant : Nat) (older : Named (Path ℝ)) : Sketch ℝ :=
  ⟨{ paths := older }, lines * quadrant + 1, fillets * quadrant + 1⟩

theorem paths_before (lines fillets quadrant : Nat) (older : Named (Path ℝ)) :
    (before lines fillets quadrant older).drawn.paths = older := rfl

/-! ## Slots with all joints rounded -/

def roundLines (P : Fin 6 → Point ℝ) : Fin 6 → Line ℝ := fun i => ⟨P i, P (i + 1)⟩

/-- Each line and the one before it. -/
def roundJoints : List (Fin 6 × Fin 6) := [(5, 0), (0, 1), (1, 2), (2, 3), (3, 4), (4, 5)]

def roundAxis (i : Fin 6) : Axis := if i.val % 2 = 0 then .level else .upright

def roundNames (quadrant : Nat) : List String :=
  (List.range' (6 * quadrant + 1) 6).map lineName ++ (List.range' (6 * quadrant + 1) 6).map filletName

def roundBlock (quadrant : Nat) (lines : List (Line ℝ)) (arcs : List (Arc ℝ)) : Named (Path ℝ) :=
  numbered lineName (6 * quadrant + 1) (lines.map .line) ++ numbered filletName (6 * quadrant + 1) (arcs.map .arc)

theorem jointed_roundLines (x y outerX outerY c : Decimal) :
    Jointed roundAxis roundJoints (roundLines (outline x y outerX outerY c)) where
  along i := by
    fin_cases i <;> rfl
  turns := by decide
  meets := by
    intro j hj
    fin_cases hj <;> rfl
  stopOnce := by decide
  startOnce := by decide

theorem Measured.drawRounded_eq_ok_iff {older : Named (Path ℝ)} {quadrant : Nat} {sketch : Sketch ℝ}
    (hm : s.Measured x y outerX outerY) (h : IsSigns signs) (hradius : 0 < s.radius)
    (hnodup : (names older ++ roundNames quadrant).Nodup) :
    s.drawRounded (before 6 6 quadrant older) signs = .ok sketch ↔
      ∃ L arcs, Filleted (s.radius.toRat : ℝ) roundJoints
          (mirrored (roundLines (outline x y outerX outerY s.halfConnector)) signs) L arcs ∧
        sketch = before 6 6 (quadrant + 1) (older ++ roundBlock quadrant (List.ofFn L) arcs) := by
  let P : Fin 6 → Point ℝ := fun i =>
    (outline x y outerX outerY s.halfConnector i).mirror (across signs) (down signs)
  let L₀ : Fin 6 → Line ℝ := mirrored (roundLines (outline x y outerX outerY s.halfConnector)) signs
  have hlines : (List.ofFn P).zip ((List.ofFn P).tail ++ (List.ofFn P).take 1) =
      List.ofFn fun i => ((L₀ i).start, (L₀ i).stop) := by
    simp only [List.ofFn_succ, List.ofFn_zero]
    rfl
  have hpairs : ((List.range 6).map fun i => ((i + 5) % 6, i)) = roundJoints.map fun j => (j.1.val, j.2.val) := rfl
  have hnodup' := hnodup
  rw [roundNames, ← List.append_assoc] at hnodup'
  have hdrawn := drawLines_sheet (L := L₀) (6 * quadrant + 1) (List.nodup_append.mp hnodup').1
  unfold drawRounded before
  rw [hm.corners_eq_ok h, Except.ok_bind, hlines, hdrawn]
  dsimp only
  rw [hpairs, drawFillets_sheet hradius]
  · refine exists_congr fun L => exists_congr fun arcs => and_congr_right fun _ => ?_
    have hcount : 6 * quadrant + 1 + 6 = 6 * (quadrant + 1) + 1 := by omega
    change _ = Sketch.mk _ (6 * quadrant + 1 + 6) (6 * quadrant + 1 + 6) ↔ _
    unfold sheet roundBlock
    rw [List.nil_append, List.map_ofFn, List.append_assoc, hcount]
    rfl
  · rw [names_sheet]
    change (names older ++ _ ++ [] ++ _).Nodup
    rw [List.append_nil]
    exact hnodup'

/-! ## Slots that end in half circles -/

def halfLines (P : Fin 6 → Point ℝ) : Fin 4 → Line ℝ := ![⟨P 0, P 1⟩, ⟨P 2, P 3⟩, ⟨P 3, P 4⟩, ⟨P 5, P 0⟩]

/-- The joints that are no half circle's. -/
def halfJoints : List (Fin 4 × Fin 4) := [(1, 2), (3, 0)]

def halfAxis : Fin 4 → Axis := ![.level, .level, .upright, .upright]

def halfNames (quadrant : Nat) : List String :=
  (List.range' (4 * quadrant + 1) 4).map lineName ++
    ["semicircle1_" ++ toString quadrant, "semicircle2_" ++ toString quadrant] ++
    (List.range' (2 * quadrant + 1) 2).map filletName

def halfBlock (quadrant : Nat) (lines : List (Line ℝ)) (first second : Arc ℝ) (fillets : List (Arc ℝ)) :
    Named (Path ℝ) :=
  numbered lineName (4 * quadrant + 1) (lines.map .line) ++
    [("semicircle1_" ++ toString quadrant, .arc first), ("semicircle2_" ++ toString quadrant, .arc second)] ++
    numbered filletName (2 * quadrant + 1) (fillets.map .arc)

/-- The lines are drawn between the corners listed by their places. -/
theorem filterMap_sides (P : Fin 6 → Point ℝ) :
    ([(0, 1), (2, 3), (3, 4), (5, 0)].filterMap fun ((i, j) : Nat × Nat) => do
      return (← (List.ofFn P)[i]?, ← (List.ofFn P)[j]?)) =
      List.ofFn fun i => ((halfLines P i).start, (halfLines P i).stop) := by
  simp only [List.ofFn_succ, List.ofFn_zero]
  rfl

theorem jointed_halfLines (x y outerX outerY c : Decimal) :
    Jointed halfAxis halfJoints (halfLines (outline x y outerX outerY c)) where
  along i := by
    fin_cases i <;> rfl
  turns := by decide
  meets := by
    intro j hj
    fin_cases hj <;> rfl
  stopOnce := by decide
  startOnce := by decide

/-- The sizes of the half circles. -/
structure Bridged (s : Slot) (x y bridge midX midY : Decimal) : Prop where
  bridge : s.halfConnector.add? s.radius = some bridge
  midX : x.add? s.radius = some midX
  midY : y.add? s.radius = some midY

def firstHeading (signs : Decimal × Decimal) : Heading := if signs.1.negative then .south else .north

def secondHeading (signs : Decimal × Decimal) : Heading := if signs.2.negative then .east else .west

/-- The half circle at the end of the first leg. -/
noncomputable def firstEnd (bridge midY : Decimal) (signs : Decimal × Decimal) (r : ℝ) : Arc ℝ :=
  Arc.semicircle (Point.mirror (across signs) (down signs) ⟨bridge.toRat, midY.toRat⟩) (firstHeading signs) r

noncomputable def secondEnd (midX bridge : Decimal) (signs : Decimal × Decimal) (r : ℝ) : Arc ℝ :=
  Arc.semicircle (Point.mirror (across signs) (down signs) ⟨midX.toRat, bridge.toRat⟩) (secondHeading signs) r

/-- The arc drawn at the end of the first leg, with its angles by the sign of its abscissas. -/
theorem ite_eq_firstEnd (bridge midY radius : Decimal) (signs : Decimal × Decimal) :
    let center := Point.mirror (across signs) (down signs) ⟨bridge.toRat, midY.toRat⟩
    (if signs.1.negative = true then (⟨center, Scalar.ofDecimal radius, 270.0, 90.0⟩ : Arc ℝ)
      else ⟨center, Scalar.ofDecimal radius, 90.0, 270.0⟩) = firstEnd bridge midY signs radius.toRat := by
  unfold firstEnd firstHeading
  cases signs.1.negative <;> norm_num [Arc.semicircle, Heading.degrees, Heading.back, Heading.left,
    Scalar.ofDecimal_eq_toRat]

theorem ite_eq_secondEnd (midX bridge radius : Decimal) (signs : Decimal × Decimal) :
    let center := Point.mirror (across signs) (down signs) ⟨midX.toRat, bridge.toRat⟩
    (if signs.2.negative = true then (⟨center, Scalar.ofDecimal radius, 0.0, 180.0⟩ : Arc ℝ)
      else ⟨center, Scalar.ofDecimal radius, 180.0, 0.0⟩) = secondEnd midX bridge signs radius.toRat := by
  unfold secondEnd secondHeading
  cases signs.2.negative <;> norm_num [Arc.semicircle, Heading.degrees, Heading.back, Heading.left,
    Scalar.ofDecimal_eq_toRat]

theorem Measured.drawHalfRound_eq_ok_iff {older : Named (Path ℝ)} {quadrant : Nat} {sketch : Sketch ℝ}
    {bridge midX midY : Decimal} (hm : s.Measured x y outerX outerY) (hb : s.Bridged x y bridge midX midY)
    (h : IsSigns signs) (hradius : 0 < s.radius) (hnodup : (names older ++ halfNames quadrant).Nodup) :
    s.drawHalfRound (before 4 2 quadrant older) quadrant signs = .ok sketch ↔
      ∃ L fillets, Filleted (s.radius.toRat : ℝ) halfJoints
          (mirrored (halfLines (outline x y outerX outerY bridge)) signs) L fillets ∧
        sketch = before 4 2 (quadrant + 1) (older ++ halfBlock quadrant (List.ofFn L)
          (firstEnd bridge midY signs s.radius.toRat) (secondEnd midX bridge signs s.radius.toRat) fillets) := by
  let P : Fin 6 → Point ℝ := fun i => (outline x y outerX outerY bridge i).mirror (across signs) (down signs)
  let L₀ : Fin 4 → Line ℝ := mirrored (halfLines (outline x y outerX outerY bridge)) signs
  have hmirrored : halfLines P = L₀ := by
    funext i
    fin_cases i <;> rfl
  have hlines := filterMap_sides P
  rw [hmirrored] at hlines
  have hpairs : [(1, 2), (3, 0)] = halfJoints.map fun j => (j.1.val, j.2.val) := rfl
  have hx : s.innerX (α := ℝ) = .ok x := Plate.length_eq_ok_iff.mpr hm.innerX
  have hy : s.innerY (α := ℝ) = .ok y := Plate.length_eq_ok_iff.mpr hm.innerY
  have hlength : ∀ {d : Decimal}, (Plate.length (some d) : Except (PlateError ℝ) Decimal) = .ok d := rfl
  have hnodup' := hnodup
  unfold halfNames at hnodup'
  rw [← List.append_assoc, ← List.append_assoc] at hnodup'
  obtain ⟨hends, -, -⟩ := List.nodup_append.mp hnodup'
  have hdrawn := drawLines_sheet (L := L₀) (2 * quadrant + 1) (List.nodup_append.mp hends).1
  have hends' : (names (sheet older (4 * quadrant + 1) L₀ []).paths ++
      ["semicircle1_" ++ toString quadrant, "semicircle2_" ++ toString quadrant]).Nodup := by
    rw [names_sheet]
    change (names older ++ _ ++ [] ++ _).Nodup
    rw [List.append_nil]
    exact hends
  unfold drawHalfRound before
  rw [hb.bridge, hlength, Except.ok_bind, hm.corners_eq_ok h, Except.ok_bind, hlines, hdrawn]
  dsimp only
  rw [hy, Except.ok_bind, hb.midY, hlength, Except.ok_bind, reflect_eq_ok h, Except.ok_bind, hx, Except.ok_bind,
    hb.midX, hlength, Except.ok_bind, reflect_eq_ok h, Except.ok_bind]
  rw [ite_eq_firstEnd, ite_eq_secondEnd, addPath_fresh_pair hends', hpairs, drawFillets_sheet hradius]
  · refine exists_congr fun L => exists_congr fun fillets => and_congr_right fun _ => ?_
    have hlineCount : 4 * quadrant + 1 + 4 = 4 * (quadrant + 1) + 1 := by omega
    have hfilletCount : 2 * quadrant + 1 + 2 = 2 * (quadrant + 1) + 1 := by omega
    change _ = Sketch.mk _ (4 * quadrant + 1 + 4) (2 * quadrant + 1 + 2) ↔ _
    unfold sheet halfBlock
    rw [List.map_ofFn, List.append_assoc, List.append_assoc, List.append_assoc, hlineCount, hfilletCount]
    rfl
  · rw [names_sheet]
    exact hnodup'

/-! ## One slot -/

/-- What is related to a list given by its entries is given by its entries. -/
theorem forall₂_ofFn_left_iff {α β : Type} {R : α → β → Prop} {n : Nat} {a : Fin n → α} {bs : List β} :
    List.Forall₂ R (List.ofFn a) bs ↔ ∃ b : Fin n → β, (∀ i, R (a i) (b i)) ∧ bs = List.ofFn b := by
  constructor
  · intro h
    have hlength : bs.length = n := by rw [← h.length_eq, List.length_ofFn]
    subst hlength
    refine ⟨bs.get, fun i => ?_, (List.ofFn_get bs).symm⟩
    have hget := (List.forall₂_iff_get.mp h).2 i (by rw [List.length_ofFn]; exact i.isLt) i.isLt
    rwa [List.get_ofFn] at hget
  · rintro ⟨b, hb, rfl⟩
    refine List.forall₂_iff_get.mpr ⟨by rw [List.length_ofFn, List.length_ofFn], fun i hi _ => ?_⟩
    rw [List.get_ofFn, List.get_ofFn]
    exact hb _

/-- A slot with all joints rounded: six lines and six quarter circles that follow each other. -/
structure RoundSlot (r : ℝ) (lines : List (Line ℝ)) (arcs : List (Arc ℝ)) : Prop where
  lines_length : lines.length = 6
  arcs_length : arcs.length = 6
  quarters : ∀ arc ∈ arcs, arc.radius = r ∧ arc.span = 90
  ring : IsRing (lines.zip (arcs.rotate 1))

theorem roundSlot_of_filleted {L₀ L : Fin 6 → Line ℝ} {arcs : List (Arc ℝ)} {r : ℝ} (hr : 0 < r)
    (hjointed : Jointed roundAxis roundJoints L₀) (hrun : Filleted r roundJoints L₀ L arcs) :
    RoundSlot r (List.ofFn L) arcs := by
  have hjoins := hrun.joins hjointed hr
  have hofFn : roundJoints = List.ofFn fun i : Fin 6 => (i + 5, i) := rfl
  rw [hofFn, forall₂_ofFn_left_iff] at hjoins
  obtain ⟨arc, hjoins, rfl⟩ := hjoins
  refine ⟨List.length_ofFn, rfl, hrun.quarters hjointed hr, ?_⟩
  -- the first arc stands before the first line, so it closes the ring
  intro pair hpair
  simp only [List.ofFn_succ, List.ofFn_zero, List.rotate_cons_succ, List.rotate_zero, List.cons_append,
    List.nil_append, List.zip_cons_cons, List.zip_nil_left, List.mem_cons, List.not_mem_nil, or_false] at hpair
  obtain rfl | rfl | rfl | rfl | rfl | rfl := hpair
  · exact hjoins 1
  · exact hjoins 2
  · exact hjoins 3
  · exact hjoins 4
  · exact hjoins 5
  · exact hjoins 0

/-- A slot with half circles at its ends: four lines, two quarter circles and two half circles that follow each other.
The half circles bulge to the connectors on the axes, and reach as far as these. -/
structure HalfSlot (r connector σ τ : ℝ) (lines : List (Line ℝ)) (first second : Arc ℝ) (fillets : List (Arc ℝ)) :
    Prop where
  lines_length : lines.length = 4
  quarters : ∀ arc ∈ fillets, arc.radius = r ∧ arc.span = 90
  halves : ∀ arc ∈ [first, second], arc.radius = r ∧ arc.span = 180
  first_middle : first.middle = ⟨σ * connector, first.center.y⟩
  second_middle : second.middle = ⟨second.center.x, τ * connector⟩
  ring : ∃ fillet fillet', fillets = [fillet, fillet'] ∧ IsRing (lines.zip [first, fillet, second, fillet'])

/-- No sum that a slot with half circles is drawn from is rounded. -/
structure Unrounded (s : Slot) : Prop where
  half : ∀ half ∈ s.width.half?, half.toRat = s.width.toRat / 2
  bridge : ∀ bridge ∈ s.halfConnector.add? s.radius, bridge.toRat = s.halfConnector.toRat + s.radius.toRat
  outerX : ∀ x ∈ s.halfWidth.add? s.housing, ∀ outer ∈ x.add? s.width, outer.toRat = x.toRat + s.width.toRat
  outerY : ∀ y ∈ s.halfHeight.add? s.housing, ∀ outer ∈ y.add? s.width, outer.toRat = y.toRat + s.width.toRat
  midX : ∀ x ∈ s.halfWidth.add? s.housing, ∀ mid ∈ x.add? s.radius, mid.toRat = x.toRat + s.radius.toRat
  midY : ∀ y ∈ s.halfHeight.add? s.housing, ∀ mid ∈ y.add? s.radius, mid.toRat = y.toRat + s.radius.toRat

section
variable {bridge midX midY : Decimal} {r : ℝ}

theorem step_firstHeading (h : IsSigns signs) : (firstHeading signs).step = ⟨0, across signs⟩ := by
  rw [across, toRat_unit h.first, firstHeading]
  split <;> rfl

theorem step_secondHeading (h : IsSigns signs) : (secondHeading signs).step = ⟨-down signs, 0⟩ := by
  rw [down, toRat_unit h.second, secondHeading]
  split <;> simp [Heading.step]

/-- The half circle reaches out to the middle by its radius. -/
theorem firstEnd_middle (h : IsSigns signs) : (firstEnd bridge midY signs r).middle =
    ⟨across signs * (bridge.toRat - r), (firstEnd bridge midY signs r).center.y⟩ := by
  rw [firstEnd, Arc.semicircle_middle, Heading.step_left, step_firstHeading h, Point.add_def, Point.scale_def]
  dsimp only [Arc.semicircle, Point.mirror]
  congr 1
  · ring
  · ring

theorem secondEnd_middle (h : IsSigns signs) : (secondEnd midX bridge signs r).middle =
    ⟨(secondEnd midX bridge signs r).center.x, down signs * (bridge.toRat - r)⟩ := by
  rw [secondEnd, Arc.semicircle_middle, Heading.step_left, step_secondHeading h, Point.add_def, Point.scale_def]
  dsimp only [Arc.semicircle, Point.mirror]
  congr 1
  · ring
  · ring

theorem IsSigns.eq_or_eq_neg (h : IsSigns signs) : across signs = down signs ∨ across signs = -down signs :=
  mul_self_eq_mul_self_iff.mp (h.across_mul_self.trans h.down_mul_self.symm)

/-- The half circle stands between the two lines whose ends are `r` off its center. -/
theorem firstEnd_joins (bridge : Decimal) (h : IsSigns signs) {near far : Decimal}
    (hnear : (midY.toRat : ℝ) = near.toRat + r) (hfar : (far.toRat : ℝ) = midY.toRat + r) :
    (firstEnd bridge midY signs r).Joins
      (Point.mirror (across signs) (down signs) ⟨bridge.toRat, near.toRat⟩)
      (Point.mirror (across signs) (down signs) ⟨bridge.toRat, far.toRat⟩) := by
  have hends : (firstHeading signs).step = ⟨0, down signs⟩ ∨ (firstHeading signs).back.step = ⟨0, down signs⟩ := by
    rw [Heading.step_back, step_firstHeading h]
    obtain heq | heq := h.eq_or_eq_neg
    · exact Or.inl (by rw [heq])
    · exact Or.inr (by simp [heq, Point.scale_def])
  have hnear' : (midY.toRat : ℝ) + -r = near.toRat := by rw [hnear, add_neg_cancel_right]
  have hjoins := Arc.semicircle_joins (Point.mirror (across signs) (down signs) ⟨bridge.toRat, midY.toRat⟩) _ r hends
  rw [Point.mirror_add_upright, Point.mirror_add_upright, ← hfar, hnear'] at hjoins
  exact hjoins.symm

theorem secondEnd_joins (bridge : Decimal) (h : IsSigns signs) {near far : Decimal}
    (hnear : (midX.toRat : ℝ) = near.toRat + r) (hfar : (far.toRat : ℝ) = midX.toRat + r) :
    (secondEnd midX bridge signs r).Joins
      (Point.mirror (across signs) (down signs) ⟨far.toRat, bridge.toRat⟩)
      (Point.mirror (across signs) (down signs) ⟨near.toRat, bridge.toRat⟩) := by
  have hends : (secondHeading signs).step = ⟨across signs, 0⟩ ∨
      (secondHeading signs).back.step = ⟨across signs, 0⟩ := by
    rw [Heading.step_back, step_secondHeading h]
    obtain heq | heq := h.eq_or_eq_neg
    · exact Or.inr (by simp [heq, Point.scale_def])
    · exact Or.inl (by rw [heq])
  have hnear' : (midX.toRat : ℝ) + -r = near.toRat := by rw [hnear, add_neg_cancel_right]
  have hjoins := Arc.semicircle_joins (Point.mirror (across signs) (down signs) ⟨midX.toRat, bridge.toRat⟩) _ r hends
  rw [Point.mirror_add_level, Point.mirror_add_level, ← hfar, hnear'] at hjoins
  exact hjoins

theorem IsSigns.eq_of_same (h : IsSigns signs) (hsame : across signs * down signs = 1) : across signs = down signs := by
  linear_combination -across signs * hsame + down signs * h.across_mul_self

theorem IsSigns.eq_of_swapped (h : IsSigns signs) (hswapped : across signs * down signs = -1) :
    across signs = -down signs := by
  linear_combination across signs * hswapped - down signs * h.across_mul_self

/-- The half circles of a slot are the mirror images of those in the first quadrant. -/
theorem firstEnd_mirrors (h : IsSigns signs) :
    (firstEnd bridge midY (1, 1) r).Mirrors (across signs) (down signs) (firstEnd bridge midY signs r) := by
  have hone := step_firstHeading isSigns_one
  rw [across_one] at hone
  rw [firstEnd, firstEnd, across_one, down_one, Point.mirror_one]
  refine Arc.semicircle_mirrors _ r (fun hsame => ?_) fun hswapped => ?_
  · rw [step_firstHeading h, hone, h.eq_of_same hsame, Point.mirror, mul_zero, mul_one]
  · rw [step_firstHeading h, Heading.step_back, hone, h.eq_of_swapped hswapped]
    simp [Point.mirror, Point.scale_def]

theorem secondEnd_mirrors (h : IsSigns signs) :
    (secondEnd midX bridge (1, 1) r).Mirrors (across signs) (down signs) (secondEnd midX bridge signs r) := by
  have hone := step_secondHeading isSigns_one
  rw [down_one] at hone
  rw [secondEnd, secondEnd, across_one, down_one, Point.mirror_one]
  refine Arc.semicircle_mirrors _ r (fun hsame => ?_) fun hswapped => ?_
  · rw [step_secondHeading h, hone, h.eq_of_same hsame, Point.mirror, mul_zero, mul_neg_one]
  · rw [step_secondHeading h, Heading.step_back, hone, h.eq_of_swapped hswapped]
    simp [Point.mirror, Point.scale_def]

theorem half_of_isHalfRound (h : s.isHalfRound (α := ℝ) = .ok true) :
    ∃ half, s.width.half? = some half ∧ s.radius.toRat = half.toRat := by
  obtain ⟨half, hhalf, hsame⟩ := Except.bind_eq_ok_iff.mp h
  exact ⟨half, Plate.length_eq_ok_iff.mp hhalf,
    Decimal.same_iff_toRat.mp (of_decide_eq_true (Except.ok.inj hsame))⟩

/-- If no sum is rounded, the centers of the half circles are half way between the lines, and their ends a radius
further out than the connectors. -/
theorem Unrounded.sizes (hexact : s.Unrounded) (hround : s.isHalfRound (α := ℝ) = .ok true)
    (hm : s.Measured x y outerX outerY) (hb : s.Bridged x y bridge midX midY) :
    (midX.toRat = x.toRat + s.radius.toRat ∧ outerX.toRat = midX.toRat + s.radius.toRat) ∧
      (midY.toRat = y.toRat + s.radius.toRat ∧ outerY.toRat = midY.toRat + s.radius.toRat) ∧
      bridge.toRat - s.radius.toRat = s.halfConnector.toRat := by
  obtain ⟨half, hhalf, hsame⟩ := half_of_isHalfRound hround
  have hwidth : s.width.toRat = 2 * s.radius.toRat := by
    rw [hsame, hexact.half half hhalf]
    ring
  have hmidX := hexact.midX x hm.innerX midX hb.midX
  have hmidY := hexact.midY y hm.innerY midY hb.midY
  refine ⟨⟨hmidX, ?_⟩, ⟨hmidY, ?_⟩, ?_⟩
  · rw [hexact.outerX x hm.innerX outerX hm.outerX, hmidX, hwidth]
    ring
  · rw [hexact.outerY y hm.innerY outerY hm.outerY, hmidY, hwidth]
    ring
  · rw [hexact.bridge bridge hb.bridge, add_sub_cancel_right]

/-- The half circles fill the gaps that the fillets leave between the lines. -/
theorem halfSlot_of_filleted {L : Fin 4 → Line ℝ} {fillets : List (Arc ℝ)} (hradius : 0 < s.radius)
    (hround : s.isHalfRound (α := ℝ) = .ok true) (hexact : s.Unrounded) (hm : s.Measured x y outerX outerY)
    (hb : s.Bridged x y bridge midX midY) (h : IsSigns signs)
    (hrun : Filleted (s.radius.toRat : ℝ) halfJoints (mirrored (halfLines (outline x y outerX outerY bridge)) signs) L
      fillets) :
    HalfSlot s.radius.toRat s.halfConnector.toRat (across signs) (down signs) (List.ofFn L)
      (firstEnd bridge midY signs s.radius.toRat) (secondEnd midX bridge signs s.radius.toRat) fillets := by
  have hr : (0 : ℝ) < s.radius.toRat := Rat.cast_pos.mpr (Decimal.pos_iff.mp hradius)
  obtain ⟨⟨hmidX, houterX⟩, ⟨hmidY, houterY⟩, hbridge⟩ := hexact.sizes hround hm hb
  have hconnector : (bridge.toRat : ℝ) - s.radius.toRat = s.halfConnector.toRat := by exact_mod_cast hbridge
  have hfirst := firstEnd_joins bridge h (r := s.radius.toRat) (by exact_mod_cast hmidY) (by exact_mod_cast houterY)
  have hsecond := secondEnd_joins bridge h (r := s.radius.toRat) (by exact_mod_cast hmidX) (by exact_mod_cast houterX)
  have hjointed := (jointed_halfLines x y outerX outerY bridge).mirror (σ := across signs) (τ := down signs)
  obtain ⟨hstop, hstart⟩ := hrun.ends_eq hjointed hr
  have hjoins := hrun.joins hjointed hr
  have hofFn : halfJoints = List.ofFn ![(1, 2), (3, 0)] := rfl
  rw [hofFn, forall₂_ofFn_left_iff] at hjoins
  obtain ⟨fillet, hjoins, rfl⟩ := hjoins
  refine ⟨List.length_ofFn, hrun.quarters hjointed hr, ?_, ?_, ?_, fillet 0, fillet 1, rfl, ?_⟩
  · refine List.forall_mem_cons.mpr ⟨⟨rfl, Arc.semicircle_span _ _ _⟩, List.forall_mem_singleton.mpr ?_⟩
    exact ⟨rfl, Arc.semicircle_span _ _ _⟩
  · rw [firstEnd_middle h, hconnector]
  · rw [secondEnd_middle h, hconnector]
  · intro pair hpair
    simp only [List.ofFn_succ, List.ofFn_zero, List.rotate_cons_succ, List.rotate_zero, List.cons_append,
      List.nil_append, List.zip_cons_cons, List.zip_nil_left, List.mem_cons, List.not_mem_nil, or_false] at hpair
    obtain rfl | rfl | rfl | rfl := hpair
    · -- the ends next to a half circle are no fillet's
      change (firstEnd _ _ _ _).Joins (L 0).stop (L 1).start
      rw [hstop 0 (by decide), hstart 1 (by decide)]
      exact hfirst
    · exact hjoins 0
    · change (secondEnd _ _ _ _).Joins (L 2).stop (L 3).start
      rw [hstop 2 (by decide), hstart 3 (by decide)]
      exact hsecond
    · exact hjoins 1

end

/-! ## What four slots are -/

/-- The signs of a quadrant. -/
def signsOf (quadrant : Fin 4) : Decimal × Decimal := quadrants.get quadrant

/-- Four slots with all joints rounded, the mirror images of the first. -/
def AreRound (r : ℝ) (m : Model ℝ) : Prop :=
  ∃ (lines : Fin 4 → List (Line ℝ)) (arcs : Fin 4 → List (Arc ℝ)),
    m = { paths := (List.ofFn fun q => roundBlock q (lines q) (arcs q)).flatten } ∧
    ∀ q, RoundSlot r (lines q) (arcs q) ∧
      lines q = (lines 0).map (Line.mirror (across (signsOf q)) (down (signsOf q))) ∧
      List.Forall₂ (Arc.Mirrors (across (signsOf q)) (down (signsOf q))) (arcs 0) (arcs q)

/-- Four slots that end in half circles, the mirror images of the first. -/
def AreHalfRound (s : Slot) (m : Model ℝ) : Prop :=
  ∃ (lines : Fin 4 → List (Line ℝ)) (first second : Fin 4 → Arc ℝ) (fillets : Fin 4 → List (Arc ℝ)),
    m = { paths := (List.ofFn fun q => halfBlock q (lines q) (first q) (second q) (fillets q)).flatten } ∧
    ∀ q, (s.Unrounded → HalfSlot s.radius.toRat s.halfConnector.toRat (across (signsOf q)) (down (signsOf q)) (lines q)
        (first q) (second q) (fillets q)) ∧
      lines q = (lines 0).map (Line.mirror (across (signsOf q)) (down (signsOf q))) ∧
      (first 0).Mirrors (across (signsOf q)) (down (signsOf q)) (first q) ∧
      (second 0).Mirrors (across (signsOf q)) (down (signsOf q)) (second q) ∧
      List.Forall₂ (Arc.Mirrors (across (signsOf q)) (down (signsOf q))) (fillets 0) (fillets q)

end

end Slot

end KeyboardPlate
