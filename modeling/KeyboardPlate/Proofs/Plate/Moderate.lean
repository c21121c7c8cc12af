import KeyboardPlate.Proofs.Decimal.Angle
import KeyboardPlate.Proofs.Plate.Bounds
import KeyboardPlate.Proofs.Plate.Rectangle

/-!
# Plates of moderate layouts

With default options every key of moderate size in a moderate place gets its cutouts: the sizes of an aperture
and of a stabilizer fit, and no bounds leave the range of decimals. The bounds of a key are wide enough for the
rounded corners of a plate, and merging bounds only widens them.
-/

set_option autoImplicit false

namespace KeyboardPlate

open Decimal (Within Fits mantissaLimit)

/-- A key of moderate size in a moderate place. -/
structure Key.Moderate (k : Key) : Prop where
  width : (0.25 : Decimal) ≤ k.width ∧ k.width ≤ 100
  height : (0.25 : Decimal) ≤ k.height ∧ k.height ≤ 100
  position : k.x.Within 1000000 ∧ k.y.Within 1000000
  rotation : k.rotationX.Within 1000000 ∧ k.rotationY.Within 1000000
  angle : k.angle.Within 1000000
  switchAngle : k.switchAngle.Within 1000000
  stabilizerAngle : k.stabilizerAngle.Within 1000000

/-! ## The bounds of a key -/

theorem Decimal.within_size {d : Decimal} (h : (0.25 : Decimal) ≤ d ∧ d ≤ 100) :
    1 / 4 ≤ d.toRat ∧ d.Within 100 := by
  have hlow : (0.25 : Decimal).toRat = 1 / 4 := by decide +kernel
  have hhigh : (100 : Decimal).toRat = 100 := by decide +kernel
  rw [le_iff_toRat, le_iff_toRat, hlow, hhigh] at h
  refine ⟨h.1, within_iff_toRat.mpr ?_⟩
  rw [abs_le]
  constructor
  · push_cast
    linarith
  · exact h.2

/-- The two ends of a side of a key, about its middle. -/
theorem exists_ends {center size : Decimal} (hcenter : center.Within 57002850)
    (hsize : (0.25 : Decimal) ≤ size ∧ size ≤ 100) :
    ∃ middle length half low high, center.mul? 19.05 = some middle ∧ size.mul? 19.05 = some length ∧
      length.half? = some half ∧ middle.sub? half = some low ∧ middle.add? half = some high ∧
      low.Within 1140058000 ∧ high.Within 1140058000 ∧ 9 / 4 ≤ high.toRat - low.toRat := by
  obtain ⟨hleast, hmost⟩ := Decimal.within_size hsize
  have hunit : (19.05 : Decimal).Within 20 := by decide +kernel
  have hvalue : (19.05 : Decimal).toRat = 381 / 20 := by decide +kernel
  obtain ⟨middle, hmiddle, hmiddle'⟩ := hcenter.mul? hunit (by decide)
  obtain ⟨length, hlength, hlength'⟩ := hmost.mul? hunit (by decide)
  obtain ⟨half, hhalf, hhalf'⟩ := Decimal.Within.half? (n := 1000) hlength' (by decide)
  obtain ⟨low, hlow, hlow'⟩ := hmiddle'.sub? hhalf' (by decide)
  obtain ⟨high, hhigh, hhigh'⟩ := hmiddle'.add? hhalf' (by decide)
  refine ⟨middle, length, half, low, high, hmiddle, hlength, hhalf, hlow, hhigh, hlow', hhigh', ?_⟩
  have hlengthNear := (hmost.near_mul? hunit (by decide)).eq_some hlength
  have hhalfNear := length.near_half?.eq_some hhalf
  have hlowNear := (hmiddle'.near_sub? hhalf' (by decide)).eq_some hlow
  have hhighNear := (hmiddle'.near_add? hhalf' (by decide)).eq_some hhigh
  rw [hvalue, abs_le] at hlengthNear
  rw [abs_le] at hhalfNear hlowNear hhighNear
  linarith

theorem Key.Moderate.center {k : Key} (h : k.Moderate) :
    k.centerX.Within 57002850 ∧ k.centerY.Within 57002850 := by
  obtain ⟨-, hwidth⟩ := Decimal.within_size h.width
  obtain ⟨-, hheight⟩ := Decimal.within_size h.height
  obtain ⟨c, hc, hx, hy⟩ := Placement.exists_center? (m := 50) h.position.1 h.position.2 hwidth hheight h.rotation.1
    h.rotation.2 (by decide)
  rw [k.center_eq] at hc
  cases hc
  exact ⟨hx, hy⟩

namespace Bounds

/-- Bounds in a moderate place that hold more than the rounded corners of a plate. -/
structure Roomy (b : Bounds) : Prop where
  minX : b.minX.Within 1140058000
  maxX : b.maxX.Within 1140058000
  minY : b.minY.Within 1140058000
  maxY : b.maxY.Within 1140058000
  width : 9 / 4 ≤ b.maxX.toRat - b.minX.toRat
  height : 9 / 4 ≤ b.maxY.toRat - b.minY.toRat

theorem exists_ofKey? {k : Key} (h : k.Moderate) : ∃ b, ofKey? k {} = some b ∧ b.Roomy := by
  obtain ⟨hx, hy⟩ := h.center
  obtain ⟨x, width, halfWidth, minX, maxX, hx, hw, hhw, hminX, hmaxX, hlowX, hhighX, hwide⟩ := exists_ends hx h.width
  obtain ⟨y, height, halfHeight, minY, maxY, hy, hh, hhh, hminY, hmaxY, hlowY, hhighY, htall⟩ := exists_ends hy h.height
  refine ⟨⟨minX, maxX, minY, maxY⟩, ?_, hlowX, hhighX, hlowY, hhighY, hwide, htall⟩
  unfold ofKey?
  simp only [hx, hy, hw, hh, hhw, hhh, hminX, hmaxX, hminY, hmaxY, Option.bind_eq_bind, Option.bind_some]
  rfl

/-- The least bounds around roomy ones are roomy. -/
theorem LeastAround.roomy {b : Bounds} {boxes : List Bounds} (h : b.LeastAround boxes)
    (hboxes : ∀ c ∈ boxes, c.Roomy) : b.Roomy := by
  obtain ⟨left, hleft, hminX⟩ := h.minX
  obtain ⟨right, hright, hmaxX⟩ := h.maxX
  obtain ⟨upper, hupper, hminY⟩ := h.minY
  obtain ⟨lower, hlower, hmaxY⟩ := h.maxY
  have hinside := h.inside left hleft
  have hroomy := hboxes left hleft
  refine ⟨hminX ▸ hroomy.minX, hmaxX ▸ (hboxes right hright).maxX, hminY ▸ (hboxes upper hupper).minY,
    hmaxY ▸ (hboxes lower hlower).maxY, ?_, ?_⟩
  · have hmin := Decimal.le_iff_toRat.mp hinside.minX
    have hmax := Decimal.le_iff_toRat.mp hinside.maxX
    linarith [hroomy.width]
  · have hmin := Decimal.le_iff_toRat.mp hinside.minY
    have hmax := Decimal.le_iff_toRat.mp hinside.maxY
    linarith [hroomy.height]

theorem Roomy.exists_extent {b : Bounds} (h : b.Roomy) :
    ∃ width height, b.width? = some width ∧ b.height? = some height := by
  obtain ⟨width, hwidth, -⟩ := h.maxX.sub? h.minX (by decide)
  obtain ⟨height, hheight, -⟩ := h.maxY.sub? h.minY (by decide)
  exact ⟨width, height, hwidth, hheight⟩

end Bounds

/-! ## The cutouts of a key -/

theorem ofDecimal_eq {d : Decimal} {q : ℚ} (h : d.toRat = q) : (Scalar.ofDecimal d : ℝ) = q := by
  change (d.toRat : ℝ) = q
  rw [h]

/-- The hole of a stabilizer is wide and tall enough for its rounded corners. -/
theorem CutoutProfile.exists_hole (spacing : List (Decimal × Option Decimal)) :
    ∃ m, (CutoutProfile.hole ⟨7, 6, -8, spacing⟩ 0.5 : Except (PlateError ℝ) (Model ℝ)) = .ok m := by
  have hhalf : (7 : Decimal).half? = some 3.5 := by decide +kernel
  have hleft : (Scalar.ofDecimal (-3.5) : ℝ) = -7 / 2 := by
    rw [ofDecimal_eq (by decide +kernel : (-3.5 : Decimal).toRat = -7 / 2)]
    norm_num
  have hright : (Scalar.ofDecimal 3.5 : ℝ) = 7 / 2 := by
    rw [ofDecimal_eq (by decide +kernel : (3.5 : Decimal).toRat = 7 / 2)]
    norm_num
  have hupper : (Scalar.ofDecimal 6 : ℝ) = 6 := by
    rw [ofDecimal_eq (by decide +kernel : (6 : Decimal).toRat = 6)]
    norm_num
  have hlower : (Scalar.ofDecimal (-8) : ℝ) = -8 := by
    rw [ofDecimal_eq (by decide +kernel : (-8 : Decimal).toRat = -8)]
    norm_num
  have hradius : (Scalar.ofDecimal 0.5 : ℝ) = 1 / 2 := by
    rw [ofDecimal_eq (by decide +kernel : (0.5 : Decimal).toRat = 1 / 2)]
    norm_num
  have hpositive : (0 : Decimal) < 0.5 := by decide +kernel
  have htol := jointTolerance_eq
  have hacross : (7 / 2 : ℝ) = -7 / 2 + 1 * 7 := by norm_num
  have hdown : (-8 : ℝ) = 6 + -1 * 14 := by norm_num
  have hrounded := Model.filletCorners_rectangle hacross hdown (one_mul 1) (by norm_num) one_half_pos (by linarith)
    (by linarith) (by linarith) (by linarith)
  refine ⟨Model.rounded (-7 / 2) 6 1 (-1) 7 14 (1 / 2), ?_⟩
  unfold CutoutProfile.hole
  rw [hhalf]
  refine Except.bind_eq_ok_iff.mpr ⟨3.5, rfl, ?_⟩
  rw [if_pos hpositive, hleft, hright, hradius]
  dsimp only
  rw [hupper, hlower, hrounded]
  rfl

theorem exists_stabilizer (k : Key) :
    ∃ cutout, (k.stabilizer {} : Except (PlateError ℝ) (Option (Model ℝ))) = .ok cutout := by
  change ∃ cutout, CutoutProfile.cutout ⟨7, 6, -8, StabilizerType.mxSpacing⟩ k 0.5 = .ok cutout
  unfold CutoutProfile.cutout
  split
  · exact ⟨none, rfl⟩
  · obtain ⟨m, hm⟩ := CutoutProfile.exists_hole StabilizerType.mxSpacing
    rw [hm]
    exact ⟨_, rfl⟩

theorem exists_aperture (k : Key) : ∃ m, (k.aperture {} : Except (PlateError ℝ) (Model ℝ)) = .ok m := by
  have hupright : (Aperture.upright {} : Except (PlateError ℝ) (Model ℝ)).isOk = true := by decide +kernel
  obtain ⟨m, hm⟩ := Except.exists_of_isOk hupright
  unfold Key.aperture
  rw [hm]
  exact ⟨_, rfl⟩

namespace Plate

theorem exists_pose {k : Key} (h : k.Moderate) (id : Nat) :
    ∃ p, (pose {} id k : Except (PlateError ℝ) (Pose ℝ)) = .ok p := by
  obtain ⟨hx, hy⟩ := h.center
  have hunit : (19.05 : Decimal).Within 20 := by decide +kernel
  obtain ⟨x, hx, -⟩ := hx.mul? hunit (by decide)
  obtain ⟨y, hy, -⟩ := hy.mul? hunit (by decide)
  obtain ⟨s, hs, -⟩ := h.angle.add? h.switchAngle (by decide)
  obtain ⟨c, hc, -⟩ := h.angle.add? h.stabilizerAngle (by decide)
  unfold pose
  simp only [hx, hy, hs, hc]
  exact ⟨_, rfl⟩

theorem exists_keyBlock {k : Key} (h : k.Moderate) (id : Nat) :
    ∃ block, (keyBlock {} id k : Except (PlateError ℝ) (List (String × Model ℝ))) = .ok block := by
  obtain ⟨p, hp⟩ := exists_pose h id
  obtain ⟨m, hm⟩ := exists_aperture k
  obtain ⟨cutout, hcutout⟩ := exists_stabilizer k
  have hswitch : ∃ things, (switchBlock {} (toString id) p k : Except (PlateError ℝ) (List (String × Model ℝ))) =
      .ok things := by
    unfold switchBlock
    rw [hm]
    exact ⟨_, rfl⟩
  have hstabilizer : ∃ things, (stabilizerBlock {} (toString id) p k : Except (PlateError ℝ) (List (String × Model ℝ))) =
      .ok things := by
    unfold stabilizerBlock
    rw [hcutout]
    cases cutout with
    | none => exact ⟨_, rfl⟩
    | some cutout => exact ⟨_, rfl⟩
  have hacoustic : (acousticBlock {} (toString id) p k : Except (PlateError ℝ) (List (String × Model ℝ))) = .ok [] := rfl
  have hslot : (slotBlock {} (toString id) p : Except (PlateError ℝ) (List (String × Model ℝ))) = .ok [] := rfl
  obtain ⟨switch, hswitch⟩ := hswitch
  obtain ⟨stabilizer, hstabilizer⟩ := hstabilizer
  apply Except.exists_bind_eq_ok hp
  apply Except.exists_bind_eq_ok hswitch
  apply Except.exists_bind_eq_ok hstabilizer
  apply Except.exists_bind_eq_ok hacoustic
  apply Except.exists_bind_eq_ok hslot
  exact ⟨_, rfl⟩

theorem exists_keyBlocks {keys : List Key} (h : ∀ k ∈ keys, k.Moderate) (id : Nat) :
    ∃ blocks, (keyBlocks {} id keys : Except (PlateError ℝ) (List (Bounds × List (String × Model ℝ)))) = .ok blocks ∧
      blocks.length = keys.length ∧ ∀ block ∈ blocks, block.1.Roomy := by
  induction keys generalizing id with
  | nil => exact ⟨[], rfl, rfl, fun _ hb => by cases hb⟩
  | cons k keys ih =>
    obtain ⟨hk, hkeys⟩ := List.forall_mem_cons.mp h
    obtain ⟨b, hb, hroomy⟩ := Bounds.exists_ofKey? hk
    obtain ⟨block, hblock⟩ := exists_keyBlock hk id
    obtain ⟨blocks, hblocks, hlength, hall⟩ := ih hkeys (id + 1)
    refine ⟨(b, block) :: blocks, ?_, by simp [hlength], List.forall_mem_cons.mpr ⟨hroomy, hall⟩⟩
    rw [keyBlocks, hb, hblock, hblocks]
    rfl

theorem exists_edge {b : Bounds} (h : b.Roomy) :
    ∃ m, (edge b {} : Except (PlateError ℝ) (Model ℝ)) = .ok m := by
  have hpositive : (0 : Decimal) < 1 := by decide +kernel
  have hradius : (Scalar.ofDecimal 1 : ℝ) = 1 := by
    rw [ofDecimal_eq (by decide +kernel : (1 : Decimal).toRat = 1)]
    norm_num
  have hwide : (9 / 4 : ℝ) ≤ b.maxX.toRat - b.minX.toRat := by
    have hcast := (Rat.cast_le (K := ℝ)).mpr h.width
    push_cast at hcast
    exact hcast
  have htall : (9 / 4 : ℝ) ≤ b.maxY.toRat - b.minY.toRat := by
    have hcast := (Rat.cast_le (K := ℝ)).mpr h.height
    push_cast at hcast
    exact hcast
  have hupper : (Scalar.ofDecimal (-b.maxY) : ℝ) = -b.maxY.toRat := by
    rw [ofDecimal_eq b.maxY.toRat_neg]
    norm_num
  have hlower : (Scalar.ofDecimal (-b.minY) : ℝ) = -b.minY.toRat := by
    rw [ofDecimal_eq b.minY.toRat_neg]
    norm_num
  have hacross : (b.maxX.toRat : ℝ) = b.minX.toRat + 1 * (b.maxX.toRat - b.minX.toRat) := by ring
  have hdown : -(b.minY.toRat : ℝ) = -b.maxY.toRat + 1 * (b.maxY.toRat - b.minY.toRat) := by ring
  have htol := jointTolerance_eq
  have hrounded := Model.filletCorners_rectangle hacross hdown (one_mul 1) (one_mul 1) one_pos (by linarith)
    (by linarith) (by linarith) (by linarith)
  unfold edge
  change ∃ m, (do
    let m ← if (0 : Decimal) < 1 then geometry (Model.filletCorners (Scalar.ofDecimal 1) (Model.rectangle
      (Scalar.ofDecimal b.minX) (Scalar.ofDecimal b.maxX) (Scalar.ofDecimal (-b.maxY)) (Scalar.ofDecimal (-b.minY))))
      else pure _
    return m.withLayer .plate : Except (PlateError ℝ) (Model ℝ)) = .ok m
  rw [if_pos hpositive, hradius, hupper, hlower, ofDecimal_eq rfl, ofDecimal_eq rfl, hrounded]
  exact ⟨_, rfl⟩

/-- With default options every moderate layout that has a key at all has a plate. -/
theorem build_moderate {keys : List Key} (hne : keys ≠ []) (h : ∀ k ∈ keys, k.Moderate) :
    ∃ plate, (build keys {} : Except (PlateError ℝ) (Plate ℝ)) = .ok plate := by
  obtain ⟨blocks, hblocks, hlength, hall⟩ := exists_keyBlocks h 0
  have hblocksNe : blocks ≠ [] := by
    rintro rfl
    exact hne (List.length_eq_zero_iff.mp hlength.symm)
  obtain ⟨first, rest, rfl⟩ := List.exists_cons_of_ne_nil hblocksNe
  obtain ⟨b, hb⟩ : ∃ b, Bounds.union? ((first :: rest).map (·.1)) = some b := ⟨_, rfl⟩
  have hroomy : b.Roomy := by
    apply (Bounds.leastAround_of_union? hb).roomy
    intro c hc
    obtain ⟨block, hblock, rfl⟩ := List.mem_map.mp hc
    exact hall block hblock
  obtain ⟨width, height, hwidth, hheight⟩ := hroomy.exists_extent
  obtain ⟨outline, houtline⟩ := exists_edge hroomy
  have hown : (ownBlock b {} : Except (PlateError ℝ) (List (String × Model ℝ))) = .ok [("BoundingBox0", outline)] := by
    unfold ownBlock
    rw [houtline]
    rfl
  apply Except.exists_bind_eq_ok hblocks
  rw [hb]
  dsimp only
  rw [hwidth, hheight]
  apply Except.exists_bind_eq_ok hown
  exact ⟨_, rfl⟩

/-- A wide key turned about a corner of another, and a tall one of the least width, below the origin. -/
def tiltedKey : Key :=
  { x := 3, y := 2, width := 6.25, angle := 15, rotationX := 4.5, rotationY := 3,
    centerX := 6.1990389902709963471427821183, centerY := 2.9376180351470620954420890111,
    center_eq := by decide +kernel }

def narrowKey : Key :=
  { x := 4, y := -1000000, width := 0.25, height := 100, switchAngle := -90, centerX := 4.125, centerY := -999950,
    center_eq := by decide +kernel }

theorem tiltedAndNarrow_moderate : [tiltedKey, narrowKey] ≠ [] ∧ (∀ k ∈ [tiltedKey, narrowKey], k.Moderate) ∧
    ∃ plate, (build [tiltedKey, narrowKey] {} : Except (PlateError ℝ) (Plate ℝ)) = .ok plate := by
  have htilted : tiltedKey.Moderate := by constructor <;> decide +kernel
  have hnarrow : narrowKey.Moderate := by constructor <;> decide +kernel
  have hall : ∀ k ∈ [tiltedKey, narrowKey], k.Moderate := by simp [htilted, hnarrow]
  exact ⟨List.cons_ne_nil _ _, hall, build_moderate (List.cons_ne_nil _ _) hall⟩

end Plate

end KeyboardPlate
