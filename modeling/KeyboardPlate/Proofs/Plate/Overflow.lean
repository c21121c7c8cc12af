import KeyboardPlate.Layout.Resolve
import KeyboardPlate.Proofs.Decimal.Bound
import KeyboardPlate.Proofs.Plate.Build

/-!
# Lengths that leave the decimal range

With options of moderate size every length of a key's drawings has a decimal. Of the plate's own drawings
only the pattern along the edge can lack one: it adds widths to bounds of which nothing is known but that
their differences fit.
-/

set_option autoImplicit false

namespace KeyboardPlate

open Decimal

namespace Options

/-- All lengths among the options. -/
def decimals (o : Options) : List Decimal := [
  o.switchHeight, o.switchWidth, o.switchFilletRadius, o.switchLineWidth, o.switchSolderMaskExpansion,
  o.stabilizerFilletRadius, o.stabilizerLineWidth, o.stabilizerSolderMaskExpansion,
  o.acousticFilletRadius, o.acousticLineWidth, o.acousticSolderMaskExpansion,
  o.slotWidth, o.switchHousingWidth, o.connectorWidth, o.slotLineWidth, o.slotSolderMaskExpansion,
  o.slotPatternRadius, o.plateRadius, o.plateLineWidth, o.plateSolderMaskExpansion, o.platePatternRadius,
  o.unitWidth, o.unitHeight]

/-- No length among the options is longer than `n`. -/
def Within (n : Nat) (o : Options) : Prop := ∀ d ∈ o.decimals, d.Within n

instance (n : Nat) (o : Options) : Decidable (o.Within n) :=
  inferInstanceAs (Decidable (∀ d ∈ o.decimals, d.Within n))

end Options

namespace Bounds

/-- No side is further than `n` from the origin. -/
structure Within (n : Nat) (b : Bounds) : Prop where
  minX : b.minX.Within n
  maxX : b.maxX.Within n
  minY : b.minY.Within n
  maxY : b.maxY.Within n

/-- The bounds of all keys, if each of them has bounds and there is one. -/
def ofKeys? (keys : List Key) (o : Options) : Option Bounds :=
  (keys.mapM fun k => ofKey? k o).bind union?

end Bounds

variable {α β γ : Type}

/-! ## Steps without overflow -/

/-- The step has a result with the property, or an error other than an overflow. -/
abbrev Safe (P : β → Prop) (x : Except (PlateError α) β) : Prop := x.Meets P (· ≠ .overflow)

/-- The step does not overflow. -/
abbrev NoOverflow (x : Except (PlateError α) β) : Prop := Safe (fun _ => True) x

theorem noOverflow_pure (b : β) : NoOverflow (pure b : Except (PlateError α) β) := trivial

theorem NoOverflow.ne {x : Except (PlateError α) β} (h : NoOverflow x) : x ≠ .error .overflow := by
  rintro rfl
  exact h rfl

/-- Whether the step overflows. -/
def overflows : Except (PlateError α) β → Bool
  | .error .overflow => true
  | _ => false

theorem overflows_iff {x : Except (PlateError α) β} : overflows x = true ↔ x = .error .overflow := by
  cases x with
  | ok b => simp [overflows]
  | error e => cases e <;> simp [overflows]

theorem safe_length {n : Nat} {x : Option Decimal} (h : Fits n x) :
    Safe (Decimal.Within n) (Plate.length x : Except (PlateError α) Decimal) := by
  obtain ⟨d, rfl, hd⟩ := h
  exact hd

theorem noOverflow_geometry (step : Except (GeometryError α) β) : NoOverflow (Plate.geometry step) := by
  cases step with
  | ok b => trivial
  | error e => exact nofun

variable [Scalar α] {o : Options}

/-! ## Apertures and cutouts -/

namespace Aperture

theorem exists_sqrt?_two : ∃ root, Decimal.sqrt? 2 = some root ∧ 10 ^ root.scale ≤ root.mantissa :=
  ⟨⟨false, 14142135623730950488016887242, 28, by decide, by decide⟩, by decide +kernel, by decide⟩

theorem safe_relief {radius : Decimal} (h : radius.Within 1000) :
    Safe (fun sizes => sizes.shrink.Within 2000 ∧ sizes.reach.Within (2 ^ 95) ∧ sizes.reliefRadius.Within 4000)
      (relief (α := α) radius) := by
  -- dividing by the root of two does not enlarge anything, whatever its digits are
  obtain ⟨root, hroot, hone⟩ := exists_sqrt?_two
  unfold relief
  refine (safe_length (h.mul? (n := 2) (by decide) (by decide))).bind fun cornerRadius _ => ?_
  rw [hroot]
  refine (safe_length (h.div? hone (by decide))).bind fun quotient hquotient => ?_
  refine (safe_length (hquotient.add? h (by decide))).bind fun shrink hshrink => ?_
  refine (safe_length (Decimal.Within.mul? (m := 6) (by decide) h (by decide))).bind fun span hspan => ?_
  refine (safe_length (hspan.mul? hspan (by decide))).bind fun spanSquare hspanSquare => ?_
  refine (safe_length (Decimal.Within.mul? (m := 4) (by decide) h (by decide))).bind fun reliefRadius hrelief => ?_
  refine (safe_length (hrelief.add? hshrink (by decide))).bind fun height hheight => ?_
  refine (safe_length (hheight.mul? hheight (by decide))).bind fun heightSquare hheightSquare => ?_
  refine (safe_length (hspanSquare.sub? hheightSquare (by decide))).bind fun square hsquare => ?_
  split
  · rename_i reach hreach
    exact ⟨hshrink, (hsquare.mono (by decide)).sqrt? hreach, hrelief⟩
  · exact nofun

theorem noOverflow_dogbone {halfWidth halfHeight radius : Decimal} (hw : halfWidth.Within 500)
    (hh : halfHeight.Within 500) (hr : radius.Within 1000) :
    NoOverflow (dogbone (α := α) halfWidth halfHeight radius) := by
  unfold dogbone
  refine (safe_relief hr).bind fun sizes ⟨hshrink, hreach, hrelief⟩ => ?_
  refine (safe_length (hw.neg.add? hshrink (by decide))).bind fun left _ => ?_
  refine (safe_length (hw.sub? hshrink (by decide))).bind fun right _ => ?_
  refine (safe_length (hh.sub? hshrink (by decide))).bind fun upper _ => ?_
  refine (safe_length (hh.neg.add? hshrink (by decide))).bind fun lower _ => ?_
  refine (safe_length (hshrink.add? hreach (by decide))).bind fun inset hinset => ?_
  refine (safe_length (hw.add? hrelief (by decide))).bind fun outerX _ => ?_
  refine (safe_length (hh.add? hrelief (by decide))).bind fun outerY _ => ?_
  refine (safe_length (hw.neg.add? hinset (by decide))).bind fun innerLeft _ => ?_
  refine (safe_length (hw.sub? hinset (by decide))).bind fun innerRight _ => ?_
  refine (safe_length (hh.sub? hinset (by decide))).bind fun innerUpper _ => ?_
  refine (safe_length (hh.neg.add? hinset (by decide))).bind fun innerLower _ => ?_
  exact noOverflow_pure _

theorem noOverflow_upright (h : o.Within 1000) : NoOverflow (upright (α := α) o) := by
  unfold upright
  refine (safe_length (Decimal.Within.half? (n := 500) (h o.switchWidth (by simp [Options.decimals]))
    (by decide))).bind fun halfWidth hw => ?_
  refine (safe_length (Decimal.Within.half? (n := 500) (h o.switchHeight (by simp [Options.decimals]))
    (by decide))).bind fun halfHeight hh => ?_
  dsimp only
  split
  · exact noOverflow_pure _
  · split
    · exact noOverflow_dogbone hw hh (h o.switchFilletRadius (by simp [Options.decimals]))
    · exact noOverflow_geometry _

end Aperture

theorem noOverflow_aperture (h : o.Within 1000) (k : Key) : NoOverflow (k.aperture (α := α) o) :=
  (Aperture.noOverflow_upright h).bind fun _ _ => noOverflow_pure _

namespace CutoutProfile

theorem noOverflow_cutout (p : CutoutProfile) (k : Key) (radius : Decimal) :
    NoOverflow (p.cutout (α := α) k radius) := by
  have hhole : NoOverflow (p.hole (α := α) radius) := by
    unfold hole
    refine (safe_length p.width.fits_half?).bind fun half _ => ?_
    split
    · exact noOverflow_geometry _
    · exact noOverflow_pure _
  unfold cutout
  split
  · exact noOverflow_pure _
  · exact hhole.bind fun _ _ => noOverflow_pure _

end CutoutProfile

/-! ## Slots -/

namespace Slot

/-- No size of the slot is longer than `n`. -/
structure Within (n : Nat) (s : Slot) : Prop where
  halfWidth : s.halfWidth.Within n
  halfHeight : s.halfHeight.Within n
  housing : s.housing.Within n
  width : s.width.Within n
  halfConnector : s.halfConnector.Within n
  radius : s.radius.Within n

omit [Scalar α] in
theorem safe_ofOptions (h : o.Within 1000) : Safe (Slot.Within 1000) (ofOptions (α := α) o) := by
  have hhalf : ∀ d ∈ o.decimals, Safe (Decimal.Within 1000) (Plate.length (α := α) d.half?) := fun d hd =>
    safe_length (Decimal.Within.half? ((h d hd).mono (by decide)) (by decide))
  unfold ofOptions
  refine (hhalf o.switchWidth (by simp [Options.decimals])).bind fun halfWidth hw => ?_
  refine (hhalf o.switchHeight (by simp [Options.decimals])).bind fun halfHeight hh => ?_
  refine (hhalf o.connectorWidth (by simp [Options.decimals])).bind fun halfConnector hc => ?_
  exact ⟨hw, hh, h _ (by simp [Options.decimals]), h _ (by simp [Options.decimals]), hc,
    h _ (by simp [Options.decimals])⟩

variable {s : Slot} {signs : Decimal × Decimal}

theorem noOverflow_reflect {x y : Decimal} {n : Nat} (hx : x.Within n) (hy : y.Within n)
    (hn : n < mantissaLimit) (hsigns : signs.1.Within 1 ∧ signs.2.Within 1) :
    NoOverflow (reflect (α := α) x y signs) := by
  have hone : 1 * n < mantissaLimit := by rwa [Nat.one_mul]
  unfold reflect
  refine (safe_length (hsigns.1.mul? hx hone)).bind fun x _ => ?_
  refine (safe_length (hsigns.2.mul? hy hone)).bind fun y _ => ?_
  exact noOverflow_pure _

theorem noOverflow_corners (h : s.Within 1000) {connector : Decimal} (hc : connector.Within 2000)
    (hsigns : signs.1.Within 1 ∧ signs.2.Within 1) : NoOverflow (s.corners (α := α) connector signs) := by
  unfold corners
  refine (safe_length (h.halfWidth.add? h.housing (by decide))).bind fun x hx => ?_
  refine (safe_length (h.halfHeight.add? h.housing (by decide))).bind fun y hy => ?_
  refine (safe_length (hx.add? h.width (by decide))).bind fun outerX hx' => ?_
  refine (safe_length (hy.add? h.width (by decide))).bind fun outerY hy' => ?_
  have hx := hx.mono (n := 3000) (by decide)
  have hy := hy.mono (n := 3000) (by decide)
  have hc := hc.mono (n := 3000) (by decide)
  have hall : ∀ p ∈ [(x, y), (connector, y), (connector, outerY), (outerX, outerY), (outerX, connector),
      (x, connector)], p.1.Within 3000 ∧ p.2.Within 3000 := by
    simp only [List.forall_mem_cons]
    exact ⟨⟨hx, hy⟩, ⟨hc, hy⟩, ⟨hc, hy'⟩, ⟨hx', hy'⟩, ⟨hx', hc⟩, ⟨hx, hc⟩, nofun⟩
  have hpoints := Except.meets_mapM fun p hp =>
    noOverflow_reflect (α := α) (hall p hp).1 (hall p hp).2 (by decide) hsigns
  exact hpoints.mono fun _ _ => trivial

theorem noOverflow_drawFillets (sketch : Sketch α) (radius : Decimal) (names : List String)
    (pairs : List (Nat × Nat)) : NoOverflow (sketch.drawFillets radius names pairs) := by
  unfold Sketch.drawFillets
  split
  · refine Except.meets_foldlM trivial fun _ _ _ _ => ?_
    exact (noOverflow_geometry _).bind fun _ _ => noOverflow_pure _
  · exact noOverflow_pure _

theorem noOverflow_drawRounded (h : s.Within 1000) (sketch : Sketch α)
    (hsigns : signs.1.Within 1 ∧ signs.2.Within 1) : NoOverflow (s.drawRounded sketch signs) :=
  (noOverflow_corners h (h.halfConnector.mono (by decide)) hsigns).bind fun _ _ =>
    noOverflow_drawFillets ..

theorem noOverflow_drawHalfRound (h : s.Within 1000) (sketch : Sketch α) (corner : Nat)
    (hsigns : signs.1.Within 1 ∧ signs.2.Within 1) : NoOverflow (s.drawHalfRound sketch corner signs) := by
  unfold drawHalfRound
  refine (safe_length (h.halfConnector.add? h.radius (by decide))).bind fun bridge hbridge => ?_
  refine (noOverflow_corners h hbridge hsigns).bind fun points _ => ?_
  refine (safe_length (h.halfHeight.add? h.housing (by decide))).bind fun y hy => ?_
  refine (safe_length (hy.add? h.radius (by decide))).bind fun farY hfarY => ?_
  refine (noOverflow_reflect (hbridge.mono (by decide)) hfarY (by decide) hsigns).bind fun firstCenter _ => ?_
  refine (safe_length (h.halfWidth.add? h.housing (by decide))).bind fun x hx => ?_
  refine (safe_length (hx.add? h.radius (by decide))).bind fun farX hfarX => ?_
  refine (noOverflow_reflect hfarX (hbridge.mono (by decide)) (by decide) hsigns).bind fun secondCenter _ => ?_
  exact noOverflow_drawFillets ..

end Slot

theorem noOverflow_slots (h : o.Within 1000) : NoOverflow (o.slots (α := α)) := by
  have hsigns : ∀ q ∈ Slot.quadrants.zipIdx, q.1.1.Within 1 ∧ q.1.2.Within 1 := by decide
  refine (Slot.safe_ofOptions h).bind fun s hs => ?_
  have hround : NoOverflow (s.isHalfRound (α := α)) :=
    (safe_length s.width.fits_half?).bind fun half _ => noOverflow_pure _
  have hsketch : NoOverflow (Slot.quadrants.zipIdx.foldlM (fun sketch corner => do
      if ← s.isHalfRound then s.drawHalfRound sketch corner.2 corner.1 else s.drawRounded sketch corner.1)
      ({} : Slot.Sketch α)) := by
    refine Except.meets_foldlM trivial fun q hq sketch _ => hround.bind fun halfRound _ => ?_
    split
    · exact Slot.noOverflow_drawHalfRound hs sketch _ (hsigns q hq)
    · exact Slot.noOverflow_drawRounded hs sketch (hsigns q hq)
  exact hsketch.bind fun sketch _ => noOverflow_pure _

/-! ## Patterns -/

namespace Pattern

theorem noOverflow_around (base : Model α) {lineWidth expansion : Decimal} (hl : lineWidth.Within 1000)
    (he : expansion.Within 1000) : NoOverflow (around base lineWidth expansion) := by
  unfold around
  refine (safe_length lineWidth.fits_half?).bind fun half _ => ?_
  refine (noOverflow_geometry _).bind fun copper _ => ?_
  refine (safe_length (hl.add? he (by decide))).bind fun sum _ => ?_
  refine (safe_length sum.fits_half?).bind fun wide _ => ?_
  refine (noOverflow_geometry _).bind fun mask _ => ?_
  exact noOverflow_pure _

theorem noOverflow_ofSlotCorners (h : o.Within 1000) : NoOverflow (ofSlotCorners (α := α) o) := by
  have hheight := h o.switchHeight (by simp [Options.decimals])
  have hwidth := h o.switchWidth (by simp [Options.decimals])
  have hhousing := h o.switchHousingWidth (by simp [Options.decimals])
  have hline := h o.slotLineWidth (by simp [Options.decimals])
  have hexpansion := h o.slotSolderMaskExpansion (by simp [Options.decimals])
  have hradius := h o.slotPatternRadius (by simp [Options.decimals])
  unfold ofSlotCorners
  refine (safe_length (hline.add? hradius (by decide))).bind fun reach hreach => ?_
  have houter : ∀ side : Decimal, side.Within 1000 → NoOverflow (do
      let housing ← Plate.length ((← Plate.length side.half?).add? o.switchHousingWidth)
      Plate.length (housing.sub? reach) : Except (PlateError α) Decimal) := by
    intro side hside
    refine (safe_length (Decimal.Within.half? (n := 500) hside (by decide))).bind fun half hhalf => ?_
    refine (safe_length (hhalf.add? hhousing (by decide))).bind fun housing hh => ?_
    exact (safe_length (hh.sub? hreach (by decide))).mono fun _ _ => trivial
  refine (houter _ hwidth).bind fun x _ => ?_
  refine (houter _ hheight).bind fun y _ => ?_
  refine (safe_length (hradius.mul? (n := 2) (by decide) (by decide))).bind fun copperRadius hcopper => ?_
  refine (safe_length (Decimal.Within.half? (n := 500) hexpansion (by decide))).bind fun half hhalf => ?_
  refine (safe_length (hcopper.sub? hhalf (by decide))).bind fun maskRadius _ => ?_
  exact noOverflow_pure _

variable {b : Bounds} {n : Nat}

theorem noOverflow_inset (hb : b.Within n) {distance : Decimal} {m : Nat} (hd : distance.Within m)
    (hn : n + m < mantissaLimit) : NoOverflow (inset (α := α) b distance) := by
  unfold inset
  refine (safe_length (hb.minX.add? hd hn)).bind fun left _ => ?_
  refine (safe_length (hb.maxX.sub? hd hn)).bind fun right _ => ?_
  refine (safe_length (hb.maxY.sub? hd hn)).bind fun upper _ => ?_
  refine (safe_length (hb.minY.add? hd hn)).bind fun lower _ => ?_
  exact noOverflow_pure _

theorem noOverflow_drawCorners (hb : b.Within n) {plateRadius : Decimal} {m : Nat}
    (hp : plateRadius.Within m) (hn : n + m < mantissaLimit) (radius : Decimal) (base : Model α) :
    NoOverflow (drawCorners b plateRadius radius base) := by
  unfold drawCorners
  split
  · exact noOverflow_pure _
  · refine (safe_length (hb.minX.add? hp hn)).bind fun left _ => ?_
    refine (safe_length (hb.maxX.sub? hp hn)).bind fun right _ => ?_
    refine (safe_length (hb.maxY.neg.add? hp hn)).bind fun upper _ => ?_
    refine (safe_length (hb.minY.neg.sub? hp hn)).bind fun lower _ => ?_
    exact noOverflow_pure _

theorem noOverflow_ofPlate (h : o.Within 1000) (hb : b.Within (mantissaLimit - 1001)) :
    NoOverflow (ofPlate (α := α) b o) := by
  have hplate := h o.plateRadius (by simp [Options.decimals])
  have hline := h o.plateLineWidth (by simp [Options.decimals])
  have hexpansion := h o.plateSolderMaskExpansion (by simp [Options.decimals])
  have hpattern := h o.platePatternRadius (by simp [Options.decimals])
  unfold ofPlate
  refine (safe_length (Decimal.Within.half? (n := 500) hexpansion (by decide))).bind fun halfExpansion hhalf => ?_
  refine (safe_length (Decimal.Within.half? (n := 500) hline (by decide))).bind fun halfLine hhalfLine => ?_
  refine (noOverflow_inset hb hhalfLine (by decide)).bind fun copper _ => ?_
  refine (safe_length (hline.add? hexpansion (by decide))).bind fun sum hsum => ?_
  refine (safe_length (Decimal.Within.half? (n := 1000) hsum (by decide))).bind fun wide hwide => ?_
  refine (noOverflow_inset hb hwide (by decide)).bind fun mask _ => ?_
  split
  · refine (safe_length (hpattern.mul? (n := 2) (by decide) (by decide))).bind fun radius hradius => ?_
    refine (noOverflow_geometry _).bind fun copper _ => ?_
    refine (safe_length (hradius.sub? hhalf (by decide))).bind fun maskRadius _ => ?_
    have hcorners : ∀ mask : Model α, NoOverflow (do
        let arcRadius ← Plate.length (o.plateRadius.sub? halfLine)
        let copper ← drawCorners b o.plateRadius arcRadius copper
        let mask ← drawCorners b o.plateRadius (← Plate.length (arcRadius.sub? halfExpansion)) mask
        return mirrored copper mask) := by
      intro mask
      refine (safe_length (hplate.sub? hhalfLine (by decide))).bind fun arcRadius harc => ?_
      refine (noOverflow_drawCorners hb hplate (by decide) arcRadius copper).bind fun copper _ => ?_
      refine (safe_length (harc.sub? hhalf (by decide))).bind fun maskArc _ => ?_
      refine (noOverflow_drawCorners hb hplate (by decide) maskArc mask).bind fun mask _ => ?_
      exact noOverflow_pure _
    split
    · exact (noOverflow_geometry _).bind fun mask _ => hcorners mask
    · exact hcorners mask
  · exact noOverflow_pure _

end Pattern

/-! ## Plates -/

namespace Plate

variable {keys : List Key} {id : Nat}

omit [Scalar α] in
theorem safe_inRange (id : Nat) (x : Option Decimal) : NoOverflow (match x with
    | some d => .ok d
    | none => .error (.keyOutOfRange id) : Except (PlateError α) Decimal) := by
  cases x with
  | some d => trivial
  | none => exact nofun

theorem noOverflow_pose (o : Options) (id : Nat) (k : Key) : NoOverflow (pose (α := α) o id k) := by
  unfold pose
  refine (safe_inRange id _).bind fun x _ => ?_
  refine (safe_inRange id _).bind fun y _ => ?_
  refine (safe_inRange id _).bind fun switchAngle _ => ?_
  refine (safe_inRange id _).bind fun cutoutAngle _ => ?_
  exact noOverflow_pure _

theorem noOverflow_withPattern (wanted : Bool) (m : Model α) {lineWidth expansion : Decimal}
    (hl : lineWidth.Within 1000) (he : expansion.Within 1000) (word patternWord suffix : String) :
    NoOverflow (withPattern wanted m lineWidth expansion word patternWord suffix) := by
  have hpattern : NoOverflow (patternIf wanted m lineWidth expansion patternWord suffix) := by
    unfold patternIf
    split
    · exact (Pattern.noOverflow_around m hl he).bind fun _ _ => noOverflow_pure _
    · exact noOverflow_pure _
  exact hpattern.bind fun _ _ => noOverflow_pure _

theorem noOverflow_cutoutBlock {cutout : Except (PlateError α) (Option (Model α))} (hc : NoOverflow cutout)
    (wanted : Bool) {lineWidth expansion : Decimal} (hl : lineWidth.Within 1000)
    (he : expansion.Within 1000) (word suffix : String) (p : Pose α) :
    NoOverflow (cutoutBlock cutout wanted lineWidth expansion word suffix p) := by
  refine hc.bind fun cutout _ => ?_
  cases cutout with
  | none => exact noOverflow_pure _
  | some cutout => exact noOverflow_withPattern _ _ hl he _ _ _

theorem noOverflow_slotBlock (h : o.Within 1000) (suffix : String) (p : Pose α) :
    NoOverflow (slotBlock o suffix p) := by
  unfold slotBlock
  split
  · refine (noOverflow_slots h).bind fun m _ => ?_
    refine (noOverflow_withPattern _ _ (h _ (by simp [Options.decimals])) (h _ (by simp [Options.decimals]))
      _ _ _).bind fun block _ => ?_
    have hcorners : NoOverflow (cornerBlock o suffix p) := by
      unfold cornerBlock
      split
      · exact (Pattern.noOverflow_ofSlotCorners h).bind fun _ _ => noOverflow_pure _
      · exact noOverflow_pure _
    exact hcorners.bind fun _ _ => noOverflow_pure _
  · exact noOverflow_pure _

theorem noOverflow_keyBlock (h : o.Within 1000) (id : Nat) (k : Key) : NoOverflow (keyBlock (α := α) o id k) := by
  have hstabilizer : NoOverflow (k.stabilizer (α := α) o) := by
    unfold Key.stabilizer
    split
    · exact noOverflow_pure _
    · exact CutoutProfile.noOverflow_cutout ..
  have hacoustic : NoOverflow (k.acoustic (α := α) o) := by
    unfold Key.acoustic
    split
    · exact noOverflow_pure _
    · exact CutoutProfile.noOverflow_cutout ..
  unfold keyBlock
  refine (noOverflow_pose o id k).bind fun p _ => ?_
  refine Except.Meets.bind (P := fun _ => True) ?_ fun switch _ => ?_
  · unfold switchBlock
    exact (noOverflow_aperture h k).bind fun m _ =>
      noOverflow_withPattern _ _ (h o.switchLineWidth (by simp [Options.decimals]))
        (h o.switchSolderMaskExpansion (by simp [Options.decimals])) _ _ _
  refine Except.Meets.bind (P := fun _ => True) ?_ fun stabilizer _ => ?_
  · exact noOverflow_cutoutBlock hstabilizer _ (h o.stabilizerLineWidth (by simp [Options.decimals]))
      (h o.stabilizerSolderMaskExpansion (by simp [Options.decimals])) _ _ _
  refine Except.Meets.bind (P := fun _ => True) ?_ fun acoustic _ => ?_
  · exact noOverflow_cutoutBlock hacoustic _ (h o.acousticLineWidth (by simp [Options.decimals]))
      (h o.acousticSolderMaskExpansion (by simp [Options.decimals])) _ _ _
  exact (noOverflow_slotBlock h _ p).bind fun _ _ => noOverflow_pure _

theorem noOverflow_place (h : o.Within 1000) (id : Nat) (k : Key) : NoOverflow (place (α := α) o id k) := by
  unfold place
  split
  · exact nofun
  · exact (noOverflow_keyBlock h id k).bind fun _ _ => noOverflow_pure _

theorem noOverflow_keyBlocks (h : o.Within 1000) (id : Nat) (keys : List Key) :
    NoOverflow (keyBlocks (α := α) o id keys) := by
  induction keys generalizing id with
  | nil => trivial
  | cons k keys ih =>
    rw [keyBlocks_cons]
    refine (noOverflow_place h id k).bind fun block _ => ?_
    exact (ih (id + 1)).bind fun _ _ => noOverflow_pure _

theorem noOverflow_ownBlock (h : o.Within 1000) (b : Bounds)
    (hb : o.platePattern = true → b.Within (mantissaLimit - 1001)) : NoOverflow (ownBlock (α := α) b o) := by
  have hedge : NoOverflow (edge (α := α) b o) := by
    unfold edge
    dsimp only
    split
    · exact (noOverflow_geometry _).bind fun _ _ => noOverflow_pure _
    · exact noOverflow_pure _
  unfold ownBlock
  refine hedge.bind fun outline _ => ?_
  split
  · rename_i hpattern
    exact (Pattern.noOverflow_ofPlate h (hb hpattern)).bind fun _ _ => noOverflow_pure _
  · exact noOverflow_pure _

theorem ofKeys?_of_keyBlocks {blocks : List (Bounds × Named (Model α))} (h : keyBlocks o id keys = .ok blocks) :
    Bounds.ofKeys? keys o = Bounds.union? (blocks.map (·.1)) := by
  rw [Bounds.ofKeys?, mapM_ofKey?_of_keyBlocks h, Option.bind_some]

/-- Where building a plate overflows: there is a pattern along the edge, and the bounds of all keys, whose
width and height fit, reach to the end of the decimal range. -/
structure OverflowsAtEdge (keys : List Key) (o : Options) : Prop where
  platePattern : o.platePattern = true
  bounds : ∃ b, Bounds.ofKeys? keys o = some b ∧ b.width?.isSome ∧ b.height?.isSome ∧
    ¬ b.Within (mantissaLimit - 1001)

theorem overflowsAtEdge_of_build (h : o.Within 1000)
    (hbuild : (build keys o : Except (PlateError α) (Plate α)) = .error .overflow) : OverflowsAtEdge keys o := by
  -- no key overflows, and what is drawn at the edge comes after the check of width and height
  rcases Except.bind_eq_error_iff.mp hbuild with hblocks | ⟨blocks, hblocks, hrest⟩
  · exact absurd hblocks (noOverflow_keyBlocks h 0 keys).ne
  · split at hrest
    · cases hrest
    · rename_i b hb
      split at hrest
      · cases hrest
      · rename_i hextent
        rcases Except.bind_eq_error_iff.mp hrest with hown | ⟨own, -, hplate⟩
        · have hfail : ¬ (o.platePattern = true → b.Within (mantissaLimit - 1001)) := fun hw =>
            (noOverflow_ownBlock h b hw).ne hown
          obtain ⟨hpattern, hfar⟩ := Classical.not_imp.mp hfail
          refine ⟨hpattern, b, by rw [ofKeys?_of_keyBlocks hblocks, hb], ?_, ?_, hfar⟩
          · cases hw : b.width? with
            | none => simp [hw] at hextent
            | some w => rfl
          · cases hh : b.height? with
            | none => simp [hh] at hextent
            | some w => rfl
        · cases hplate

/-- Halving a number and turning degrees into radians never leave the range. With options of at most a
thousand, building a plate leaves it only for a pattern along the edge of a plate that reaches to the end
of the range. -/
theorem build_overflow (keys : List Key) (o : Options) :
    (∀ d : Decimal, d.half?.isSome) ∧
    (∀ degrees : Decimal, (do (← degrees.div? 180).mul? pi : Option Decimal).isSome) ∧
    (o.Within 1000 → (build keys o : Except (PlateError α) (Plate α)) = .error .overflow →
      OverflowsAtEdge keys o) := by
  refine ⟨fun d => ?_, fun degrees => ?_, overflowsAtEdge_of_build⟩
  · obtain ⟨half, hhalf, -⟩ := d.fits_half?
    rw [hhalf]
    rfl
  · obtain ⟨n, radians, hradians, -⟩ := fits_radians degrees
    rw [hradians]
    rfl

/-- One key, half a wide line away from the end of the decimal range. -/
def edgeLayout : Json :=
  .array [.array [.object [("x", .string "79228162514264337593543950000")], .string "A"]]

def edgeKey : Key :=
  { x := 79228162514264337593543950000, y := 0, centerX := 79228162514264337593543950000, centerY := 0.5,
    center_eq := by decide +kernel }

def edgeOptions : Options := {
  plateRadius := 0, platePattern := true, plateLineWidth := 1000, unitWidth := 1, unitHeight := 1 }

theorem resolveValue_edgeLayout : Layout.resolveValue edgeLayout = .ok [edgeKey] := by
  have h : (Layout.resolveValue edgeLayout).toOption = some [edgeKey] := by decide +kernel
  cases hkeys : Layout.resolveValue edgeLayout with
  | error e => simp [hkeys, Except.toOption] at h
  | ok keys =>
    simp only [hkeys, Except.toOption, Option.some.injEq] at h
    rw [h]

theorem build_edgeKey : (build [edgeKey] edgeOptions : Except (PlateError Float) (Plate Float)) = .error .overflow := by
  rw [← overflows_iff]
  decide +kernel

theorem edgeKey_overflowsAtEdge :
    edgeOptions.Within 1000 ∧
    (build [edgeKey] edgeOptions : Except (PlateError Float) (Plate Float)) = .error .overflow ∧
    OverflowsAtEdge [edgeKey] edgeOptions :=
  ⟨by decide, build_edgeKey, (build_overflow (α := Float) [edgeKey] edgeOptions).2.2 (by decide) build_edgeKey⟩

/-- Moderate options alone do not keep every layout within the range. -/
theorem not_forall_layout_noOverflow :
    ¬ ∀ (value : Json) (keys : List Key) (o : Options), o.Within 1000 → Layout.resolveValue value = .ok keys →
      (build keys o : Except (PlateError Float) (Plate Float)) ≠ .error .overflow := by
  intro h
  have hw : edgeOptions.Within 1000 := by decide
  have hedge := h edgeLayout [edgeKey] edgeOptions hw resolveValue_edgeLayout
  exact hedge build_edgeKey

end Plate

end KeyboardPlate
