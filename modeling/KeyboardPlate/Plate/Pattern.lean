import KeyboardPlate.Contour.Outline
import KeyboardPlate.Plate.Bounds
import KeyboardPlate.Plate.Error
import KeyboardPlate.Plate.Rectangle

/-!
# Copper and solder mask patterns

Both sides of a plate carry the same copper, and the same opening of the solder mask. Around a cutout
these are outlines of it; along the edge of the plate they are rectangles within its bounds, with arcs
that follow its rounded corners; at the slots they are arcs at the corners of the switch housing.
-/

set_option autoImplicit false

namespace KeyboardPlate

/-- One drawing for each layer of a circuit board. -/
structure Pattern (α : Type) where
  top : Model α
  bottom : Model α
  topSolderMask : Model α
  bottomSolderMask : Model α

namespace Pattern
variable {α : Type}

/-- The same copper on both sides, and the same opening of the mask. -/
def mirrored (copper mask : Model α) : Pattern α where
  top := copper.withLayer .top
  bottom := copper.withLayer .bottom
  topSolderMask := mask.withLayer .topSolderMask
  bottomSolderMask := mask.withLayer .bottomSolderMask

/-- The drawings of a pattern and the words for their layers. -/
def layers (p : Pattern α) : List (String × Model α) := [
  ("Top", p.top), ("Bottom", p.bottom), ("TopSolder", p.topSolderMask), ("BottomSolder", p.bottomSolderMask)]

/-- The same change made to all drawings. -/
def map (f : Model α → Model α) (p : Pattern α) : Pattern α :=
  ⟨f p.top, f p.bottom, f p.topSolderMask, f p.bottomSolderMask⟩

/-- The layers that are not empty, under names made of the layer between two texts. -/
def entries (p : Pattern α) (before after : String) : List (String × Model α) :=
  (p.layers.filter fun entry => !entry.2.isEmpty).map fun (layer, m) => (before ++ layer ++ after, m)

variable [Scalar α]

/-- The pattern with all drawings turned about the origin and moved. -/
def place (p : Pattern α) (degrees : α) (origin : Point α) : Pattern α :=
  p.map fun m => (m.rotate degrees .zero).moveTo origin

/-- The outlines around a drawing: copper at half the width of a line, the mask wider by half the
expansion. -/
def around (base : Model α) (lineWidth expansion : Decimal) : Except (PlateError α) (Pattern α) := do
  let half ← Plate.length lineWidth.half?
  let copper ← Plate.geometry (base.outline (Scalar.ofDecimal half) false)
  let wide ← Plate.length (← Plate.length (lineWidth.add? expansion)).half?
  let mask ← Plate.geometry (base.outline (Scalar.ofDecimal wide) false)
  return mirrored copper mask

/-- The rectangle within bounds, upside down as drawings are. -/
def inset (b : Bounds) (distance : Decimal) : Except (PlateError α) (Model α) := do
  let left ← Plate.length (b.minX.add? distance)
  let right ← Plate.length (b.maxX.sub? distance)
  let upper ← Plate.length (b.maxY.sub? distance)
  let lower ← Plate.length (b.minY.add? distance)
  return .rectangle (Scalar.ofDecimal left) (Scalar.ofDecimal right)
    (Scalar.ofDecimal (-upper)) (Scalar.ofDecimal (-lower))

/-- Numbered arcs of one radius. -/
def drawArcs (name : String) (radius : Decimal) (parts : List (Point α × α × α)) (m : Model α) : Model α :=
  parts.zipIdx.foldl (fun m ((center, start, stop), i) =>
    m.addPath (name ++ toString i) (.arc ⟨center, Scalar.ofDecimal radius, start, stop⟩)) m

/-- Draws arcs around the centers of the plate's rounded corners, unless their radius has vanished. -/
def drawCorners (b : Bounds) (plateRadius radius : Decimal) (m : Model α) : Except (PlateError α) (Model α) := do
  if radius ≤ 0 then return m
  else
    let left : α := Scalar.ofDecimal (← Plate.length (b.minX.add? plateRadius))
    let right : α := Scalar.ofDecimal (← Plate.length (b.maxX.sub? plateRadius))
    let upper : α := Scalar.ofDecimal (← Plate.length ((-b.maxY).add? plateRadius))
    let lower : α := Scalar.ofDecimal (← Plate.length ((-b.minY).sub? plateRadius))
    return drawArcs "beautyArc" radius [
      (⟨left, upper⟩, 180.0, 270.0),
      (⟨right, upper⟩, 270.0, 360.0),
      (⟨left, lower⟩, 90.0, 180.0),
      (⟨right, lower⟩, 0.0, 90.0)] m

/-- The pattern along the edge of a plate. -/
def ofPlate (b : Bounds) (o : Options) : Except (PlateError α) (Pattern α) := do
  let halfExpansion ← Plate.length o.plateSolderMaskExpansion.half?
  let halfLine ← Plate.length o.plateLineWidth.half?
  let copper ← inset b halfLine
  let mask ← inset b (← Plate.length (← Plate.length (o.plateLineWidth.add? o.plateSolderMaskExpansion)).half?)
  if 0 < o.platePatternRadius then
    let radius ← Plate.length (o.platePatternRadius.mul? 2)
    let copper ← Plate.geometry (copper.filletCorners (Scalar.ofDecimal radius))
    let maskRadius ← Plate.length (radius.sub? halfExpansion)
    let mask ← if 0 < maskRadius then Plate.geometry (mask.filletCorners (Scalar.ofDecimal maskRadius)) else pure mask
    let arcRadius ← Plate.length (o.plateRadius.sub? halfLine)
    let copper ← drawCorners b o.plateRadius arcRadius copper
    let mask ← drawCorners b o.plateRadius (← Plate.length (arcRadius.sub? halfExpansion)) mask
    return mirrored copper mask
  else return mirrored copper mask

/-- The arcs of one radius at the corners of a housing, unless the radius has vanished. -/
def housingCorners (x y radius : Decimal) : Model α :=
  if radius ≤ 0 then {}
  else
    let point (x y : Decimal) : Point α := ⟨Scalar.ofDecimal x, Scalar.ofDecimal y⟩
    drawArcs "cornerArc" radius [
      (point x (-y), 270.0, 360.0),
      (point (-x) (-y), 180.0, 270.0),
      (point (-x) y, 90.0, 180.0),
      (point x y, 0.0, 90.0)] {}

/-- The pattern at the corners of a switch housing. -/
def ofSlotCorners (o : Options) : Except (PlateError α) (Pattern α) := do
  let reach ← Plate.length (o.slotLineWidth.add? o.slotPatternRadius)
  let outer (side : Decimal) : Except (PlateError α) Decimal := do
    let housing ← Plate.length ((← Plate.length side.half?).add? o.switchHousingWidth)
    Plate.length (housing.sub? reach)
  let x ← outer o.switchWidth
  let y ← outer o.switchHeight
  let copperRadius ← Plate.length (o.slotPatternRadius.mul? 2)
  let maskRadius ← Plate.length (copperRadius.sub? (← Plate.length o.slotSolderMaskExpansion.half?))
  return mirrored (housingCorners x y copperRadius) (housingCorners x y maskRadius)

end Pattern

end KeyboardPlate
