import KeyboardPlate.Key
import KeyboardPlate.Options.Basic
import KeyboardPlate.Plate.Error
import KeyboardPlate.Plate.Rectangle

/-!
# Switch apertures

The opening for a switch is a rectangle about the origin. Its corners are sharp, rounded, or cut out
beyond the rectangle so that a round tool clears them: a large arc around each corner, led into both
sides by a relief arc of twice its radius.
-/

set_option autoImplicit false

namespace KeyboardPlate.Aperture
variable {α : Type} [Scalar α]

/-- A point whose coordinates have left decimal arithmetic. -/
def point (x y : Decimal) : Point α := ⟨Scalar.ofDecimal x, Scalar.ofDecimal y⟩

/-- The sizes of corners that are cut out. -/
structure Relief where
  /-- From each side to the center of the arc around a corner. -/
  shrink : Decimal
  /-- From that center on to the center of a relief arc, along the side. -/
  reach : Decimal
  cornerRadius : Decimal
  reliefRadius : Decimal
  /-- Between the two centers. -/
  span : Decimal

/-- The sizes that belong to a tool radius. The centers of a corner arc and its relief arc are six radii
apart, and the relief arc touches the side from outside. -/
def relief (radius : Decimal) : Except (PlateError α) Relief := do
  let misfit : PlateError α := .geometry (.filletDoesNotFit (Scalar.ofDecimal radius))
  let cornerRadius ← Plate.length (radius.mul? 2)
  let root ← match Decimal.sqrt? 2 with
    | some root => pure root
    | none => throw misfit
  let shrink ← Plate.length ((← Plate.length (radius.div? root)).add? radius)
  let span ← Plate.length (Decimal.mul? 6 radius)
  let spanSquare ← Plate.length (span.pow? 2)
  let reliefRadius ← Plate.length (Decimal.mul? 4 radius)
  let height ← Plate.length (reliefRadius.add? shrink)
  let square ← Plate.length (spanSquare.sub? (← Plate.length (height.pow? 2)))
  match square.sqrt? with
  | some reach => return { shrink, reach, cornerRadius, reliefRadius, span }
  | none => throw misfit

/-- The numbered arcs of one radius, given by centers and angles. -/
def arcs (name : String) (radius : Decimal) (parts : List (Point α × α × α)) : List (String × Path α) :=
  parts.zipIdx.map fun ((center, start, stop), i) =>
    (name ++ toString i, .arc ⟨center, Scalar.ofDecimal radius, start, stop⟩)

/-- The rectangle with its corners cut out. -/
def dogbone (halfWidth halfHeight radius : Decimal) : Except (PlateError α) (Model α) := do
  let sizes ← relief radius
  let theta : α := Scalar.toDegrees (Scalar.asin (Scalar.ofDecimal sizes.reach / Scalar.ofDecimal sizes.span))
  let less (a b : Decimal) : Except (PlateError α) Decimal := Plate.length (a.sub? b)
  let more (a b : Decimal) : Except (PlateError α) Decimal := Plate.length (a.add? b)
  let left ← more (-halfWidth) sizes.shrink
  let right ← less halfWidth sizes.shrink
  let upper ← less halfHeight sizes.shrink
  let lower ← more (-halfHeight) sizes.shrink
  let inset ← more sizes.shrink sizes.reach
  let outerX ← more halfWidth sizes.reliefRadius
  let outerY ← more halfHeight sizes.reliefRadius
  let innerLeft ← more (-halfWidth) inset
  let innerRight ← less halfWidth inset
  let innerUpper ← less halfHeight inset
  let innerLower ← more (-halfHeight) inset
  let corner := arcs "bigCornerArc" sizes.cornerRadius [
    (point left upper, 90.0 - theta, 180.0 + theta),
    (point right upper, 360.0 - theta, 90.0 + theta),
    (point left lower, 180.0 - theta, 270.0 + theta),
    (point right lower, 270.0 - theta, 360.0 + theta)]
  let extra := arcs "extraArc" sizes.reliefRadius [
    (point innerLeft outerY, 270.0 - theta, 270.0),
    (point innerRight outerY, 270.0, 270.0 + theta),
    (point innerLeft (-outerY), 90.0, 90.0 + theta),
    (point innerRight (-outerY), 90.0 - theta, 90.0),
    (point (-outerX) innerUpper, 0.0, theta),
    (point (-outerX) innerLower, 360.0 - theta, 0.0),
    (point outerX innerUpper, 180.0 - theta, 180.0),
    (point outerX innerLower, 180.0, 180.0 + theta)]
  let sides : List (String × Path α) := [
    ("lineTop", .between (point innerLeft halfHeight) (point innerRight halfHeight)),
    ("lineBottom", .between (point innerLeft (-halfHeight)) (point innerRight (-halfHeight))),
    ("lineLeft", .between (point (-halfWidth) innerUpper) (point (-halfWidth) innerLower)),
    ("lineRight", .between (point halfWidth innerUpper) (point halfWidth innerLower))]
  return { paths := corner ++ extra ++ sides }

/-- The aperture of an upright key. -/
def upright (o : Options) : Except (PlateError α) (Model α) := do
  let halfWidth ← Plate.length o.switchWidth.half?
  let halfHeight ← Plate.length o.switchHeight.half?
  let sharp : Model α := .rectangle (Scalar.ofDecimal (-halfWidth)) (Scalar.ofDecimal halfWidth)
    (Scalar.ofDecimal halfHeight) (Scalar.ofDecimal (-halfHeight))
  let radius := o.switchFilletRadius
  if radius ≤ 0 then return sharp
  else if o.switchDogbone then dogbone halfWidth halfHeight radius
  else Plate.geometry (sharp.filletCorners (Scalar.ofDecimal radius))

end KeyboardPlate.Aperture

namespace KeyboardPlate

/-- The aperture for the switch of a key, about the origin. -/
def Key.aperture {α : Type} [Scalar α] (k : Key) (o : Options) : Except (PlateError α) (Model α) := do
  let m ← Aperture.upright o
  return if k.isVertical then m.rotate (-90.0) .zero else m

end KeyboardPlate
