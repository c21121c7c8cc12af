import KeyboardPlate.Options.Basic
import KeyboardPlate.Plate.Error
import KeyboardPlate.Model.Basic

/-!
# Slots around a switch

Four slots run around the corners of a switch and leave connectors between them in the middle of its
sides. Each is an angle of six sides whose joints are all rounded. If the radius is half the width of
the slot, its two ends are half circles instead.
-/

set_option autoImplicit false

namespace KeyboardPlate

/-- The sizes of a slot. -/
structure Slot where
  halfWidth : Decimal
  halfHeight : Decimal
  housing : Decimal
  width : Decimal
  halfConnector : Decimal
  radius : Decimal

namespace Slot
variable {α : Type} [Scalar α]

/-- The corners of a switch, by the signs of their coordinates. -/
def quadrants : List (Decimal × Decimal) := [(1, 1), (-1, 1), (-1, -1), (1, -1)]

def ofOptions (o : Options) : Except (PlateError α) Slot := do
  return {
    halfWidth := ← Plate.length o.switchWidth.half?
    halfHeight := ← Plate.length o.switchHeight.half?
    housing := o.switchHousingWidth
    width := o.slotWidth
    halfConnector := ← Plate.length o.connectorWidth.half?
    radius := o.acousticFilletRadius }

/-- Whether the ends of the slot are half circles. -/
def isHalfRound (s : Slot) : Except (PlateError α) Bool := do
  return decide (s.radius.Same (← Plate.length s.width.half?))

/-- From the middle of the switch to the near side of a slot. -/
def innerX (s : Slot) : Except (PlateError α) Decimal := Plate.length (s.halfWidth.add? s.housing)
def innerY (s : Slot) : Except (PlateError α) Decimal := Plate.length (s.halfHeight.add? s.housing)

/-- A point of the first quadrant, reflected into another one. -/
def reflect (x y : Decimal) (signs : Decimal × Decimal) : Except (PlateError α) (Point α) := do
  return ⟨Scalar.ofDecimal (← Plate.length (signs.1.mul? x)), Scalar.ofDecimal (← Plate.length (signs.2.mul? y))⟩

/-- The corners of a slot whose ends are at a distance of `connector` from the middle of the switch: the
near corner first, then along its first leg and round. -/
def corners (s : Slot) (connector : Decimal) (signs : Decimal × Decimal) :
    Except (PlateError α) (List (Point α)) := do
  let x ← s.innerX
  let y ← s.innerY
  let outerX ← Plate.length (x.add? s.width)
  let outerY ← Plate.length (y.add? s.width)
  [(x, y), (connector, y), (connector, outerY), (outerX, outerY), (outerX, connector), (x, connector)].mapM
    fun (x, y) => reflect x y signs

def lineName (i : Nat) : String := "line" ++ toString i
def filletName (i : Nat) : String := "fillet" ++ toString i

/-- A drawing under way, with the numbers of its next line and its next fillet. -/
structure Sketch (α : Type) where
  drawn : Model α := {}
  lines : Nat := 1
  fillets : Nat := 1

namespace Sketch

/-- Draws a line under the next number. -/
def addLine (sketch : Sketch α) (p q : Point α) : Sketch α :=
  { sketch with drawn := sketch.drawn.addPath (lineName sketch.lines) (.between p q), lines := sketch.lines + 1 }

/-- Draws lines one after the other, and tells their names. -/
def drawLines : List (Point α × Point α) → Sketch α → Sketch α × List String
  | [], sketch => (sketch, [])
  | (p, q) :: rest, sketch =>
    let (drawn, names) := drawLines rest (sketch.addLine p q)
    (drawn, lineName sketch.lines :: names)

/-- Draws a fillet between two lines under the next number. -/
def addFillet (sketch : Sketch α) (radius : Decimal) (first second : String) :
    Except (PlateError α) (Sketch α) := do
  let drawn ← Plate.geometry
    (sketch.drawn.addFillet (filletName sketch.fillets) first second (Scalar.ofDecimal radius))
  return { sketch with drawn := drawn, fillets := sketch.fillets + 1 }

/-- Draws fillets between pairs of the named lines, given by their places. -/
def drawFillets (radius : Decimal) (names : List String) (pairs : List (Nat × Nat)) (sketch : Sketch α) :
    Except (PlateError α) (Sketch α) :=
  if 0 < radius then pairs.foldlM (fun sketch (a, b) => sketch.addFillet radius names[a]! names[b]!) sketch
  else .ok sketch

end Sketch

/-- Draws a slot whose joints are all rounded. -/
def drawRounded (s : Slot) (sketch : Sketch α) (signs : Decimal × Decimal) : Except (PlateError α) (Sketch α) := do
  let points ← s.corners s.halfConnector signs
  let (sketch, names) := sketch.drawLines (points.zip (points.tail ++ points.take 1))
  sketch.drawFillets s.radius names ((List.range 6).map fun i => ((i + 5) % 6, i))

/-- Draws a slot that ends in half circles. -/
def drawHalfRound (s : Slot) (sketch : Sketch α) (corner : Nat) (signs : Decimal × Decimal) :
    Except (PlateError α) (Sketch α) := do
  let bridge ← Plate.length (s.halfConnector.add? s.radius)
  let points ← s.corners bridge signs
  let (sketch, names) := sketch.drawLines ([(0, 1), (2, 3), (3, 4), (5, 0)].filterMap fun ((i, j) : Nat × Nat) => do
    return (← points[i]?, ← points[j]?))
  let radius : α := Scalar.ofDecimal s.radius
  let firstCenter ← reflect bridge (← Plate.length ((← s.innerY).add? s.radius)) signs
  let firstArc : Arc α := if signs.1.negative then ⟨firstCenter, radius, 270.0, 90.0⟩ else ⟨firstCenter, radius, 90.0, 270.0⟩
  let secondCenter ← reflect (← Plate.length ((← s.innerX).add? s.radius)) bridge signs
  let secondArc : Arc α := if signs.2.negative then ⟨secondCenter, radius, 0.0, 180.0⟩ else ⟨secondCenter, radius, 180.0, 0.0⟩
  let drawn := sketch.drawn.addPath ("semicircle1_" ++ toString corner) (.arc firstArc)
  let drawn := drawn.addPath ("semicircle2_" ++ toString corner) (.arc secondArc)
  { sketch with drawn := drawn }.drawFillets s.radius names [(1, 2), (3, 0)]

end Slot

/-- The slots around a switch, about the origin. -/
def Options.slots {α : Type} [Scalar α] (o : Options) : Except (PlateError α) (Model α) := do
  let s ← Slot.ofOptions o
  let sketch : Slot.Sketch α ← Slot.quadrants.zipIdx.foldlM (fun sketch (signs, corner) => do
    if ← s.isHalfRound then s.drawHalfRound sketch corner signs else s.drawRounded sketch signs) {}
  return sketch.drawn

end KeyboardPlate
