import KeyboardPlate.Geometry.Point

/-!
# Sides of a contour

A side runs from one point to the next, straight or along a circle. Its bulge is the tangent of a
quarter of its sweep: positive if it runs counter-clockwise, zero if it is straight. The circle of a
bent side is found from its chord and its bulge.
-/

set_option autoImplicit false

namespace KeyboardPlate

namespace Scalar
variable {α : Type} [Scalar α]

/-- Half a turn in radians. -/
def pi : α := acos (-1.0)

/-- The shorter turn from one bearing to another, in radians. -/
def turn (a b : α) : α :=
  let d := b - a
  let d := if d < 0.0 then d + (pi + pi) else d
  if pi < d then d - (pi + pi) else d

/-- The size of the shorter turn between two bearings, with the given sign. -/
def turnAs (clockwise : Bool) (a b : α) : α :=
  if clockwise then -Quantity.abs (turn a b) else Quantity.abs (turn a b)

/-- The bulge of a sweep in radians. -/
def bulge (sweep : α) : α := tan (sweep / 4.0)

end Scalar

namespace Contour
variable {α : Type} [Quantity α]

/-- Bulges, products and parameters that differ by less are equal. -/
def fuzz : α := 1e-8

/-- Points of a contour nearer than this are one. -/
def pointTolerance : α := 1e-5

/-- Whether two points of a contour are one. -/
def same (a b : Point α) : Bool := a.isNear pointTolerance b

end Contour

structure Circle (α : Type) where
  center : Point α
  radius : α

/-- The point of a circle at a bearing in radians. -/
def Circle.point {α : Type} [Scalar α] (c : Circle α) (bearing : α) : Point α :=
  ⟨c.center.x + c.radius * Scalar.cos bearing, c.center.y + c.radius * Scalar.sin bearing⟩

structure Side (α : Type) where
  start : Point α
  stop : Point α
  bulge : α
deriving Repr

namespace Side
variable {α : Type}

section Quantity
variable [Quantity α]

def isStraight (s : Side α) : Bool := Quantity.abs s.bulge < Contour.fuzz

def isClockwise (s : Side α) : Bool := s.bulge < 0.0

/-- Whether a point of the circle lies within the sweep of a bent side about its center. The sweep is
taken to be at most half a turn. -/
def sweeps (s : Side α) (center p : Point α) : Bool :=
  let fromStart := (s.start - center).cross (p - center)
  let fromStop := (s.stop - center).cross (p - center)
  if s.isClockwise then fromStart < Contour.pointTolerance ∧ -Contour.pointTolerance < fromStop
  else -Contour.pointTolerance < fromStart ∧ fromStop < Contour.pointTolerance

end Quantity

variable [Scalar α]

/-- The circle that a bent side runs along. -/
def circle (s : Side α) : Circle α :=
  let b := Quantity.abs s.bulge
  let chord := s.stop - s.start
  let length := chord.norm
  let radius := length * (b * b + 1.0) / (4.0 * b)
  let height := radius - b * length / 2.0
  let lean := if s.isClockwise then -height else height
  ⟨⟨s.start.x + chord.x / 2.0 - lean * chord.y / length, s.start.y + chord.y / 2.0 + lean * chord.x / length⟩,
    radius⟩

/-- The point halfway along a side. -/
def middle (s : Side α) : Point α :=
  if s.isStraight then s.start.middle s.stop
  else
    let c := s.circle
    let start := c.center.bearing s.start
    c.point (start + Scalar.turnAs (!decide (0.0 < s.bulge)) start (c.center.bearing s.stop) / 2.0)

/-- The point of a straight side that is nearest to `p`. -/
def nearestStraight (s : Side α) (p : Point α) : Point α :=
  let v := s.stop - s.start
  let along := (p - s.start).dot v
  let length := v.dot v
  if along < Contour.fuzz then s.start
  else if length < along + Contour.fuzz then s.stop
  else s.start + v.scale (along / length)

/-- The point of a side that is nearest to `p`. -/
def nearest (s : Side α) (p : Point α) : Point α :=
  if s.isStraight then s.nearestStraight p
  else
    let c := s.circle
    if Contour.same p c.center then s.start
    else if s.sweeps c.center p then c.center + (p - c.center).unit.scale c.radius
    else if s.start.distanceSquared p < s.stop.distanceSquared p then s.start
    else s.stop

/-- The parts of a side before and after one of its points. -/
def split (s : Side α) (p : Point α) : Side α × Side α :=
  if s.isStraight then (⟨s.start, p, s.bulge⟩, ⟨p, s.stop, 0.0⟩)
  else if Contour.same s.start s.stop || Contour.same s.start p then (⟨p, p, 0.0⟩, ⟨p, s.stop, s.bulge⟩)
  else if Contour.same s.stop p then (s, ⟨s.stop, s.stop, 0.0⟩)
  else
    let center := s.circle.center
    let bearing := center.bearing p
    let bulge (a b : α) : α := Scalar.bulge (Scalar.turnAs s.isClockwise a b)
    (⟨s.start, p, bulge (center.bearing s.start) bearing⟩, ⟨p, s.stop, bulge bearing (center.bearing s.stop)⟩)

end Side

end KeyboardPlate
