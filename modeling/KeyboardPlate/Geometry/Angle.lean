import KeyboardPlate.Scalar

/-!
# Angles in degrees

Angles count counter-clockwise. Quarter turns have exact sines and cosines, so that drawings turned by
them do not drift.
-/

set_option autoImplicit false

namespace KeyboardPlate

section Quantity
variable {α : Type} [Quantity α]

/-- The angle between 0 and 360 with the same direction. -/
def normalizeAngle (degrees : α) : α :=
  let a := Quantity.remainder degrees 360.0
  if a < 0.0 then a + 360.0 else a

/-- The counter-clockwise sweep from one angle to another: nothing between equal angles, a full turn
between different angles of one direction. -/
def sweep (start stop : α) : α :=
  let s := normalizeAngle start
  let e := normalizeAngle stop
  if s < e then e - s
  else if e < s then 360.0 - (s - e)
  else if start == stop then 0.0
  else 360.0

end Quantity

/-- Sine and cosine, exact at quarter turns. -/
def sinCos {α : Type} [Scalar α] (degrees : α) : α × α :=
  let a := normalizeAngle degrees
  if a == 0.0 then (0.0, 1.0)
  else if a == 90.0 then (1.0, 0.0)
  else if a == 180.0 then (0.0, -1.0)
  else if a == 270.0 then (-1.0, 0.0)
  else (Scalar.sin (Scalar.toRadians a), Scalar.cos (Scalar.toRadians a))

end KeyboardPlate
