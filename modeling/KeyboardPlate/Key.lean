import KeyboardPlate.Decimal.Functions
import KeyboardPlate.Decimal.Text

/-!
# Keys

A placement says where a key stands on the grid of key units, `y` downward, and how its cutouts are
turned. A key is a placement whose rotated center can be represented.
-/

set_option autoImplicit false

namespace KeyboardPlate

structure Placement where
  x : Decimal
  y : Decimal
  width : Decimal := .one
  height : Decimal := .one
  width2 : Option Decimal := none
  height2 : Option Decimal := none
  /-- Clockwise, in degrees, about the rotation point. -/
  angle : Decimal := .zero
  rotationX : Decimal := .zero
  rotationY : Decimal := .zero
  /-- A further turn of the switch alone. -/
  switchAngle : Decimal := .zero
  /-- A further turn of stabilizer and acoustic cutouts. -/
  stabilizerAngle : Decimal := .zero
  shiftStabilizers : Bool := false
  skipOrientationFix : Bool := false
deriving DecidableEq

namespace Placement

/-- The middle of the key, rotated. -/
def center? (p : Placement) : Option (Decimal × Decimal) := do
  let cx ← p.x.add? (← p.width.half?)
  let cy ← p.y.add? (← p.height.half?)
  Decimal.rotate? cx cy p.angle p.rotationX p.rotationY

/-- Whether the long side runs along the height, so that cutouts are turned by a quarter. -/
def isVertical (p : Placement) : Bool := !p.skipOrientationFix && decide (p.width < p.height)

/-- The size that decides about stabilizer and acoustic cutouts. -/
def longAxis (p : Placement) : Decimal := if p.isVertical then p.height else p.width

end Placement

structure Key extends Placement where
  centerX : Decimal
  centerY : Decimal
  center_eq : toPlacement.center? = some (centerX, centerY)
deriving DecidableEq

/-- The center of the key at this place does not fit. -/
structure KeyOutOfRange where
  x : Decimal
  y : Decimal
deriving DecidableEq

def KeyOutOfRange.message (e : KeyOutOfRange) : String :=
  "key at (" ++ e.x.text ++ ", " ++ e.y.text ++ ") has a center outside the representable range"

/-- The key of a placement. -/
def Placement.toKey (p : Placement) : Except KeyOutOfRange Key :=
  match h : p.center? with
  | some (cx, cy) => .ok ⟨p, cx, cy, h⟩
  | none => .error ⟨p.x, p.y⟩

end KeyboardPlate
