import KeyboardPlate.Geometry.Point
import KeyboardPlate.Double.Text

/-!
# What can go wrong in a drawing
-/

set_option autoImplicit false

namespace KeyboardPlate

/-- Why a drawing step has no result. -/
inductive GeometryError (α : Type) where
  | parallelLines
  | disconnected
  | missingPath (name : String)
  /-- A fillet was asked for between paths that are not both lines. -/
  | unsupportedFilletPath
  | filletDoesNotFit (radius : α)
  /-- The paths do not close; the point is where a chain of them stops. -/
  | openChain (tip : Point α)
  | emptyOffset (distance : α)
deriving Repr, BEq, DecidableEq

/-- The wording of an error. -/
def GeometryError.message : GeometryError Float → String
  | parallelLines => "cannot fillet parallel lines"
  | disconnected => "lines do not share an endpoint"
  | missingPath name => "no path named \"" ++ name ++ "\""
  | unsupportedFilletPath => "fillet is only supported between two lines"
  | filletDoesNotFit radius =>
    "fillet radius " ++ Double.text .message radius ++ " does not fit between the lines"
  | openChain p =>
    "paths do not form closed chains (open end at [" ++ Double.text .coordinate p.x ++ ", " ++
      Double.text .coordinate p.y ++ "])"
  | emptyOffset distance => "offset by " ++ Double.text .message distance ++ " produced no contour"

end KeyboardPlate
