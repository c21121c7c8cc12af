import KeyboardPlate.Contour.Offset
import KeyboardPlate.Model.Walk

/-!
# Outlines

The outline of a drawing runs around its closed loops, or inside them, at a distance. It stands in
absolute coordinates, each contour a child of its own.
-/

set_option autoImplicit false

namespace KeyboardPlate

/-- The contours at a distance from a contour, to its left. -/
abbrev OffsetRule (α : Type) := (distance : α) → Polyline α → List (Polyline α)

namespace Outline
variable {α : Type} [Scalar α]

/-- The distance to the left that leads inside a contour, or outside. -/
def signedDistance (distance : α) (inside : Bool) (contour : Polyline α) : α :=
  let d := Quantity.abs distance
  if contour.isClockwise == inside then -d else d

/-- The contours of an outline, loop by loop. At no distance the loops themselves are the contours. -/
def contours (rule : OffsetRule α) (distance : α) (inside : Bool) (loops : List (List (Link α))) :
    List (Polyline α) :=
  loops.flatMap fun links =>
    let contour := Polyline.ofLoop links
    if distance == 0.0 then [contour] else rule (signedDistance distance inside contour) contour

/-- Adds a contour as a child, numbered by how many children there are. -/
def addContour (m : Model α) (contour : Polyline α) : Model α :=
  m.addChild ("chain" ++ toString m.children.length) contour.toModel

/-- The drawing of some contours, in order. -/
def draw (contours : List (Polyline α)) : Model α := contours.foldl addContour {}

end Outline

namespace Model
variable {α : Type} [Scalar α]

/-- The outline of a drawing with contours moved by `rule`. -/
def outlineWith (rule : OffsetRule α) (m : Model α) (distance : α) (inside : Bool) :
    Except (GeometryError α) (Model α) := do
  let loops ← findLoops (m.walk.map (·.path))
  let outline := Outline.draw (Outline.contours rule distance inside loops)
  if outline.children.isEmpty && !loops.isEmpty then .error (.emptyOffset distance) else return outline

/-- The outline of a drawing at a distance, around its loops or inside them. -/
def outline (m : Model α) (distance : α) (inside : Bool) : Except (GeometryError α) (Model α) :=
  m.outlineWith Contour.offset distance inside

end Model

end KeyboardPlate
