import KeyboardPlate.Contour.Outline
import KeyboardPlate.Proofs.Plate.Names

/-!
# Outlines hold every contour

An outline reads of a drawing only its paths in place. It fails where these do not close, or where there are loops but
nothing is left of them at the distance. Else it holds one child for each contour, in the order of the loops: the
children are numbered, so none takes another's place, and so are the paths of each child.
-/

set_option autoImplicit false

namespace KeyboardPlate

/-! ## Numbered things -/

section
variable {ι β : Type}

end

variable {α : Type} [Scalar α]

/-! ## Drawings of contours -/

namespace Polyline

end Polyline

namespace Outline

/-- The children of the drawing of some contours, under their positions. -/
def numbered (contours : List (Polyline α)) : Named (Model α) :=
  contours.zipIdx.map fun entry => ("chain" ++ toString entry.2, entry.1.toModel)

end Outline

/-! ## Failures -/

namespace Chain

variable {start : Point α} {e : GeometryError α}

end Chain

namespace Model

variable (rule : OffsetRule α) (m : Model α) (distance : α) (inside : Bool)

end Model

end KeyboardPlate
