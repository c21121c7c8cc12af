import KeyboardPlate.Model.Basic

/-!
# Rectangles with rounded corners

The sides of a rectangle are named, and so are the fillets of its corners, which are cut one after the
other.
-/

set_option autoImplicit false

namespace KeyboardPlate.Model
variable {α : Type}

/-- The rectangle between two abscissas and two ordinates. -/
def rectangle (left right upper lower : α) : Model α :=
  { paths := [
      ("lineTop", .between ⟨left, upper⟩ ⟨right, upper⟩),
      ("lineBottom", .between ⟨left, lower⟩ ⟨right, lower⟩),
      ("lineLeft", .between ⟨left, upper⟩ ⟨left, lower⟩),
      ("lineRight", .between ⟨right, upper⟩ ⟨right, lower⟩)] }

/-- The fillet of each corner, with the two sides that it joins. -/
def corners : List (String × String × String) := [
  ("filletTopLeft", "lineTop", "lineLeft"),
  ("filletTopRight", "lineTop", "lineRight"),
  ("filletBottomLeft", "lineBottom", "lineLeft"),
  ("filletBottomRight", "lineBottom", "lineRight")]

/-- Rounds the corners of a rectangle. -/
def filletCorners [Scalar α] (radius : α) (m : Model α) : Except (GeometryError α) (Model α) :=
  corners.foldlM (fun m (name, first, second) => m.addFillet name first second radius) m

end KeyboardPlate.Model
