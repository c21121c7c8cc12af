import KeyboardPlate.Model.Walk
import KeyboardPlate.Double.Text

/-!
# Numbers in drawings

Writers of drawings refuse numbers that are not finite. They take the text of a number as an argument.
-/

set_option autoImplicit false

namespace KeyboardPlate

/-- Why a drawing cannot be written. -/
inductive ExportError where
  | empty
  /-- A number that is not finite, with what it is for and the route of its path. -/
  | nonFinite (what route : String)
deriving Repr, DecidableEq

def ExportError.message : ExportError → String
  | empty => "nothing to export: the model has no paths"
  | nonFinite what route => "non-finite value for " ++ what ++ " in " ++ route

namespace Drawing

/-- The text of a double in a drawing: its shortest digits, and zero for what is nearly zero. -/
def numberText (x : Float) : String :=
  Double.text .drawing (if x.abs < 1e-9 then 0.0 else x)

/-- Checks the numbers of a path in order. -/
def checkFinite {α : Type} [Scalar α] (route : String) : List (String × α) → Except ExportError Unit
  | [] => .ok ()
  | (what, x) :: rest =>
    if Scalar.isFinite x then checkFinite route rest else .error (.nonFinite what route)

end Drawing

end KeyboardPlate
