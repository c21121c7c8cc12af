import KeyboardPlate.Decimal.Basic
import KeyboardPlate.Geometry.Error

/-!
# What can go wrong while a plate is drawn
-/

set_option autoImplicit false

namespace KeyboardPlate

/-- Why there is no plate. -/
inductive PlateError (α : Type) where
  | geometry (error : GeometryError α)
  | emptyLayout
  /-- The key with this number stands where no decimal reaches. -/
  | keyOutOfRange (key : Nat)
  | extentOutOfRange
  /-- A length computed from the options has no decimal. -/
  | overflow
deriving Repr, BEq, DecidableEq

namespace PlateError

/-- The wording of an error. -/
def message : PlateError Float → String
  | geometry e => "geometry error: " ++ e.message
  | emptyLayout => "layout has no keys; nothing to bound"
  | keyOutOfRange key => "key " ++ toString key ++ " lies outside the representable plate area"
  | extentOutOfRange => "plate extent exceeds the representable range"
  | overflow => "arithmetic overflow"

end PlateError

section
variable {α β : Type}

/-- A length that has a decimal. -/
def Plate.length (x : Option Decimal) : Except (PlateError α) Decimal :=
  match x with
  | some d => .ok d
  | none => .error .overflow

/-- A drawing step as a step of a plate. -/
def Plate.geometry (step : Except (GeometryError α) β) : Except (PlateError α) β :=
  step.mapError .geometry

end

end KeyboardPlate
