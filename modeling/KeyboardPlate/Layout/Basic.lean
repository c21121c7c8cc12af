import KeyboardPlate.Key
import KeyboardPlate.Json.Printer

/-!
# Where a layout stands

A layout is read from left to right and top to bottom. The cursor is the place of the next key; the
overrides hold for the next key only.
-/

set_option autoImplicit false

namespace KeyboardPlate.Layout

structure Cursor where
  x : Decimal := .zero
  y : Decimal := .zero
  angle : Decimal := .zero
  rotationX : Decimal := .zero
  rotationY : Decimal := .zero
  /-- Where the cursor goes when a rotation point is set. -/
  clusterX : Decimal := .zero
  clusterY : Decimal := .zero

structure Overrides where
  /-- The next label takes its place but is no key. -/
  decal : Bool := false
  width : Decimal := .one
  height : Decimal := .one
  width2 : Option Decimal := none
  height2 : Option Decimal := none
  stabilizerAngle : Decimal := .zero
  switchAngle : Decimal := .zero
  shiftStabilizers : Bool := false
  skipOrientationFix : Bool := false

structure State where
  cursor : Cursor := {}
  next : Overrides := {}

/-- The placement of the key that a label stands for. -/
def State.placement (s : State) : Placement where
  x := s.cursor.x
  y := s.cursor.y
  width := s.next.width
  height := s.next.height
  width2 := s.next.width2
  height2 := s.next.height2
  angle := s.cursor.angle
  rotationX := s.cursor.rotationX
  rotationY := s.cursor.rotationY
  switchAngle := s.next.switchAngle
  stabilizerAngle := s.next.stabilizerAngle
  shiftStabilizers := s.next.shiftStabilizers
  skipOrientationFix := s.next.skipOrientationFix

/-- Why a layout has no keys to give. Rows and items are counted from zero. -/
inductive Error where
  /-- The text is neither a document nor a list of rows. -/
  | notReadable
  | rootNotArray
  | rowNotArray (row : Nat)
  | invalidElement (row item : Nat) (found : Json)
  | invalidField (row : Nat) (field : String) (value : Json)
  | outOfRange (row item : Nat)

/-- What kind of value stands in a row. -/
def kindOf : Json → String
  | .null => "null"
  | .bool _ => "a boolean"
  | .number _ => "a number"
  | .string _ => "a string"
  | .array _ => "an array"
  | .object _ => "an object"
  | .unreadable => "null"

def Error.message : Error → String
  | notReadable => "failed to parse layout: not a document and not a list of rows"
  | rootNotArray => "layout root must be an array"
  | rowNotArray row => "row " ++ toString row ++ " must be an array"
  | invalidElement row item found =>
    "row " ++ toString row ++ ", item " ++ toString item ++
      ": expected a modifier object or a key label, found " ++ kindOf found
  | invalidField row field value =>
    "row " ++ toString row ++ ": invalid value for \"" ++ field ++ "\": " ++ value.plain.compactText
  | outOfRange row item =>
    "row " ++ toString row ++ ", item " ++ toString item ++
      ": key position leaves the representable range"

end KeyboardPlate.Layout
