import KeyboardPlate.Layout.Basic

/-!
# Modifiers of a layout

The members of an object in a row move the cursor or override the next key. They take effect in a fixed
order, whatever their order in the text; other members mean nothing.
-/

set_option autoImplicit false

namespace KeyboardPlate.Layout

inductive Modifier where
  | angle
  | rotationX
  | rotationY
  | decal
  | width
  | height
  | width2
  | height2
  | stabilizerAngle
  | switchAngle
  | shiftStabilizers
  | skipOrientationFix
  | right
  | down
deriving Repr, DecidableEq

/-- A decimal given as a number or as a text that stands for one. -/
def decimalOf? : Json → Option Decimal
  | .number n => Decimal.parse? (Json.numberText n)
  | .string s => Decimal.parse? s
  | _ => none

/-- A truth value, or a number that is not zero. -/
def flagOf? : Json → Option Bool
  | .bool b => some b
  | .number n => some (!n.isZero)
  | _ => none

namespace Modifier

/-- The order in which modifiers take effect. -/
def all : List Modifier :=
  [angle, rotationX, rotationY, decal, width, height, width2, height2, stabilizerAngle, switchAngle,
    shiftStabilizers, skipOrientationFix, right, down]

theorem mem_all (m : Modifier) : m ∈ all := by cases m <;> decide

/-- The member that gives the modifier. -/
def name : Modifier → String
  | angle => "r"
  | rotationX => "rx"
  | rotationY => "ry"
  | decal => "d"
  | width => "w"
  | height => "h"
  | width2 => "w2"
  | height2 => "h2"
  | stabilizerAngle => "_rs"
  | switchAngle => "_rc"
  | shiftStabilizers => "_ss"
  | skipOrientationFix => "_so"
  | right => "x"
  | down => "y"

/-- The effect of a modifier, unless its value is of the wrong form or moves the cursor out of range. -/
def effect? (value : Json) (s : State) : Modifier → Option State
  | angle => do
    let r ← decimalOf? value
    return { s with cursor := { s.cursor with angle := r } }
  | rotationX => do
    let rx ← decimalOf? value
    return { s with cursor :=
      { s.cursor with rotationX := rx, clusterX := rx, x := rx, y := s.cursor.clusterY } }
  | rotationY => do
    let ry ← decimalOf? value
    return { s with cursor :=
      { s.cursor with rotationY := ry, clusterY := ry, x := s.cursor.clusterX, y := ry } }
  | decal => do
    let d ← flagOf? value
    return { s with next := { s.next with decal := d } }
  | width => do
    let w ← decimalOf? value
    return { s with next := { s.next with width := w } }
  | height => do
    let h ← decimalOf? value
    return { s with next := { s.next with height := h } }
  | width2 => do
    let w ← decimalOf? value
    return { s with next := { s.next with width2 := some w } }
  | height2 => do
    let h ← decimalOf? value
    return { s with next := { s.next with height2 := some h } }
  | stabilizerAngle => do
    let a ← decimalOf? value
    return { s with next := { s.next with stabilizerAngle := a } }
  | switchAngle => do
    let a ← decimalOf? value
    return { s with next := { s.next with switchAngle := a } }
  | shiftStabilizers => do
    let b ← flagOf? value
    return { s with next := { s.next with shiftStabilizers := b } }
  | skipOrientationFix => do
    let b ← flagOf? value
    return { s with next := { s.next with skipOrientationFix := b } }
  | right => do
    let x ← s.cursor.x.add? (← decimalOf? value)
    return { s with cursor := { s.cursor with x := x } }
  | down => do
    let y ← s.cursor.y.add? (← decimalOf? value)
    return { s with cursor := { s.cursor with y := y } }

/-- The effect of the member that gives the modifier, if the object has it. -/
def step (row : Nat) (members : List (String × Json)) (s : State) (m : Modifier) : Except Error State :=
  match Json.member? m.name members with
  | none => .ok s
  | some value =>
    match m.effect? value s with
    | some t => .ok t
    | none => .error (.invalidField row m.name value)

end Modifier

/-- The effect of an object in a row. -/
def modify (row : Nat) (members : List (String × Json)) (s : State) : Except Error State :=
  Modifier.all.foldlM (Modifier.step row members) s

/-- An object that holds no modifier at all. -/
def isMetadata (members : List (String × Json)) : Bool :=
  Modifier.all.all fun m => (Json.member? m.name members).isNone

end KeyboardPlate.Layout
