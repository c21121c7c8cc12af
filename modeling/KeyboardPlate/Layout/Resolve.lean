import KeyboardPlate.Layout.Modifier
import KeyboardPlate.Json.Relaxed

/-!
# The keys of a layout

A layout is an array of rows, which an object with metadata may precede. A row is an array of labels and
objects with modifiers. Each label that is no decal is a key.
-/

set_option autoImplicit false

namespace KeyboardPlate.Layout

/-- The effect of a label: its key, unless it is a decal, and the cursor moved on by its width. -/
def label (row item : Nat) (s : State) : Except Error (List Key × State) :=
  match s.cursor.x.add? s.next.width with
  | none => .error (.outOfRange row item)
  | some x =>
    let after : State := { cursor := { s.cursor with x := x }, next := {} }
    if s.next.decal then .ok ([], after)
    else
      match s.placement.toKey with
      | .ok key => .ok ([key], after)
      | .error _ => .error (.outOfRange row item)

/-- The effect of one item of a row. -/
def readItem (row item : Nat) (s : State) : Json → Except Error (List Key × State)
  | .string _ => label row item s
  | .object members => (modify row members s).map fun t => ([], t)
  | other => .error (.invalidElement row item other)

/-- The items of a row from the one with number `item` on. -/
def readItems (row item : Nat) (s : State) : List Json → Except Error (List Key × State)
  | [] => .ok ([], s)
  | value :: rest => do
    let (keys, s) ← readItem row item s value
    let (more, s) ← readItems row (item + 1) s rest
    return (keys ++ more, s)

/-- The end of a row: back to the rotation point, one unit down. -/
def endRow (row item : Nat) (s : State) : Except Error State :=
  match s.cursor.y.add? .one with
  | none => .error (.outOfRange row item)
  | some y => .ok { s with cursor := { s.cursor with x := s.cursor.rotationX, y := y } }

def readRow (row : Nat) (s : State) : Json → Except Error (List Key × State)
  | .array items => do
    let (keys, s) ← readItems row 0 s items
    return (keys, ← endRow row items.length s)
  | _ => .error (.rowNotArray row)

/-- The rows from the one with number `row` on. -/
def readRows (row : Nat) (s : State) : List Json → Except Error (List Key × State)
  | [] => .ok ([], s)
  | value :: rest => do
    let (keys, s) ← readRow row s value
    let (more, s) ← readRows (row + 1) s rest
    return (keys ++ more, s)

/-- The keys of a list of rows, or of metadata followed by rows. -/
def resolveRows : List Json → Except Error (List Key)
  | .object members :: rest =>
    if isMetadata members then (readRows 1 {} rest).map (·.1)
    else (readRows 0 {} (.object members :: rest)).map (·.1)
  | rows => (readRows 0 {} rows).map (·.1)

/-- The keys of a layout value in document order. -/
def resolveValue : Json → Except Error (List Key)
  | .array rows => resolveRows rows
  | _ => .error .rootNotArray

/-- The value of a layout text: a document, or the rows of one without the brackets around them. -/
def readText? (text : String) : Option Json :=
  (Json.Relaxed.parse? text).or (Json.Relaxed.parse? ("[" ++ text ++ "]"))

/-- The keys of a layout text. -/
def resolve (text : String) : Except Error (List Key) :=
  match readText? text with
  | some value => resolveValue value
  | none => .error .notReadable

end KeyboardPlate.Layout
