import KeyboardPlate.Drawing.Number

/-!
# DXF drawings

A DXF text is a list of pairs of a group code and a value, each on a line of its own. Every path is one
entity on its layer; all layers are declared, also those without paths.
-/

set_option autoImplicit false

namespace KeyboardPlate.Drawing.Dxf

/-- A group code and its value. -/
abbrev Pair := Nat × String

/-- The color index of a layer. -/
def color : Layer → Nat
  | .plate => 6
  | .top => 1
  | .bottom => 5
  | .topSolderMask => 2
  | .bottomSolderMask => 3

/-- Millimetres as the unit of length. -/
def header : List Pair :=
  [(0, "SECTION"), (2, "HEADER"), (9, "$INSUNITS"), (70, "4"), (0, "ENDSEC")]

def layerEntry (layer : Layer) : List Pair :=
  [(0, "LAYER"), (2, layer.name), (70, "0"), (62, toString (color layer)), (6, "CONTINUOUS")]

/-- One line type and all layers. -/
def tables : List Pair :=
  [(0, "SECTION"), (2, "TABLES"), (0, "TABLE"), (2, "LTYPE"), (0, "LTYPE"), (72, "65"), (70, "64"),
    (2, "CONTINUOUS"), (3, "______"), (73, "0"), (40, "0"), (0, "ENDTAB"), (0, "TABLE"), (2, "LAYER"),
    (70, toString Layer.all.length)] ++
  Layer.all.flatMap layerEntry ++ [(0, "ENDTAB"), (0, "ENDSEC")]

section Scalar
variable {α : Type} [Scalar α]

/-- The numbers of a path, with what they are for. -/
def numbers : Path α → List (String × α)
  | .line l => [("line x1", l.start.x), ("line y1", l.start.y), ("line x2", l.stop.x), ("line y2", l.stop.y)]
  | .arc a => [("arc cx", a.center.x), ("arc cy", a.center.y), ("arc r", a.radius),
      ("arc start", a.startAngle), ("arc end", a.endAngle)]

/-- The kind of a path and the group codes of its numbers. -/
def kind : Path α → String × List Nat
  | .line _ => ("LINE", [10, 20, 11, 21])
  | .arc _ => ("ARC", [10, 20, 40, 50, 51])

/-- The entity of a path. -/
def entity (text : α → String) (w : WalkedPath α) : Except ExportError (List Pair) := do
  checkFinite w.route (numbers w.path)
  let (name, codes) := kind w.path
  return (0, name) :: (8, w.layer.name) :: codes.zip ((numbers w.path).map fun entry => text entry.2)

/-- All pairs of the drawing. -/
def pairs (text : α → String) (m : Model α) : Except ExportError (List Pair) :=
  match m.walk with
  | [] => .error .empty
  | walk => do
    let entities ← walk.mapM (entity text)
    return header ++ tables ++ [(0, "SECTION"), (2, "ENTITIES")] ++ entities.flatten ++
      [(0, "ENDSEC"), (0, "EOF")]

end Scalar

/-- Every pair on two lines. -/
def lines (pairs : List Pair) : String :=
  String.join (pairs.map fun (code, value) => toString code ++ "\n" ++ value ++ "\n")

end Dxf

/-- The DXF text of a drawing whose numbers are written by `text`. -/
def dxfWith {α : Type} [Scalar α] (text : α → String) (m : Model α) : Except ExportError String :=
  (Dxf.pairs text m).map Dxf.lines

/-- The DXF text of a drawing. -/
def dxf (m : Model Float) : Except ExportError String := dxfWith numberText m

end KeyboardPlate.Drawing
