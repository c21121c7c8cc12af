import KeyboardPlate.Model.Basic
import KeyboardPlate.Json.Printer
import KeyboardPlate.Json.Reader

/-!
# Drawings as JSON

A model is an object of `origin`, `paths`, `models` and `layer`, of which those that are missing or
empty are left out. A path names its kind in the member `type`. A reader takes the members in any
order, each at most once, or as an array in that order.
-/

set_option autoImplicit false

namespace KeyboardPlate

namespace Point

def toJson (p : Point Float) : Json := .array [.number (.float p.x), .number (.float p.y)]

end Point

namespace Path

def toJson : Path Float → Json
  | line l => .object [("type", .string "line"), ("origin", l.start.toJson), ("end", l.stop.toJson)]
  | arc a => .object [("type", .string "arc"), ("origin", a.center.toJson),
      ("radius", .number (.float a.radius)), ("startAngle", .number (.float a.startAngle)),
      ("endAngle", .number (.float a.endAngle))]

end Path

namespace Model

mutual

def toJson : Model Float → Json
  | ⟨origin, layer, paths, children⟩ =>
    .object ((origin.map fun p => ("origin", p.toJson)).toList ++
      (if paths.isEmpty then [] else [("paths", .object (paths.map fun (name, path) => (name, path.toJson)))]) ++
      (if children.isEmpty then [] else [("models", .object (childrenToJson children))]) ++
      (layer.map fun l => ("layer", Json.string l.name)).toList)

def childrenToJson : List (String × Model Float) → List (String × Json)
  | [] => []
  | (name, child) :: rest => (name, child.toJson) :: childrenToJson rest

end

end Model

namespace Json

mutual

/-- Whether a value can be read throughout and has at most `depth` arrays and objects inside each
other. -/
def fits (depth : Nat) : Json → Bool
  | array items => 0 < depth && allFit (depth - 1) items
  | object members => 0 < depth && membersFit (depth - 1) members
  | unreadable => false
  | _ => true

def allFit (depth : Nat) : List Json → Bool
  | [] => true
  | item :: rest => item.fits depth && allFit depth rest

def membersFit (depth : Nat) : List (String × Json) → Bool
  | [] => true
  | (_, value) :: rest => value.fits depth && membersFit depth rest

end

/-- The only member of a name; none if there is no such member or more than one. -/
def onlyMember? (name : String) (members : List (String × Json)) : Option Json :=
  match members.filter fun entry => entry.1 == name with
  | [(_, value)] => some value
  | _ => none

/-- Whether each of the names is that of at most one member. -/
def atMostOnce (names : List String) (members : List (String × Json)) : Bool :=
  names.all fun name => (members.filter fun entry => entry.1 == name).length ≤ 1

end Json

/-- A number as a coordinate, a radius or an angle. -/
def coordinate? : Json → Option Float
  | .number n => some n.toDouble
  | _ => none

def Point.ofJson? : Json → Option (Point Float)
  | .array [x, y] => do return ⟨← coordinate? x, ← coordinate? y⟩
  | _ => none

namespace Path

/-- A path of a kind from the values of its parts in order. -/
def ofParts? : (kind : String) → List Json → Option (Path Float)
  | "line", [start, stop] => do return .line ⟨← Point.ofJson? start, ← Point.ofJson? stop⟩
  | "arc", [center, radius, startAngle, endAngle] => do
    return .arc ⟨← Point.ofJson? center, ← coordinate? radius, ← coordinate? startAngle, ← coordinate? endAngle⟩
  | _, _ => none

/-- The names of the parts of a kind. -/
def partNames : (kind : String) → List String
  | "line" => ["origin", "end"]
  | "arc" => ["origin", "radius", "startAngle", "endAngle"]
  | _ => []

/-- A path, given by its members or by an array of its kind and its parts. -/
def ofJson? : Json → Option (Path Float)
  | .object members => do
    match ← Json.onlyMember? "type" members with
    | .string kind => ofParts? kind (← (partNames kind).mapM fun name => Json.onlyMember? name members)
    | _ => none
  | .array (.string kind :: parts) => ofParts? kind parts
  | _ => none

end Path

/-- A layer by its name, or as an object whose only member has that name and is null. -/
def Layer.ofJson? (depth : Nat) : Json → Option Layer
  | .string name => ofName? name
  | .object [(name, .null)] => if 0 < depth then ofName? name else none
  | _ => none

namespace Model

/-- A value that may be null. -/
def orNull? {α : Type} (read : Json → Option α) : Json → Option (Option α)
  | .null => some none
  | value => (read value).map some

/-- Paths by name. A later path replaces an earlier one of its name. -/
def pathsOfJson? (depth : Nat) : Json → Option (List (String × Path Float))
  | .object members =>
    if depth = 0 then none
    else
      (members.mapM fun (entry : String × Json) =>
        if entry.2.fits (depth - 1) then (Path.ofJson? entry.2).map fun path => (entry.1, path) else none).map
      Named.ofEntries
  | _ => none

/-- A point that may be null. -/
def originOfJson? (depth : Nat) : Json → Option (Option (Point Float)) :=
  orNull? fun value => if 0 < depth then Point.ofJson? value else none

def layerOfJson? (depth : Nat) : Json → Option (Option Layer) :=
  orNull? (Layer.ofJson? depth)

/-- The members a model may have, in the order of the array form. -/
def memberNames : List String := ["origin", "paths", "models", "layer"]

/-- The members of a model among those of an object. -/
def ownMembers (members : List (String × Json)) : List (String × Json) :=
  members.filter fun entry => entry.1 ∈ memberNames

/-- Children by name. -/
def childrenOfJson? (depth : Nat) (child : Json → Option (Model Float)) :
    Json → Option (List (String × Model Float))
  | .object members =>
    if depth = 0 then none
    else
      (members.mapM fun (entry : String × Json) => (child entry.2).map fun m => (entry.1, m)).map Named.ofEntries
  | _ => none

/-- Puts the values of members into a model. -/
def ofMembers? (depth : Nat) (child : Json → Option (Model Float)) (m : Model Float) :
    List (String × Json) → Option (Model Float)
  | [] => some m
  | (name, value) :: rest => do
    let m ← match name with
      | "origin" => (originOfJson? depth value).map fun p => { m with origin := p }
      | "paths" => (pathsOfJson? depth value).map fun ps => { m with paths := ps }
      | "models" => (childrenOfJson? depth child value).map fun cs => { m with children := cs }
      | _ => (layerOfJson? depth value).map fun l => { m with layer := l }
    ofMembers? depth child m rest

/-- A model with at most `depth` arrays and objects inside what holds its members. -/
def ofJsonWith? (depth : Nat) (child : Json → Option (Model Float)) : Json → Option (Model Float)
  | .object members =>
    if Json.atMostOnce memberNames members then ofMembers? depth child {} (ownMembers members) else none
  | .array items =>
    if items.length ≤ memberNames.length then ofMembers? depth child {} (memberNames.zip items) else none
  | _ => none

/-- A model with at most `depth` arrays and objects inside each other. -/
def ofJson? : (depth : Nat) → Json → Option (Model Float)
  | 0 => fun _ => none
  | 1 => ofJsonWith? 0 fun _ => none
  | depth + 2 => ofJsonWith? (depth + 1) (ofJson? depth)

/-- The number of arrays and objects inside each other that a text may have. -/
def depthLimit : Nat := 127

/-- The model of a JSON text. -/
def ofText? (text : String) : Option (Model Float) := do ofJson? depthLimit (← Json.parse? text)

/-- The compact JSON text of a model. -/
def toText (m : Model Float) : String := m.toJson.compactText

end Model

end KeyboardPlate
