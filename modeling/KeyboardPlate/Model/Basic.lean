import KeyboardPlate.Geometry.Fillet
import KeyboardPlate.Model.Layer
import KeyboardPlate.Model.Named

/-!
# Drawings

A model is a tree of named paths. Its origin moves everything below it, and its layer holds for
everything below it that has no layer of its own.
-/

set_option autoImplicit false

namespace KeyboardPlate

structure Model (α : Type) where
  origin : Option (Point α) := none
  layer : Option Layer := none
  paths : List (String × Path α) := []
  children : List (String × Model α) := []
deriving Repr

namespace Model
variable {α : Type}

instance : Inhabited (Model α) := ⟨{}⟩

def addPath (m : Model α) (name : String) (path : Path α) : Model α :=
  { m with paths := Named.put name path m.paths }

def addChild (m : Model α) (name : String) (child : Model α) : Model α :=
  { m with children := Named.put name child m.children }

def withLayer (m : Model α) (layer : Layer) : Model α := { m with layer := some layer }

def moveTo (m : Model α) (origin : Point α) : Model α := { m with origin := some origin }

def originOrZero [Quantity α] (m : Model α) : Point α := m.origin.getD .zero

mutual

/-- Whether no path stands anywhere in the tree. -/
def isEmpty : Model α → Bool
  | ⟨_, _, paths, children⟩ => paths.isEmpty && allEmpty children

def allEmpty : List (String × Model α) → Bool
  | [] => true
  | (_, child) :: rest => child.isEmpty && allEmpty rest

end

mutual

/-- The number of paths in the tree. -/
def pathCount : Model α → Nat
  | ⟨_, _, paths, children⟩ => paths.length + totalCount children

def totalCount : List (String × Model α) → Nat
  | [] => 0
  | (_, child) :: rest => child.pathCount + totalCount rest

end

section Scalar
variable [Scalar α]

mutual

/-- Turns the contents about a point given in the frame of the model's own origin. Origins stay where
they are. -/
def rotate (degrees : α) (about : Point α) : Model α → Model α
  | ⟨origin, layer, paths, children⟩ =>
    if degrees == 0.0 then ⟨origin, layer, paths, children⟩
    else
      let inner := about - origin.getD .zero
      ⟨origin, layer, paths.map fun (name, path) => (name, path.rotate degrees inner),
        rotateAll degrees inner children⟩

def rotateAll (degrees : α) (about : Point α) : List (String × Model α) → List (String × Model α)
  | [] => []
  | (name, child) :: rest => (name, child.rotate degrees about) :: rotateAll degrees about rest

end

/-- Cuts two named lines back to make room for a fillet between them. The arc is returned, not drawn. -/
def filletPaths (m : Model α) (first second : String) (radius : α) :
    Except (GeometryError α) (Model α × Arc α) :=
  match Named.get? first m.paths with
  | none => .error (.missingPath first)
  | some a =>
    match Named.get? second m.paths with
    | none => .error (.missingPath second)
    | some b =>
      match a.fillet b radius with
      | .error e => .error e
      | .ok (l, k, arc) => .ok ((m.addPath first (.line l)).addPath second (.line k), arc)

/-- Fillets two named lines and draws the arc under a name of its own. -/
def addFillet (m : Model α) (name first second : String) (radius : α) :
    Except (GeometryError α) (Model α) :=
  (m.filletPaths first second radius).map fun (cut, arc) => cut.addPath name (.arc arc)

end Scalar

end Model

end KeyboardPlate
