import KeyboardPlate.Model.Basic

/-!
# Walking a drawing

The walk lists every path of a tree, a model's own paths before its children's, moved by all origins
above it and with the layer that holds for it. The extents are the smallest box around the walk.
-/

set_option autoImplicit false

namespace KeyboardPlate

/-- A path in place: the names that lead to it, and its layer. -/
structure WalkedPath (α : Type) where
  route : String
  layer : Layer
  path : Path α
deriving Repr

/-- An upright box, given by two opposite corners. -/
structure Box (α : Type) where
  low : Point α
  high : Point α
deriving Repr

namespace Box
variable {α : Type} [Quantity α]

/-- The box with one more point in it. -/
def extend (b : Box α) (p : Point α) : Box α :=
  ⟨⟨Quantity.least b.low.x p.x, Quantity.least b.low.y p.y⟩,
   ⟨Quantity.greatest b.high.x p.x, Quantity.greatest b.high.y p.y⟩⟩

/-- The box around some points, if there are any. -/
def around? : List (Point α) → Option (Box α)
  | [] => none
  | p :: rest => some (rest.foldl extend ⟨p, p⟩)

end Box

/-- The ends of an arc and the points of its circle at the quarter turns strictly inside its sweep. -/
def Arc.samples {α : Type} [Scalar α] (a : Arc α) : List (Point α) :=
  let first := normalizeAngle a.startAngle
  let inside := [0.0, 90.0, 180.0, 270.0, 360.0, 450.0, 540.0, 630.0].filter fun quarter =>
    first < quarter ∧ quarter < first + a.span
  a.start :: a.stop :: inside.map (a.center.onCircle a.radius)

/-- Points of a path such that the box around them holds the whole path. -/
def Path.samples {α : Type} [Scalar α] : Path α → List (Point α)
  | line l => [l.start, l.stop]
  | arc a => a.samples

namespace Model
variable {α : Type}

section Quantity
variable [Quantity α]

mutual

def walkFrom (offset : Point α) (layer : Layer) (route : String) : Model α → List (WalkedPath α)
  | ⟨origin, own, paths, children⟩ =>
    let offset := offset + origin.getD .zero
    let layer := own.getD layer
    paths.map (fun (name, path) => ⟨route ++ "paths/" ++ name, layer, path.move offset⟩) ++
      walkAll offset layer route children

def walkAll (offset : Point α) (layer : Layer) (route : String) :
    List (String × Model α) → List (WalkedPath α)
  | [] => []
  | (name, child) :: rest =>
    child.walkFrom offset layer (route ++ "models/" ++ name ++ "/") ++ walkAll offset layer route rest

end

/-- Every path of the tree in place. -/
def walk (m : Model α) : List (WalkedPath α) := m.walkFrom .zero .plate ""

end Quantity

/-- The box around all samples of all walked paths. -/
def extents [Scalar α] (m : Model α) : Option (Box α) :=
  Box.around? (m.walk.flatMap fun w => w.path.samples)

end Model

end KeyboardPlate
