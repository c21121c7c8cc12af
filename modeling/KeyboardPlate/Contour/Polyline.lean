import KeyboardPlate.Contour.Loop
import KeyboardPlate.Contour.Side
import KeyboardPlate.Model.Basic

/-!
# Closed contours

A contour is a cycle of vertices, each with the bulge of the side to the next one. A loop of paths
gives a contour, and a contour is drawn as lines and arcs.
-/

set_option autoImplicit false

namespace KeyboardPlate

structure Vertex (α : Type) where
  point : Point α
  bulge : α
deriving Repr

/-- The vertex from which a loop runs along a link. -/
def Link.vertex {α : Type} [Scalar α] (l : Link α) : Vertex α :=
  ⟨l.endpoints.1,
    match l.path with
    | .line _ => 0.0
    | .arc a =>
      let b := Scalar.bulge (Scalar.toRadians a.span)
      if l.isReversed then -b else b⟩

/-- The vertices of a closed contour. -/
abbrev Polyline (α : Type) := List (Vertex α)

namespace Polyline
variable {α : Type}

/-- Each vertex with the next one, and the last with the first. -/
def sides (p : Polyline α) : List (Side α) :=
  (p.zip (p.tail ++ p.take 1)).map fun (v, w) => ⟨v.point, w.point, v.bulge⟩

variable [Scalar α]

/-- The contour that a loop of paths runs along. -/
def ofLoop (links : List (Link α)) : Polyline α := links.map Link.vertex

/-- Twice the signed area between a bent side and its chord. -/
def bow (s : Side α) : α :=
  let b := Quantity.abs s.bulge
  let chord := (s.stop - s.start).norm
  let radius := chord * ((b * b + 1.0) / (4.0 * b))
  let sector := 4.0 * Scalar.atan2 b 1.0 * radius * radius
  let area := sector - chord * (radius - b * chord / 2.0)
  if s.isClockwise then -area else area

/-- Twice the signed area inside a contour, positive if it runs counter-clockwise. -/
def doubleArea (p : Polyline α) : α :=
  p.sides.foldl (fun area s =>
    let area := area + (s.start.x * s.stop.y - s.start.y * s.stop.x)
    if s.isStraight then area else area + bow s) 0.0

def isClockwise (p : Polyline α) : Bool := p.doubleArea < 0.0

/-- A side as a line, or as an arc, which runs counter-clockwise also where the side does not. -/
def sidePath (s : Side α) : Path α :=
  if s.isStraight then .between s.start s.stop
  else
    let c := s.circle
    let a := c.center.direction s.start
    let b := c.center.direction s.stop
    .arc (if s.isClockwise then ⟨c.center, c.radius, b, a⟩ else ⟨c.center, c.radius, a, b⟩)

/-- The name of a side in the drawing of a contour. -/
def sideName (s : Side α) (i : Nat) : String := (if s.isStraight then "line" else "arc") ++ toString i

/-- The drawing of a contour. -/
def toModel (p : Polyline α) : Model α :=
  { paths := Named.ofEntries (p.sides.zipIdx.map fun (s, i) => (sideName s i, sidePath s)) }

end Polyline

end KeyboardPlate
