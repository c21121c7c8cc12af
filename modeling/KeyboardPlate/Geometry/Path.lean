import KeyboardPlate.Geometry.Point

/-!
# Lines and arcs

A path is a line, or an arc that runs counter-clockwise from its start angle to its end angle.
-/

set_option autoImplicit false

namespace KeyboardPlate

structure Line (α : Type) where
  start : Point α
  stop : Point α
deriving Repr, BEq, DecidableEq

structure Arc (α : Type) where
  center : Point α
  radius : α
  startAngle : α
  endAngle : α
deriving Repr, BEq, DecidableEq

inductive Path (α : Type) where
  | line (line : Line α)
  | arc (arc : Arc α)
deriving Repr, BEq, DecidableEq

/-- The path between two points. -/
abbrev Path.between {α : Type} (start stop : Point α) : Path α := .line ⟨start, stop⟩

namespace Arc
variable {α : Type} [Scalar α]

/-- The sweep of the arc in degrees. -/
def span (a : Arc α) : α := sweep a.startAngle a.endAngle

def start (a : Arc α) : Point α := a.center.onCircle a.radius a.startAngle
def stop (a : Arc α) : Point α := a.center.onCircle a.radius a.endAngle

end Arc

namespace Path
variable {α : Type}

def isArc : Path α → Bool
  | line _ => false
  | arc _ => true

section Scalar
variable [Scalar α]

/-- The points where the path starts and stops. -/
def endpoints : Path α → Point α × Point α
  | line l => (l.start, l.stop)
  | arc a => (a.start, a.stop)

/-- The sweep in degrees; a line has none. -/
def span : Path α → α
  | line _ => 0.0
  | arc a => a.span

def length : Path α → α
  | line l => l.start.distance l.stop
  | arc a => a.radius * Scalar.toRadians a.span

def rotate (degrees : α) (about : Point α) : Path α → Path α
  | line l => line ⟨l.start.rotate degrees about, l.stop.rotate degrees about⟩
  | arc a => arc ⟨a.center.rotate degrees about, a.radius, a.startAngle + degrees, a.endAngle + degrees⟩

end Scalar

def move [Quantity α] (delta : Point α) : Path α → Path α
  | line l => line ⟨l.start + delta, l.stop + delta⟩
  | arc a => arc { a with center := a.center + delta }

end Path

end KeyboardPlate
