import KeyboardPlate.Geometry.Angle

/-!
# Points of the plane
-/

set_option autoImplicit false

namespace KeyboardPlate

structure Point (α : Type) where
  x : α
  y : α
deriving Repr, BEq, DecidableEq

namespace Point

section Quantity
variable {α : Type} [Quantity α]

def zero : Point α := ⟨0.0, 0.0⟩

def add (a b : Point α) : Point α := ⟨a.x + b.x, a.y + b.y⟩
def sub (a b : Point α) : Point α := ⟨a.x - b.x, a.y - b.y⟩

instance : Add (Point α) := ⟨add⟩
instance : Sub (Point α) := ⟨sub⟩

def scale (k : α) (a : Point α) : Point α := ⟨a.x * k, a.y * k⟩

def dot (a b : Point α) : α := a.x * b.x + a.y * b.y

/-- The signed area spanned by two vectors, positive if the second lies to the left of the first. -/
def cross (a b : Point α) : α := a.x * b.y - a.y * b.x

/-- The vector turned by a quarter to the left. -/
def left (a : Point α) : Point α := ⟨-a.y, a.x⟩

def middle (a b : Point α) : Point α := ⟨(a.x + b.x) / 2.0, (a.y + b.y) / 2.0⟩

/-- The point at a fraction of the way from `a` to `b`. -/
def along (a b : Point α) (t : α) : Point α := a + (b - a).scale t

/-- Whether both coordinates differ by less than the tolerance. -/
def isNear (tolerance : α) (a b : Point α) : Bool :=
  decide (Quantity.abs (a.x - b.x) < tolerance ∧ Quantity.abs (a.y - b.y) < tolerance)

def distanceSquared (a b : Point α) : α := (a - b).dot (a - b)

end Quantity

variable {α : Type} [Scalar α]

def norm (a : Point α) : α := Scalar.sqrt (a.dot a)

def distance (a b : Point α) : α := (a - b).norm

/-- The vector of length one in the same direction. -/
def unit (a : Point α) : Point α := a.scale (1.0 / a.norm)

/-- The direction from `center` to `p` in radians. -/
def bearing (center p : Point α) : α := Scalar.atan2 (p.y - center.y) (p.x - center.x)

/-- The point of a circle in the given direction. -/
def onCircle (center : Point α) (radius degrees : α) : Point α :=
  let (s, c) := sinCos degrees
  ⟨center.x + radius * c, center.y + radius * s⟩

/-- The point turned counter-clockwise about another. -/
def rotate (p : Point α) (degrees : α) (about : Point α) : Point α :=
  if degrees == 0.0 then p
  else
    let (s, c) := sinCos degrees
    let d := p - about
    ⟨about.x + d.x * c - d.y * s, about.y + d.x * s + d.y * c⟩

/-- The direction in which `p` is seen from `center`; a direction within `1e-9` of a quarter turn is
that quarter turn. -/
def direction (center p : Point α) : α :=
  let a := normalizeAngle (Scalar.toDegrees (center.bearing p))
  let quarter := Quantity.round (a / 90.0) * 90.0
  if Quantity.abs (a - quarter) < 1e-9 then normalizeAngle quarter else a

end Point

end KeyboardPlate
