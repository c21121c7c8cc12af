import KeyboardPlate.Geometry.Path
import KeyboardPlate.Geometry.Error

/-!
# Fillets

A fillet rounds the joint of two lines: both are cut back to the points where an arc of the given
radius touches them, and the arc is drawn between those points on its shorter side.
-/

set_option autoImplicit false

namespace KeyboardPlate

/-- One of the two ends of a line. -/
inductive End where
  | start
  | stop
deriving DecidableEq

/-- Two points nearer than this are one joint; a fillet may overrun a line by as much. -/
def jointTolerance {α : Type} [Quantity α] : α := 1e-6

namespace Line
variable {α : Type}

def point (l : Line α) : End → Point α
  | .start => l.start
  | .stop => l.stop

def far (l : Line α) : End → Point α
  | .start => l.stop
  | .stop => l.start

def withEnd (l : Line α) (p : Point α) : End → Line α
  | .start => { l with start := p }
  | .stop => { l with stop := p }

variable [Scalar α]

/-- The first pair of ends that meet. -/
def joint? (a b : Line α) : Option (End × End) :=
  [(.start, .start), (.start, .stop), (.stop, .start), (.stop, .stop)].find? fun (e, f) =>
    (a.point e).distance (b.point f) < jointTolerance

/-- How far along both lines the arc starts, and its center, for unit directions away from `corner`. -/
def tangency (corner u v : Point α) (radius : α) : α × Point α :=
  let dot := u.dot v
  if Quantity.abs dot < 1e-12 then
    (radius, ⟨corner.x + (u.x + v.x) * radius, corner.y + (u.y + v.y) * radius⟩)
  else
    let angle := Scalar.acos (Quantity.clamp (-1.0) 1.0 dot)
    let trim := radius / Scalar.tan (angle / 2.0)
    let bisector := u + v
    let length := bisector.norm
    let reach := Scalar.sqrt (trim * trim + radius * radius)
    (trim, ⟨corner.x + bisector.x / length * reach, corner.y + bisector.y / length * reach⟩)

/-- The arc about `center` between two points of its circle, on the side of at most half a turn. -/
def shorterArc (center : Point α) (radius : α) (p q : Point α) : Arc α :=
  let a := center.direction p
  let b := center.direction q
  if sweep a b ≤ 180.0 then ⟨center, radius, a, b⟩ else ⟨center, radius, b, a⟩

/-- The two lines cut back, and the arc between them. -/
def fillet (a b : Line α) (radius : α) : Except (GeometryError α) (Line α × Line α × Arc α) :=
  match a.joint? b with
  | none => .error .disconnected
  | some (e, f) =>
    let corner := a.point e
    let lengthA := corner.distance (a.far e)
    let lengthB := corner.distance (b.far f)
    if lengthA < jointTolerance ∨ lengthB < jointTolerance then .error .disconnected
    else
      let u := (a.far e - corner).scale (1.0 / lengthA)
      let v := (b.far f - corner).scale (1.0 / lengthB)
      if Quantity.abs (u.cross v) < 1e-12 then .error .parallelLines
      else
        let (trim, center) := tangency corner u v radius
        if lengthA + jointTolerance < trim ∨ lengthB + jointTolerance < trim then
          .error (.filletDoesNotFit radius)
        else
          let p : Point α := ⟨corner.x + u.x * trim, corner.y + u.y * trim⟩
          let q : Point α := ⟨corner.x + v.x * trim, corner.y + v.y * trim⟩
          .ok (a.withEnd p e, b.withEnd q f, shorterArc center radius p q)

end Line

/-- A fillet between two paths, which both have to be lines; the radius is looked at first. -/
def Path.fillet {α : Type} [Scalar α] (a b : Path α) (radius : α) :
    Except (GeometryError α) (Line α × Line α × Arc α) :=
  if radius ≤ 0.0 then .error (.filletDoesNotFit radius)
  else
    match a, b with
    | .line l, .line m => l.fillet m radius
    | _, _ => .error .unsupportedFilletPath

end KeyboardPlate
