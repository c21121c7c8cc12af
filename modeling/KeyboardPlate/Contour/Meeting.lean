import KeyboardPlate.Contour.Side

/-!
# Where sides meet

Lines and circles are intersected with a tolerance, so that what only touches up to rounding still
meets. Sides meet where their lines or circles do, within both of them.
-/

set_option autoImplicit false

namespace KeyboardPlate

namespace Contour
variable {α : Type}

/-- How two lines given by two points each meet; parameters run from 0 to 1 between the two points. -/
inductive LineMeeting (α : Type) where
  | apart
  /-- The lines cross between both pairs of points, at this parameter of the first line. -/
  | between (t : α)
  /-- The lines cross elsewhere, at these parameters of the first and of the second line. -/
  | outside (t u : α)
  /-- The lines run along each other between these parameters of the second line. -/
  | along (u v : α)

/-- How two circles meet. -/
inductive CircleMeeting (α : Type) where
  | apart
  | touching (p : Point α)
  | crossing (p q : Point α)
  | equal

section Quantity
variable [Quantity α]

/-- Whether a parameter lies between 0 and 1, up to rounding. -/
def isBetween (t : α) : Bool := decide (-fuzz < t ∧ t < 1.0 + fuzz)

/-- The parameter of a point of a line. -/
def parameter (tolerance : α) (a b p : Point α) : α :=
  if Quantity.abs (b.x - a.x) < tolerance then (p.y - a.y) / (b.y - a.y) else (p.x - a.x) / (b.x - a.x)

/-- How two lines on one carrier meet. -/
def meetCollinear (a b c d : Point α) : LineMeeting α :=
  let direction := d - c
  let position (p : Point α) : α :=
    if Quantity.abs direction.x < fuzz then (p.y - c.y) / direction.y else (p.x - c.x) / direction.x
  let (u, v) := if position b < position a then (position b, position a) else (position a, position b)
  if !decide (u < 1.0 + fuzz) || !decide (-fuzz < v) then .apart
  else
    let u := if u < 0.0 then 0.0 else u
    let v := if 1.0 < v then 1.0 else v
    if Quantity.abs (v - u) < fuzz then .between (if same a c || same a d then 0.0 else 1.0) else .along u v

/-- How a point meets the line between two points. -/
def meetPoint (p c d : Point α) : Bool :=
  isBetween (parameter pointTolerance c d p)

/-- How the line from `a` to `b` meets the line from `c` to `d`. -/
def meetLines (a b c d : Point α) : LineMeeting α :=
  let v := b - a
  let u := d - c
  let w := a - c
  let area := v.cross u
  if Quantity.abs area < fuzz then
    if fuzz ≤ Quantity.abs (v.cross w) ∨ fuzz ≤ Quantity.abs (u.cross w) then .apart
    else
      match same a b, same c d with
      | true, true => if same a c then .between 0.0 else .apart
      | true, false => if meetPoint a c d then .between 0.0 else .apart
      | false, true => if meetPoint c a b then .between (parameter pointTolerance a b c) else .apart
      | false, false => meetCollinear a b c d
  else
    let t := u.cross w / area
    let s := v.cross w / area
    if isBetween t && isBetween s then .between t else .outside t s

end Quantity

variable [Scalar α]

/-- The parameters, in order, at which the line from `a` to `b` meets a circle. -/
def meetCircle (a b : Point α) (circle : Circle α) : List α :=
  let d := b - a
  if Quantity.abs d.x < pointTolerance ∧ Quantity.abs d.y < pointTolerance then
    let m := a.middle b - circle.center
    if Quantity.abs (m.dot m - circle.radius * circle.radius) < fuzz then [0.0] else []
  else
    let p := a - circle.center
    let q := b - circle.center
    let (n, offset) : Point α × α :=
      if Quantity.abs d.x < pointTolerance then (⟨1.0, 0.0⟩, -((q.x + p.x) / 2.0))
      else
        let slope := d.y / d.x
        (⟨slope, -1.0⟩, q.y - slope * q.x)
    let square := n.dot n
    let distance := Quantity.abs offset / Scalar.sqrt square
    let foot : Point α :=
      ⟨-(n.x * offset) / square + circle.center.x, -(n.y * offset) / square + circle.center.y⟩
    let position (p : Point α) : α := parameter pointTolerance a b p
    if circle.radius + pointTolerance < distance then []
    else if Quantity.abs (distance - circle.radius) < pointTolerance then [position foot]
    else
      let reach := Scalar.sqrt ((circle.radius * circle.radius - offset * offset / square) / square)
      let t := position ⟨foot.x + n.y * reach, foot.y - n.x * reach⟩
      let u := position ⟨foot.x - n.y * reach, foot.y + n.x * reach⟩
      if u < t then [u, t] else [t, u]

/-- How two circles meet. -/
def meetCircles (c d : Circle α) : CircleMeeting α :=
  let v := d.center - c.center
  let distance := v.norm
  if Quantity.abs distance < pointTolerance then
    if Quantity.abs (c.radius - d.radius) < pointTolerance then .equal else .apart
  else if c.radius + d.radius + pointTolerance ≤ distance ∨
      distance + pointTolerance ≤ Quantity.abs (c.radius - d.radius) then .apart
  else
    let square := c.radius * c.radius
    let a := (square - d.radius * d.radius + v.dot v) / (2.0 * distance)
    let middle := c.center + v.scale (a / distance)
    let rest := square - a * a
    if rest < 0.0 then .touching middle
    else
      let k := Scalar.sqrt rest / distance
      let p : Point α := ⟨middle.x + k * v.y, middle.y - k * v.x⟩
      let q : Point α := ⟨middle.x - k * v.y, middle.y + k * v.x⟩
      if same p q then .touching p else .crossing p q

/-- What two sides have in common. -/
inductive SideMeeting (α : Type) where
  | points (points : List (Point α))
  | overlap (p q : Point α)

namespace SideMeeting

def isApart : SideMeeting α → Bool
  | points ps => ps.isEmpty
  | overlap _ _ => false

/-- The points where the sides meet, or where their overlap starts and stops. -/
def ends : SideMeeting α → List (Point α)
  | points ps => ps
  | overlap p q => [p, q]

/-- The points where the sides cross, none if they overlap. -/
def crossings : SideMeeting α → List (Point α)
  | points ps => ps
  | overlap _ _ => []

end SideMeeting

/-- Where a straight side and a bent one meet. -/
def meetBent (line bent : Side α) : SideMeeting α :=
  let circle := bent.circle
  .points <| ((meetCircle line.start line.stop circle).filter isBetween).filterMap fun t =>
    let p := line.start.along line.stop t
    if bent.sweeps circle.center p then some p else none

/-- Whether a bearing lies within a sweep from another bearing. -/
def sweepHolds (start sweep bearing : α) : Bool :=
  let full : α := Scalar.pi + Scalar.pi
  let reduce (x : α) : α := if x < 0.0 then x + full else x
  let ahead := if sweep < 0.0 then reduce (start - bearing) else reduce (bearing - start)
  decide (ahead < Quantity.abs sweep + fuzz) || decide (full - fuzz < ahead)

/-- Where two sides on one circle meet. -/
def meetSameCircle (s t : Side α) (center : Point α) : SideMeeting α :=
  let t : Side α := if s.isClockwise == t.isClockwise then t else ⟨t.stop, t.start, -t.bulge⟩
  let start (r : Side α) : α := center.bearing r.start
  let sweep (r : Side α) : α := 4.0 * Scalar.atan2 r.bulge 1.0
  let holds (r : Side α) (p : Point α) : Bool := sweepHolds (start r) (sweep r) (center.bearing p)
  if s.start.isNear fuzz t.stop then .points [s.start]
  else if t.start.isNear fuzz s.stop then .points [t.start]
  else
    match holds s t.start, holds s t.stop with
    | true, true => .overlap t.start t.stop
    | true, false => .overlap t.start s.stop
    | false, true => .overlap s.start t.stop
    | false, false => if holds t s.start then .overlap s.start s.stop else .points []

/-- Where two bent sides meet. -/
def meetBoth (s t : Side α) : SideMeeting α :=
  let c := s.circle
  let d := t.circle
  let within (ps : List (Point α)) : SideMeeting α :=
    .points (ps.filter fun p => s.sweeps c.center p && t.sweeps d.center p)
  match meetCircles c d with
  | .apart => .points []
  | .touching p => within [p]
  | .crossing p q => within [p, q]
  | .equal => meetSameCircle s t c.center

/-- Where two sides meet. -/
def meet (s t : Side α) : SideMeeting α :=
  match s.isStraight, t.isStraight with
  | true, true =>
    match meetLines s.start s.stop t.start t.stop with
    | .between u => .points [s.start.along s.stop u]
    | .along u v => .overlap (t.start.along t.stop u) (t.start.along t.stop v)
    | _ => .points []
  | true, false => meetBent s t
  | false, true => meetBent t s
  | false, false => meetBoth s t

end Contour

end KeyboardPlate
