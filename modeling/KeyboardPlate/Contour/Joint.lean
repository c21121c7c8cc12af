import KeyboardPlate.Contour.Meeting
import KeyboardPlate.Contour.Polyline

/-!
# Moved sides and their joints

Every side of a contour is moved to its left on its own. Neighbours are then joined where they meet;
where they part, an arc about the vertex between them closes the gap. The result may still cross itself
and come too near to the contour.
-/

set_option autoImplicit false

namespace KeyboardPlate

namespace Contour
variable {α : Type}

/-- A side after its move. -/
structure MovedSide (α : Type) extends Side α where
  /-- Where the side stopped before the move. -/
  pivot : Point α
  /-- The side is what is left of an arc that the move has shrunk to nothing. -/
  isCollapsed : Bool

/-- The vertices joined so far, the newest first. -/
abbrev Trail (α : Type) := List (Vertex α)

namespace Trail
variable [Quantity α]

/-- Adds a vertex; one at the place of the newest vertex only takes over that vertex's bulge. -/
def push (p : Point α) (bulge : α) : Trail α → Trail α
  | [] => [⟨p, bulge⟩]
  | v :: rest => if same v.point p then ⟨v.point, bulge⟩ :: rest else ⟨p, bulge⟩ :: v :: rest

end Trail

variable [Scalar α]

/-- A side moved to its left by a distance. -/
def moveSide (distance : α) (s : Side α) : MovedSide α :=
  if s.isStraight then
    let shift := (s.stop - s.start).left.unit.scale distance
    ⟨⟨s.start + shift, s.stop + shift, 0.0⟩, s.stop, false⟩
  else
    let c := s.circle
    let growth := if s.isClockwise then distance else -distance
    let collapsed := decide (c.radius + growth < fuzz)
    let shifted (p : Point α) : Point α := p + (p - c.center).unit.scale growth
    ⟨⟨shifted s.start, shifted s.stop, if collapsed then 0.0 else s.bulge⟩, s.stop, collapsed⟩

/-- An arc about the pivot of `s` from the end of `s` to the start of `t`. -/
def joinByArc (clockwise : Bool) (s t : MovedSide α) (trail : Trail α) : Trail α :=
  let sweep := Scalar.turnAs clockwise (s.pivot.bearing s.stop) (s.pivot.bearing t.start)
  (trail.push s.stop (Scalar.bulge sweep)).push t.start t.bulge

/-- A straight line from the end of `s` to the start of `t`. -/
def joinByLine (s t : MovedSide α) (trail : Trail α) : Trail α :=
  (trail.push s.stop 0.0).push t.start t.bulge

/-- Cuts the newest arc, which stops at `stop`, back to a point of the circle about `center`. An arc that
would turn round keeps its bulge. -/
def trimNewest (stop center p : Point α) : Trail α → Trail α
  | [] => []
  | v :: rest =>
    let s : Side α := ⟨v.point, stop, v.bulge⟩
    if s.isStraight || same v.point stop then v :: rest
    else
      let sweep := Scalar.turn (s.circle.center.bearing v.point) (center.bearing p)
      if decide (0.0 < sweep) == decide (0.0 < v.bulge) then ⟨v.point, Scalar.bulge sweep⟩ :: rest
      else v :: rest

/-- Starts a bent side at a point of its circle. A side that would turn round keeps its bulge. -/
def pushTrimmed (t : Side α) (p : Point α) (trail : Trail α) : Trail α :=
  let center := t.circle.center
  let sweep := Scalar.turn (center.bearing p) (center.bearing t.stop)
  trail.push p (if decide (0.0 < sweep) == decide (0.0 < t.bulge) then Scalar.bulge sweep else t.bulge)

/-- The item nearest to a point; of two equally near ones the first. -/
def nearer {β : Type} (place : β → Point α) (p : Point α) (a b : β) : β :=
  if (place a).distanceSquared p < (place b).distanceSquared p + fuzz then a else b

/-- Whether a parameter lies off the line between its two points. -/
def isOff (t : α) : Bool := decide (t < 0.0 ∨ 1.0 < t)

/-- Joins two straight sides. -/
def joinStraight (clockwise : Bool) (s t : MovedSide α) (trail : Trail α) : Trail α :=
  if s.isCollapsed || t.isCollapsed then joinByArc clockwise s t trail
  else
    match meetLines s.start s.stop t.start t.stop with
    | .apart => (trail.push s.stop (if clockwise then -1.0 else 1.0)).push t.start t.bulge
    | .between u => trail.push (s.start.along s.stop u) 0.0
    | .along _ _ => trail.push s.stop 0.0
    | .outside u v =>
      if decide (1.0 < u) && isOff v then joinByArc clockwise s t trail else joinByLine s t trail

/-- Joins a straight side to a bent one. -/
def joinLineArc (clockwise : Bool) (s t : MovedSide α) (trail : Trail α) : Trail α :=
  let circle := t.circle
  let joinAt (u : α) : Trail α :=
    let p := s.start.along s.stop u
    let swept := t.sweeps circle.center p
    if !isOff u && swept then pushTrimmed t.toSide p trail
    else if decide (1.0 < u) && !swept || s.isCollapsed then joinByArc clockwise s t trail
    else joinByLine s t trail
  match meetCircle s.start s.stop circle with
  | [u] => joinAt u
  | [u, v] => joinAt (nearer (s.start.along s.stop) s.pivot u v)
  | _ => joinByArc clockwise s t trail

/-- Joins a bent side to a straight one. -/
def joinArcLine (clockwise : Bool) (s t : MovedSide α) (trail : Trail α) : Trail α :=
  let circle := s.circle
  let joinAt (u : α) : Trail α :=
    let p := t.start.along t.stop u
    if !isOff u && s.sweeps circle.center p then (trimNewest s.stop circle.center p trail).push p 0.0
    else joinByArc clockwise s t trail
  match meetCircle t.start t.stop circle with
  | [u] => joinAt u
  | [u, v] => joinAt (nearer (t.start.along t.stop) (if t.isCollapsed then t.start else s.pivot) u v)
  | _ => joinByArc clockwise s t trail

/-- Joins two bent sides. -/
def joinBent (clockwise : Bool) (s t : MovedSide α) (trail : Trail α) : Trail α :=
  let c := s.circle
  let d := t.circle
  let swept (p : Point α) : Bool := s.sweeps c.center p && t.sweeps d.center p
  let joinAt (p : Point α) : Trail α :=
    if swept p then pushTrimmed t.toSide p (trimNewest s.stop c.center p trail)
    else joinByArc clockwise s t trail
  match meetCircles c d with
  | .apart => joinByArc clockwise s t trail
  | .touching p => joinAt p
  | .crossing p q =>
    if Quantity.abs (p.distanceSquared s.pivot - q.distanceSquared s.pivot) < fuzz then
      joinAt (if swept p then p else q)
    else joinAt (nearer id s.pivot p q)
  | .equal =>
    if s.isClockwise == t.isClockwise then trail.push t.start t.bulge else joinByArc clockwise s t trail

/-- Joins a moved side to the next one. -/
def join (clockwise : Bool) (s t : MovedSide α) (trail : Trail α) : Trail α :=
  match s.isStraight, t.isStraight with
  | true, true => joinStraight clockwise s t trail
  | true, false => joinLineArc clockwise s t trail
  | false, true => joinArcLine clockwise s t trail
  | false, false => joinBent clockwise s t trail

/-- Joins each side of a list to the next one. -/
def joinAll (clockwise : Bool) : List (MovedSide α) → Trail α → Trail α
  | s :: t :: rest, trail => joinAll clockwise (t :: rest) (join clockwise s t trail)
  | _, trail => trail

/-- Moves the first vertex to a point of its side. -/
def moveFirst (p : Point α) : Polyline α → Polyline α
  | v :: w :: rest =>
    let s : Side α := ⟨v.point, w.point, v.bulge⟩
    if s.isStraight then ⟨p, 0.0⟩ :: w :: rest
    else
      let center := s.circle.center
      let sweep := Scalar.turn (center.bearing p) (center.bearing w.point)
      let turnsRound := decide (sweep < 0.0) && decide (0.0 < v.bulge) || decide (0.0 < sweep) && decide (v.bulge < 0.0)
      ⟨p, if turnsRound then v.bulge else Scalar.bulge sweep⟩ :: w :: rest
  | short => short

/-- Drops a first vertex at the place of the second one. -/
def pruneFirst : Polyline α → Polyline α
  | v :: w :: rest => if same v.point w.point then w :: rest else v :: w :: rest
  | p => p

/-- Drops a last vertex at the place of the first one. -/
def pruneLast (p : Polyline α) : Polyline α :=
  match p.head?, p.getLast? with
  | some v, some w => if decide (1 < p.length) && same v.point w.point then p.dropLast else p
  | _, _ => p

/-- Joins the last side to the first one. The first vertex is moved to that joint, unless the joint of
the first two sides has taken its place already. -/
def closeTrail (clockwise isFirstReplaced : Bool) (last first : MovedSide α) : Trail α → Polyline α
  | newest :: before =>
    match join clockwise last first [newest] with
    | v :: joint =>
      let p := (joint ++ before).reverse
      pruneLast (pruneFirst (if isFirstReplaced then p else moveFirst v.point p))
    | [] => []
  | [] => []

/-- A contour with all sides moved to their left by a distance and joined, or nothing if no more than a
point is left. -/
def moveSides (distance : α) (p : Polyline α) : Polyline α :=
  match p.sides.map (moveSide distance) with
  | first :: second :: rest =>
    let clockwise := !decide (distance < 0.0)
    let trail := join clockwise first second [⟨first.start, first.bulge⟩]
    let isFirstReplaced := trail.length == 1
    let trail := joinAll clockwise (second :: rest) trail
    let moved :=
      if trail.length ≤ 1 then trail
      else closeTrail clockwise isFirstReplaced ((second :: rest).getLast (by simp)) first trail
    if moved.length ≤ 1 then [] else moved
  | _ => []

end Contour

end KeyboardPlate
