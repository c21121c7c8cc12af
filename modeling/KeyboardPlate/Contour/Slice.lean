import KeyboardPlate.Contour.Joint

/-!
# Slices of moved contours

A moved contour is cut where it crosses itself and where it crosses the same contour moved to the other
side. Between two cuts it is either nowhere or everywhere too near to the contour it comes from, and
the slices that keep their distance are kept.
-/

set_option autoImplicit false

namespace KeyboardPlate

namespace Contour
variable {α : Type} [Scalar α]

/-- How much nearer than asked for a point may come. -/
def distanceTolerance : α := 1e-4

/-- Whether a point keeps its distance from all sides of a contour. -/
def keepsDistance (contour : List (Side α)) (distance : α) (p : Point α) : Bool :=
  let least := Quantity.abs distance - distanceTolerance
  decide (least < 0.0) || contour.all fun s => decide (least * least < (s.nearest p).distanceSquared p)

/-- Whether a side has no point in common with a contour. -/
def isClear (contour : List (Side α)) (s : Side α) : Bool :=
  contour.all fun t => (meet s t).isApart

/-- A side with the points at which it is cut, in order. -/
structure CutSide (α : Type) where
  side : Side α
  cuts : List (Point α)

/-- The vertices from one cut to the next, and the side on which the first cut lies. -/
structure Slice (α : Type) where
  index : Nat
  vertices : List (Vertex α)

/-- Where a side meets the next one, other than at the vertex between them. -/
def neighbourCuts (s t : Side α) : List (Point α) :=
  if same s.start s.stop then []
  else ((meet s t).crossings).filter fun p => !same p s.stop

/-- Where two sides meet that are no neighbours. Their stops are left to the sides that start there. -/
def remoteCuts (s t : Side α) : List (Point α) :=
  ((meet s t).crossings).filter fun p => !same s.stop p && !same t.stop p

/-- Where a side meets one of another contour. A stop is left to the side that starts there. -/
def dualCuts (s t : Side α) : List (Point α) :=
  match meet s t with
  | .points ps => ps.filter fun p => !same s.stop p && !same t.stop p
  | .overlap p q => [p, q]

/-- The cuts that sides `i` and `j` of a contour of `count` sides make in each other. -/
def selfCuts (count i j : Nat) (s t : Side α) : List (Point α) :=
  if i = j ∨ count < 3 then []
  else if (i + 1) % count = j then neighbourCuts s t
  else if (j + 1) % count = i then neighbourCuts t s
  else if i < j then remoteCuts s t
  else remoteCuts t s

/-- The sides of a moved contour with all cuts that it and another contour make in them. -/
def cutSides (moved dual : List (Side α)) : List (CutSide α) :=
  moved.zipIdx.map fun (s, i) =>
    let own := moved.zipIdx.flatMap fun (t, j) => selfCuts moved.length i j s t
    let cuts := own ++ dual.flatMap (dualCuts s)
    ⟨s, cuts.mergeSort fun p q => decide (p.distanceSquared s.start ≤ q.distanceSquared s.start)⟩

/-- Whether a part of a side between two cuts is kept. -/
def isKept (contour : List (Side α)) (distance : α) (s : Side α) : Bool :=
  keepsDistance contour distance s.start && keepsDistance contour distance s.stop &&
    keepsDistance contour distance s.middle && isClear contour s

/-- The kept slices between the cuts of one side, from the part that starts at the first cut on. -/
def innerSlices (contour : List (Side α)) (distance : α) (index : Nat) : Side α → List (Point α) → List (Slice α)
  | _, [] => []
  | rest, cut :: cuts =>
    let (before, after) := rest.split cut
    let slices := innerSlices contour distance index after cuts
    if same before.start after.start || !isKept contour distance before then slices
    else ⟨index, [⟨before.start, before.bulge⟩, ⟨after.start, 0.0⟩]⟩ :: slices

/-- Continues a slice through the vertices ahead to the next cut, if it keeps its distance all the way. -/
def extendSlice (contour : List (Side α)) (distance : α) : Trail α → List (CutSide α) → Option (Trail α)
  | newest :: before, ⟨s, cuts⟩ :: ahead =>
    if !keepsDistance contour distance s.start || !isClear contour ⟨newest.point, s.start, newest.bulge⟩ then none
    else
      match Trail.push s.start s.bulge (newest :: before), cuts with
      | v :: before, cut :: _ =>
        let (part, rest) := (Side.mk v.point s.stop v.bulge).split cut
        if keepsDistance contour distance cut && keepsDistance contour distance part.middle && isClear contour part then
          some (Trail.push rest.start 0.0 (⟨part.start, part.bulge⟩ :: before))
        else none
      | trail, [] => extendSlice contour distance trail ahead
      | [], _ => none
  | _, _ => none

/-- The kept slice from the last cut of a side on; `ahead` are the sides that follow it, all round. -/
def outerSlice (contour : List (Side α)) (distance : α) (index : Nat) (s : Side α) (cut : Point α)
    (ahead : List (CutSide α)) : List (Slice α) :=
  let (_, rest) := s.split cut
  if keepsDistance contour distance cut then
    match extendSlice contour distance [⟨rest.start, rest.bulge⟩] ahead with
    | some trail => if 1 < trail.length then [⟨index, trail.reverse⟩] else []
    | none => []
  else []

/-- All kept slices that start on a side. -/
def slicesFrom (contour : List (Side α)) (distance : α) (sides : List (CutSide α)) (index : Nat) (s : CutSide α) :
    List (Slice α) :=
  match s.cuts with
  | [] => []
  | first :: others =>
    innerSlices contour distance index (s.side.split first).2 others ++
      outerSlice contour distance index s.side (others.getLastD first)
        (sides.drop (index + 1) ++ sides.take (index + 1))

/-- All kept slices, in the order of the sides they start on. -/
def keptSlices (contour : List (Side α)) (distance : α) (sides : List (CutSide α)) : List (Slice α) :=
  sides.zipIdx.flatMap fun (s, i) => slicesFrom contour distance sides i s

end Contour

end KeyboardPlate
