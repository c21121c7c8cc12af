import KeyboardPlate.Contour.Slice

/-!
# Contours at a distance

The contours at a distance to the left of a contour are the kept slices of the moved contour, joined
end to start. A moved contour without cuts is kept whole or not at all.
-/

set_option autoImplicit false

namespace KeyboardPlate

namespace Contour
variable {α : Type}

section Quantity
variable [Quantity α]

/-- Slices whose ends are nearer than this follow each other. -/
def joinTolerance : α := 1e-4

def Slice.start? (s : Slice α) : Option (Point α) := s.vertices.head?.map (·.point)
def Slice.stop? (s : Slice α) : Option (Point α) := s.vertices.getLast?.map (·.point)

/-- Whether two points, if there are any, are near enough to join. -/
def joins : Option (Point α) → Option (Point α) → Bool
  | some p, some q => p.isNear joinTolerance q
  | _, _ => false

/-- How far a slice lies ahead of another along a contour whose last side is `last`. Of two equally far
slices, one that would close the contour comes second. -/
def rank (last : Nat) (start : Option (Point α)) (current candidate : Slice α) : Nat :=
  2 * (if current.index ≤ candidate.index then candidate.index - current.index
    else last - current.index + candidate.index) + if joins candidate.stop? start then 1 else 0

/-- The slice that follows another, and the other slices. -/
def takeNext (last : Nat) (start : Option (Point α)) (current : Slice α) (pending : List (Slice α)) :
    Option (Slice α × List (Slice α)) :=
  let followers := (pending.zipIdx).filter fun entry => joins current.stop? entry.1.start?
  let best := followers.foldl (fun best entry =>
    match best with
    | none => some entry
    | some chosen =>
      if rank last start current entry.1 < rank last start current chosen.1 then some entry
      else some chosen) none
  best.map fun (slice, i) => (slice, pending.eraseIdx i)

/-- Adds the vertices of a slice. A first vertex at the place of the last one takes that vertex over. -/
def append (joined vertices : List (Vertex α)) : List (Vertex α) :=
  match joined.getLast?, vertices with
  | some v, w :: rest =>
    if v.point.isNear joinTolerance w.point then joined.dropLast ++ ⟨v.point, w.bulge⟩ :: rest
    else joined ++ vertices
  | _, _ => joined ++ vertices

/-- Adds slice after slice, each in place of the last vertex of the one before. Each slice uses up one
of at most `fuel` pending ones. -/
def stitchFrom (last : Nat) (start : Option (Point α)) : (fuel : Nat) → (joined : List (Vertex α)) →
    (current : Slice α) → (pending : List (Slice α)) → List (Vertex α) × List (Slice α)
  | fuel, joined, current, pending =>
    let joined := append joined current.vertices
    match fuel, takeNext last start current pending with
    | fuel + 1, some (next, others) => stitchFrom last start fuel joined.dropLast next others
    | _, _ => (joined, pending)

/-- Drops a last vertex at the place of the first one. -/
def close (p : List (Vertex α)) : Polyline α :=
  match p.head?, p.getLast? with
  | some v, some w => if v.point.isNear joinTolerance w.point then p.dropLast else p
  | _, _ => p

/-- The contours that slices form, of which there are at most `fuel`. -/
def stitch (last : Nat) : (fuel : Nat) → List (Slice α) → List (Polyline α)
  | fuel + 1, first :: rest =>
    let (joined, others) := stitchFrom last first.start? rest.length [] first rest
    let contours := stitch last fuel others
    if joined.length ≤ 1 then contours else close joined :: contours
  | _, _ => []

end Quantity

variable [Scalar α]

/-- The contours at a distance to the left of a contour, or to its right if the distance is negative. -/
def offset (distance : α) (contour : Polyline α) : List (Polyline α) :=
  let moved := moveSides distance contour
  let sides := contour.sides
  let cut := cutSides moved.sides (moveSides (-distance) contour).sides
  if cut.all fun s => s.cuts.isEmpty then
    match moved with
    | [] => []
    | v :: _ => if keepsDistance sides distance v.point then [moved] else []
  else
    let slices := keptSlices sides distance cut
    stitch (contour.length - 1) slices.length slices

end Contour

end KeyboardPlate
