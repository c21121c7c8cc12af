import KeyboardPlate.Geometry.Path
import KeyboardPlate.Geometry.Error

/-!
# Closed loops of paths

Paths in any order and direction are linked into loops: from the end of the last link the first path
that starts or ends there is taken, until the end meets the start of the loop. Paths of no length are
left out; a path that nothing continues makes the whole set open.
-/

set_option autoImplicit false

namespace KeyboardPlate

/-- Ends nearer than this meet, and paths shorter than this have no length. -/
def chainTolerance {α : Type} [Quantity α] : α := 1e-6

/-- A path as a loop runs along it. -/
structure Link (α : Type) where
  path : Path α
  /-- The loop runs from the end of the path to its start. -/
  isReversed : Bool
deriving Repr, BEq, DecidableEq

namespace Link
variable {α : Type} [Scalar α]

/-- Where the loop enters and leaves the path. -/
def endpoints (l : Link α) : Point α × Point α :=
  let (a, b) := l.path.endpoints
  if l.isReversed then (b, a) else (a, b)

end Link

namespace Chain
variable {α : Type} [Scalar α]

def meets (a b : Point α) : Bool := a.distance b < chainTolerance

/-- Whether a path starts or ends at a point. -/
def touches (p : Point α) (path : Path α) : Bool :=
  meets path.endpoints.1 p || meets path.endpoints.2 p

/-- The first path that touches a point, and the other paths. -/
def takeTouching (p : Point α) : List (Path α) → Option (Path α × List (Path α))
  | [] => none
  | path :: rest =>
    if touches p path then some (path, rest)
    else (takeTouching p rest).map fun (found, others) => (found, path :: others)

/-- Runs along a path that touches a point, away from that point. -/
def linkFrom (p : Point α) (path : Path α) : Link α :=
  ⟨path, decide (chainTolerance ≤ path.endpoints.1.distance p)⟩

/-- The links from the point `tip` on until the loop meets `start` again, and the paths not used. Each
link uses up one of at most `fuel` paths. -/
def follow (start : Point α) : (fuel : Nat) → (tip : Point α) → List (Path α) →
    Except (GeometryError α) (List (Link α) × List (Path α))
  | fuel, tip, pending =>
    if chainTolerance ≤ tip.distance start then
      match fuel, takeTouching tip pending with
      | fuel + 1, some (path, rest) => do
        let link := linkFrom tip path
        let (links, others) ← follow start fuel link.endpoints.2 rest
        return (link :: links, others)
      | _, _ => .error (.openChain tip)
    else .ok ([], pending)

/-- The loops of some paths, of which there are at most `fuel`. -/
def loopsOf : (fuel : Nat) → List (Path α) → Except (GeometryError α) (List (List (Link α)))
  | fuel + 1, first :: rest => do
    let (links, others) ← follow first.endpoints.1 rest.length first.endpoints.2 rest
    let loops ← loopsOf fuel others
    return (⟨first, false⟩ :: links) :: loops
  | _, _ => .ok []

/-- The paths that have a length. -/
def kept (paths : List (Path α)) : List (Path α) :=
  paths.filter fun path => chainTolerance ≤ path.length

end Chain

/-- The loops that some paths form. -/
def findLoops {α : Type} [Scalar α] (paths : List (Path α)) :
    Except (GeometryError α) (List (List (Link α))) :=
  let pending := Chain.kept paths
  Chain.loopsOf pending.length pending

end KeyboardPlate
