import KeyboardPlate.Model.Basic

/-!
# Fillets in place

Where paths are kept in a store, a fillet cuts them back there and returns the arc. A step that stops with an
error does not take back what it has written before.
-/

set_option autoImplicit false

namespace KeyboardPlate

/-- A step that reads and writes a store, and may stop with an error on the way. -/
abbrev InPlace (σ ε : Type) := ExceptT ε (StateM σ)

/-- The result of a step, and the store after it. -/
def InPlace.runOn {σ ε β : Type} (step : InPlace σ ε β) (store : σ) : Except ε β × σ :=
  Id.run (step.run.run store)

variable {α : Type} [Scalar α]

/-- Cuts two paths back to make room for a fillet between them. -/
def Path.filletInPlace (radius : α) : InPlace (Path α × Path α) (GeometryError α) (Arc α) := do
  let (a, b) ← get
  let (l, k, rounding) ← a.fillet b radius
  modify fun (_, b) => (.line l, b)
  modify fun (a, _) => (a, .line k)
  return rounding

namespace Model

/-- A copy of the path of a name. -/
def pathNamed (name : String) : InPlace (Model α) (GeometryError α) (Path α) := do
  match Named.get? name (← get).paths with
  | some path => return path
  | none => throw (.missingPath name)

/-- Cuts copies of two named lines back to make room for a fillet between them, then puts them in place. -/
def filletInPlace (first second : String) (radius : α) : InPlace (Model α) (GeometryError α) (Arc α) := do
  let a ← pathNamed first
  let b ← pathNamed second
  let (result, a, b) := (Path.filletInPlace radius).runOn (a, b)
  let arc ← result
  modify fun m => m.addPath first a
  modify fun m => m.addPath second b
  return arc

end Model

end KeyboardPlate
