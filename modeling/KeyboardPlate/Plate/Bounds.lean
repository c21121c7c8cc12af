import KeyboardPlate.Key
import KeyboardPlate.Options.Basic

/-!
# Bounds

The bounds of a key are its rectangle of key units in millimetres, upright whatever the key's angle. The
bounds of several keys are the smallest rectangle around theirs.
-/

set_option autoImplicit false

namespace KeyboardPlate

structure Bounds where
  minX : Decimal
  maxX : Decimal
  minY : Decimal
  maxY : Decimal
deriving DecidableEq

namespace Bounds

/-- The bounds of a key, if its sides have decimals. -/
def ofKey? (k : Key) (o : Options) : Option Bounds := do
  let x ← k.centerX.mul? o.unitWidth
  let y ← k.centerY.mul? o.unitHeight
  let halfWidth ← (← k.width.mul? o.unitWidth).half?
  let halfHeight ← (← k.height.mul? o.unitHeight).half?
  return {
    minX := ← x.sub? halfWidth
    maxX := ← x.add? halfWidth
    minY := ← y.sub? halfHeight
    maxY := ← y.add? halfHeight }

/-- The smallest bounds around two. -/
def merge (a b : Bounds) : Bounds :=
  ⟨a.minX.least b.minX, a.maxX.greatest b.maxX, a.minY.least b.minY, a.maxY.greatest b.maxY⟩

/-- The smallest bounds around all of a list, if it is not empty. -/
def union? : List Bounds → Option Bounds
  | [] => none
  | b :: rest => some (rest.foldl merge b)

def width? (b : Bounds) : Option Decimal := b.maxX.sub? b.minX
def height? (b : Bounds) : Option Decimal := b.maxY.sub? b.minY

end Bounds

end KeyboardPlate
