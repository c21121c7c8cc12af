import KeyboardPlate.Decimal.Functions

/-!
# Doubles from decimals

A decimal numeral is read as the nearest double. A `Decimal` is converted by halves: whole part and
fraction apart, then rounded once more to its own number of places.
-/

set_option autoImplicit false

namespace KeyboardPlate

namespace Double

/-- The double nearest to `m · 10 ^ e`. Powers far outside the range of doubles are not computed. -/
def ofScientific (m : Nat) (e : Int) : Float :=
  if m = 0 then 0.0
  else
    let size := (m.log2 : Int) + 3 * e
    if e < 0 ∧ size < -1200 then 0.0
    else if 0 < e ∧ 1100 < size then 1.0 / 0.0
    else Float.ofScientific m (decide (e < 0)) e.natAbs

end Double

/-- The double that stands for a decimal in a drawing. -/
def Decimal.toDouble (a : Decimal) : Float :=
  let signed (x : Float) : Float := if a.negative then -x else x
  if a.scale = 0 then
    if a.isZero then 0.0 else signed (Float.ofNat a.mantissa)
  else
    let power := Nat.pow 10 a.scale
    let whole := Float.ofNat (a.mantissa / power)
    let fraction := Float.ofNat (a.mantissa % power) / Float.ofNat power
    if fraction == 0.0 then signed whole
    else signed (((whole + fraction) * Float.ofNat power).round / Float.ofNat power)

end KeyboardPlate
