import KeyboardPlate.Double.Parts
import KeyboardPlate.Double.Reading

/-!
# The numbers a drawing is made of

Geometry is written over any type of numbers with the operations below. Programs run it over doubles;
over exact numbers the same definitions say what the drawing means.
-/

set_option autoImplicit false

namespace KeyboardPlate

/-- Ordered arithmetic with the remainder of a truncated division and rounding to whole numbers. -/
class Quantity (α : Type) extends Add α, Sub α, Mul α, Div α, Neg α, OfScientific α, LT α, LE α, BEq α where
  decidableLT (a b : α) : Decidable (a < b)
  decidableLE (a b : α) : Decidable (a ≤ b)
  /-- What is left of the first number after whole multiples of the second, with the first's sign. -/
  remainder : α → α → α
  /-- The nearest whole number, away from zero on a tie. -/
  round : α → α

attribute [reducible, instance] Quantity.decidableLT Quantity.decidableLE

/-- Numbers with roots and angles in radians. -/
class Scalar (α : Type) extends Quantity α where
  sqrt : α → α
  sin : α → α
  cos : α → α
  tan : α → α
  asin : α → α
  acos : α → α
  /-- The direction of the point with the given ordinate and abscissa. -/
  atan2 : α → α → α
  radiansPerDegree : α
  degreesPerRadian : α
  ofDecimal : Decimal → α
  isFinite : α → Bool

instance : Quantity Float where
  decidableLT _ _ := inferInstance
  decidableLE _ _ := inferInstance
  remainder := Double.remainder
  round := Float.round

instance : Scalar Float where
  sqrt := Float.sqrt
  sin := Float.sin
  cos := Float.cos
  tan := Float.tan
  asin := Float.asin
  acos := Float.acos
  atan2 := Float.atan2
  radiansPerDegree := 3.141592653589793 / 180.0
  degreesPerRadian := 57.2957795130823208767981548141051703
  ofDecimal := Decimal.toDouble
  isFinite := Float.isFinite

namespace Quantity
variable {α : Type} [Quantity α]

def abs (x : α) : α := if x < 0.0 then -x else x

/-- The smaller number, or the one that is a number at all. -/
def least (a b : α) : α := if a ≤ b then a else if b == b then b else a

/-- The larger number, or the one that is a number at all. -/
def greatest (a b : α) : α := if b ≤ a then a else if b == b then b else a

/-- The nearest number between `low` and `high`. -/
def clamp (low high x : α) : α := if x < low then low else if high < x then high else x

end Quantity

namespace Scalar
variable {α : Type} [Scalar α]

def toRadians (degrees : α) : α := degrees * radiansPerDegree
def toDegrees (radians : α) : α := radians * degreesPerRadian

end Scalar

end KeyboardPlate
