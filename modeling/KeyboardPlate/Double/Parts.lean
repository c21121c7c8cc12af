/-!
# The parts of a double

A finite double is a sign, an integer below `2 ^ 53` and a power of two. The remainder of a division
is taken on those parts, so that it is exact.
-/

set_option autoImplicit false

namespace KeyboardPlate.Double

/-- The number `± m · 2 ^ q`; `even` tells that it is the first double with its power of two and not
the smallest one, so that its lower neighbour is half as far away as the upper one. -/
structure Parts where
  negative : Bool
  m : Nat
  q : Int
  even : Bool

/-- The parts of a finite double. -/
def parts? (x : Float) : Option Parts :=
  let bits : Nat := x.toBits.toNat
  let exponent : Nat := bits / 4503599627370496 % 2048
  let fraction : Nat := bits % 4503599627370496
  let negative := decide (9223372036854775808 ≤ bits)
  if exponent = 2047 then none
  else if exponent = 0 then some ⟨negative, fraction, -1074, false⟩
  else some ⟨negative, 4503599627370496 + fraction, (exponent : Int) - 1075, fraction == 0 && decide (1 < exponent)⟩

/-- What is left of `x` after whole multiples of `y`, with the sign of `x`. -/
def remainder (x y : Float) : Float :=
  match parts? x, parts? y with
  | some a, some b =>
    if b.m = 0 then 0.0 / 0.0
    else if x.abs < y.abs then x
    else
      let q := min a.q b.q
      let r := (a.m * Nat.pow 2 (a.q - q).toNat) % (b.m * Nat.pow 2 (b.q - q).toNat)
      let magnitude := (Float.ofNat r).scaleB q
      if a.negative then -magnitude else magnitude
  | some _, none => if y.isNaN then y else x
  | none, _ => 0.0 / 0.0

end KeyboardPlate.Double
