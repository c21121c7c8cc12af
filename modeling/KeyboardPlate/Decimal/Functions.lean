import KeyboardPlate.Decimal.Basic

/-!
# Roots and angles of decimals

The square root is found by Newton's iteration. Sine and cosine are Taylor sums of fourteen terms for
angles of at most an eighth of a turn; any other angle is first brought there, with the 28-digit
constants below.
-/

set_option autoImplicit false

namespace KeyboardPlate.Decimal

def pi : Decimal := ⟨false, 31415926535897932384626433833, 28, by decide, by decide⟩
def turn : Decimal := ⟨false, 62831853071795864769252867666, 28, by decide, by decide⟩
def quarterTurn : Decimal := ⟨false, 15707963267948966192313216916, 28, by decide, by decide⟩
def eighthTurn : Decimal := ⟨false, 7853981633974483096156608458, 28, by decide, by decide⟩

/-- A whole number as a decimal. -/
def ofNat? (n : Nat) : Option Decimal := fit? false n 0

def factorial : Nat → Nat
  | 0 => 1
  | n + 1 => (n + 1) * factorial n

/-- The term `x ^ n / n!`. -/
def seriesTerm? (x : Decimal) (n : Nat) : Option Decimal := do
  (← x.pow? n).div? (← ofNat? (factorial n))

/-- The sum of the terms of the given degrees, with alternating signs. -/
def seriesSum? (x : Decimal) (degrees : List Nat) : Option Decimal :=
  (degrees.zipIdx).foldlM (fun sum (n, i) => do
    let term ← seriesTerm? x n
    if i % 2 = 0 then sum.add? term else sum.sub? term) zero

def terms : Nat := 14

/-- The Taylor sum of the sine. Its terms stay in range for the angles it is used for. -/
def smallSin (x : Decimal) : Decimal :=
  (seriesSum? x ((List.range terms).map fun n => 2 * n + 1)).getD zero

/-- The Taylor sum of the cosine. -/
def smallCos (x : Decimal) : Decimal :=
  (seriesSum? x ((List.range terms).map (2 * ·))).getD one

/-- The difference of two angles of at most one turn, which always fits. -/
def angleDifference (x y : Decimal) : Decimal := (x.sub? y).getD zero

/-- The sine of an angle of at most a quarter turn, which may be negative. -/
def quarterSin (x : Decimal) : Decimal :=
  if x.isZero then zero
  else
    let y := if x.negative then -x else x
    let s := if eighthTurn < y then smallCos (angleDifference quarterTurn y) else smallSin y
    if x.negative then -s else s

/-- The cosine of an angle of at most a quarter turn, which may be negative. -/
def quarterCos (x : Decimal) : Decimal :=
  if x.isZero then one
  else
    let y := if x.negative then -x else x
    if eighthTurn < y then smallSin (angleDifference quarterTurn y) else smallCos y

/-- The sine of an angle of at most half a turn. -/
def halfSin (x : Decimal) : Decimal :=
  if eighthTurn < x then quarterCos (angleDifference quarterTurn x) else quarterSin x

/-- The cosine of an angle of at most half a turn. -/
def halfCos (x : Decimal) : Decimal :=
  if eighthTurn < x then quarterSin (angleDifference quarterTurn x) else quarterCos x

/-- A non-negative angle less its whole turns. -/
def withinTurn (x : Decimal) : Decimal := if turn ≤ x then (x.rem? turn).getD zero else x

/-- The sine of an angle in radians. -/
def sin (x : Decimal) : Decimal :=
  let y := withinTurn (if x.negative then -x else x)
  let s := if pi ≤ y then -halfSin (angleDifference y pi) else halfSin y
  if x.negative then -s else s

/-- The cosine of an angle in radians. -/
def cos (x : Decimal) : Decimal :=
  let y := withinTurn (if x.negative then -x else x)
  if pi ≤ y then -halfCos (angleDifference y pi) else halfCos y

/-- The next estimate of Newton's iteration for the root of `a`. -/
def sqrtStep? (a estimate : Decimal) : Option Decimal := do
  (← estimate.add? (← a.div? estimate)).half?

/-- Repeats the step until the estimate stands still. -/
def sqrtFrom (a : Decimal) : (steps : Nat) → (estimate : Decimal) → Decimal
  | 0, estimate => estimate
  | steps + 1, estimate =>
    match sqrtStep? a estimate with
    | none => estimate
    | some next => if next.Same estimate then next else sqrtFrom a steps next

/-- The square root; a number with a minus sign has none. The first estimate is half the number, or
the number itself where the half rounds to zero. -/
def sqrt? (a : Decimal) : Option Decimal :=
  if a.negative then none
  else if a.isZero then some zero
  else
    match a.half? with
    | none => none
    | some start => some (sqrtFrom a 1000 (if start.isZero then a else start))

/-- An angle in degrees as one in radians. Neither step can leave the range. -/
def radians (degrees : Decimal) : Decimal :=
  (do (← degrees.div? 180).mul? pi : Option Decimal).getD zero

/-- The point `(x, y)` turned counter-clockwise by `degrees` about `(cx, cy)`; a zero angle leaves it
as it stands. No value if a number on the way does not fit. -/
def rotate? (x y degrees cx cy : Decimal) : Option (Decimal × Decimal) :=
  if degrees.isZero then some (x, y)
  else do
    let s := sin (radians degrees)
    let c := cos (radians degrees)
    let dx ← x.sub? cx
    let dy ← y.sub? cy
    let rx ← (← (← dx.mul? c).sub? (← dy.mul? s)).add? cx
    let ry ← (← (← dx.mul? s).add? (← dy.mul? c)).add? cy
    return (rx, ry)

end KeyboardPlate.Decimal
