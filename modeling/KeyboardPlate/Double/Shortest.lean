import KeyboardPlate.Double.Parts

/-!
# The fewest digits that read back

A decimal reads back as a double if it lies between the midpoints to the neighbouring doubles, the
midpoints themselves included if the double's integer is even. For one to seventeen digits the two
decimals next to the double are tried; the first count of digits with a hit wins, of two hits the
nearer, and of two equally near the even one.
-/

set_option autoImplicit false

namespace KeyboardPlate.Double

/-- The number `digits · 10 ^ exponent`. -/
structure Digits where
  digits : Nat
  exponent : Int
deriving DecidableEq

/-- The reals that read back as a double, over a common denominator: its value and the two ends. -/
structure Interval where
  value : Nat
  lower : Nat
  upper : Nat
  denominator : Nat
  closed : Bool

def Parts.interval (p : Parts) : Interval :=
  let unit := Nat.pow 2 (p.q - 2).toNat
  { value := 4 * p.m * unit
    lower := (4 * p.m - if p.even then 1 else 2) * unit
    upper := (4 * p.m + 2) * unit
    denominator := Nat.pow 2 (2 - p.q).toNat
    closed := p.m % 2 == 0 }

/-- Whether `n · 10 ^ e` lies in the interval. -/
def Interval.holds (i : Interval) (n : Nat) (e : Int) : Bool :=
  let here := n * Nat.pow 10 e.toNat * i.denominator
  let shift := Nat.pow 10 (-e).toNat
  if i.closed then i.lower * shift ≤ here && here ≤ i.upper * shift
  else i.lower * shift < here && here < i.upper * shift

/-- The number of digits before the point of a positive value, negative for zeros after it. -/
def Interval.magnitude (i : Interval) : Int :=
  let binary : Int := (i.value.log2 : Int) - i.denominator.log2
  let guess := (binary * 30103).fdiv 100000
  let reaches (k : Int) : Bool := i.denominator * Nat.pow 10 k.toNat ≤ i.value * Nat.pow 10 (-k).toNat
  if reaches (guess + 1) then guess + 2 else if reaches guess then guess + 1 else guess

/-- The better of the two decimals of exponent `e` next to the value, if one reads back. -/
def Interval.atExponent (i : Interval) (e : Int) : Option Digits :=
  let scaled := i.value * Nat.pow 10 (-e).toNat
  let unit := i.denominator * Nat.pow 10 e.toNat
  let down := scaled / unit
  let rest := scaled % unit
  match i.holds down e, i.holds (down + 1) e with
  | true, true =>
    if 2 * rest < unit ∨ (2 * rest = unit ∧ down % 2 = 0) then some ⟨down, e⟩
    else some ⟨down + 1, e⟩
  | true, false => some ⟨down, e⟩
  | false, true => some ⟨down + 1, e⟩
  | false, false => none

/-- Removes zeros at the end, at most `fuel` of them. -/
def Digits.strip : (fuel : Nat) → Digits → Digits
  | 0, d => d
  | fuel + 1, d => if d.digits % 10 = 0 then strip fuel ⟨d.digits / 10, d.exponent + 1⟩ else d

/-- The shortest decimal that reads back as the double of the given parts. -/
def Parts.shortest (p : Parts) : Digits :=
  if p.m = 0 then ⟨0, 0⟩
  else
    let i := p.interval
    let k := i.magnitude
    match (List.range 17).findSome? fun (n : Nat) => i.atExponent (k - (n : Nat) - 1) with
    | some d => d.strip 17
    | none => ⟨0, 0⟩

end KeyboardPlate.Double
