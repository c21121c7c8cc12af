import KeyboardPlate.Double.Shortest

/-!
# Texts of doubles

All texts use the shortest digits that read back. A style says between which magnitudes they are
written positionally and how the rest looks.
-/

set_option autoImplicit false

namespace KeyboardPlate.Double

/-- How the digits of a double are laid out. -/
structure Style where
  /-- The range of digit counts before the point that is written positionally; outside it the number
  has an exponent. -/
  positional : Int → Bool
  /-- Whole numbers written positionally end in `.0`. -/
  wholeFraction : Bool
  /-- A positive exponent has a plus sign. -/
  plusExponent : Bool

/-- Numbers in JSON: positional from `1e-5` up to `1e16`, always with a fraction or an exponent. -/
def Style.json : Style := ⟨fun k => -5 < k && k ≤ 16, true, true⟩

/-- Numbers in drawings: positional from `1e-5` up to `1e16`, whole numbers without a fraction. -/
def Style.drawing : Style := ⟨fun k => -5 < k && k ≤ 16, false, false⟩

/-- Numbers in messages: always positional. -/
def Style.message : Style := ⟨fun _ => true, false, false⟩

/-- Coordinates in messages: positional from `1e-4` up to `1e16`, always with a fraction or an
exponent. -/
def Style.coordinate : Style := ⟨fun k => -4 < k && k ≤ 16, true, false⟩

/-- The digits with the point put where it belongs. -/
def Digits.positional (d : Digits) (wholeFraction : Bool) : List Char :=
  let digits := Nat.toDigits 10 d.digits
  let k := (digits.length : Int) + d.exponent
  if 0 ≤ d.exponent then
    digits ++ List.replicate d.exponent.toNat '0' ++ (if wholeFraction then ['.', '0'] else [])
  else if 0 < k then
    digits.take k.toNat ++ '.' :: digits.drop k.toNat
  else
    '0' :: '.' :: (List.replicate (-k).toNat '0' ++ digits)

/-- One digit, the others after a point, and the power of ten. -/
def Digits.scientific (d : Digits) (plusExponent : Bool) : List Char :=
  let digits := Nat.toDigits 10 d.digits
  let power := (digits.length : Int) + d.exponent - 1
  let sign := if power < 0 then ['-'] else if plusExponent then ['+'] else []
  let fraction := if digits.length = 1 then [] else '.' :: digits.drop 1
  digits.take 1 ++ fraction ++ 'e' :: (sign ++ Nat.toDigits 10 power.natAbs)

/-- The text of a finite double. -/
def Parts.text (style : Style) (p : Parts) : List Char :=
  let d := p.shortest
  let k := ((Nat.toDigits 10 d.digits).length : Int) + d.exponent
  (if p.negative then ['-'] else []) ++
    (if p.m = 0 ∨ style.positional k then d.positional style.wholeFraction
    else d.scientific style.plusExponent)

/-- The text of a double. -/
def text (style : Style) (x : Float) : String :=
  match parts? x with
  | some p => String.ofList (p.text style)
  | none => if x.isNaN then "NaN" else if x < 0.0 then "-inf" else "inf"

end KeyboardPlate.Double
