import KeyboardPlate.Decimal.Basic
import KeyboardPlate.Text.Blank

/-!
# The text of a decimal

A decimal is written with all digits of its scale. It is read from plain text (an optional sign,
digits with at most one point, underscores after the first digit) or from scientific text (plain text,
`e` or `E`, a whole exponent), with white space around it.
-/

set_option autoImplicit false

namespace KeyboardPlate

/-- The value of an ASCII digit. -/
def digitValue? (c : Char) : Option Nat :=
  if '0' ≤ c ∧ c ≤ '9' then some (c.toNat - '0'.toNat) else none

/-- The number written by a non-empty list of ASCII digits. -/
def natOfDigits? (s : List Char) : Option Nat :=
  if s.isEmpty then none
  else s.foldlM (fun n c => (digitValue? c).map (10 * n + ·)) 0

namespace Decimal

/-- The digits of `m` with at least `width` of them. -/
def paddedDigits (width m : Nat) : List Char :=
  let digits := Nat.toDigits 10 m
  List.replicate (width - digits.length) '0' ++ digits

/-- All digits of the scale, and at least one before the point. -/
def toChars (a : Decimal) : List Char :=
  let digits := paddedDigits (a.scale + 1) a.mantissa
  let whole := digits.take (digits.length - a.scale)
  let fraction := digits.drop (digits.length - a.scale)
  (if a.negative then ['-'] else []) ++ whole ++ (if a.scale = 0 then [] else '.' :: fraction)

def text (a : Decimal) : String := String.ofList a.toChars

/-- Ends a reading that has used up its places: the next character decides, upward from five, and what
follows it is not looked at. A mantissa that the step up carries past the limit loses a digit. -/
def roundAt? (negative : Bool) (m s : Nat) (next : Char) : Option Decimal := do
  let digit ← if next = '_' ∨ next = '.' then some 0 else digitValue? next
  if digit < 5 then ofParts? negative m s
  else if m + 1 < mantissaLimit then ofParts? negative (m + 1) s
  else if s = 0 then none
  else ofParts? negative (roundDiv .away (m + 1) 10) (s - 1)

/-- Reads digits, of which `m` and `s` hold what is read so far; `point` and `any` tell whether a
point and a digit have been met. -/
def readDigits? (negative : Bool) (m s : Nat) (point any : Bool) : List Char → Option Decimal
  | [] => if any then ofParts? negative m s else none
  | c :: rest =>
    if point && s == scaleLimit then roundAt? negative m s c
    else if c = '.' ∧ point = false then readDigits? negative m s true any rest
    else if c = '_' ∧ any then readDigits? negative m s point any rest
    else
      match digitValue? c with
      | none => none
      | some d =>
        if 10 * m + d < mantissaLimit then
          readDigits? negative (10 * m + d) (if point then s + 1 else s) point true rest
        else if point then roundAt? negative m s c
        else none

def readPlain? : List Char → Option Decimal
  | '-' :: rest => readDigits? true 0 0 false false rest
  | '+' :: rest => readDigits? false 0 0 false false rest
  | s => readDigits? false 0 0 false false s

/-- Digits after an optional plus sign, below `2 ^ 32`. -/
def readExponent? (s : List Char) : Option Nat := do
  let n ← natOfDigits? (match s with | '+' :: rest => rest | s => s)
  if n < 4294967296 then some n else none

/-- A power of ten that makes the number smaller moves the point; places past the last are rounded. -/
def shiftDown? (a : Decimal) (k : Nat) : Option Decimal :=
  if k > scaleLimit then none
  else
    let kept := min a.scale (scaleLimit - k)
    ofParts? a.negative (roundDiv .away a.mantissa (Nat.pow 10 (a.scale - kept))) (kept + k)

/-- A power of ten that makes the number larger first uses up the fraction. -/
def shiftUp? (a : Decimal) (k : Nat) : Option Decimal :=
  if k ≤ a.scale then ofParts? a.negative a.mantissa (a.scale - k)
  else if k > scaleLimit then none
  else ofParts? a.negative (a.mantissa * Nat.pow 10 (k - a.scale)) 0

def isExponentMark (c : Char) : Bool := c == 'e' || c == 'E'

def readScientific? (s : List Char) : Option Decimal := do
  let base ← readPlain? (s.takeWhile fun c => !isExponentMark c)
  match s.dropWhile fun c => !isExponentMark c with
  | [] => none
  | _ :: '-' :: exponent => base.shiftDown? (← readExponent? exponent)
  | _ :: exponent => base.shiftUp? (← readExponent? exponent)

/-- Plain text is tried before scientific text. -/
def readChars? (s : List Char) : Option Decimal := (readPlain? s).or (readScientific? s)

/-- The decimal a text stands for, white space around it left aside. -/
def parse? (text : String) : Option Decimal := readChars? (trimBlanks text.toList)

end Decimal

end KeyboardPlate
