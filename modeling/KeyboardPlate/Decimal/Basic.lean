/-!
# Decimal numbers

A decimal is a sign, a mantissa below `2 ^ 96` and a count of fraction digits of at most 28. A result
that needs more is rounded to the largest scale at which its mantissa fits, ties to the even
neighbour; a result whose whole part does not fit has no value.
-/

set_option autoImplicit false

namespace KeyboardPlate

/-- The first mantissa that does not fit. -/
abbrev Decimal.mantissaLimit : Nat := 79228162514264337593543950336

/-- The largest number of fraction digits. -/
abbrev Decimal.scaleLimit : Nat := 28

/-- The number `± mantissa · 10 ^ (-scale)`; zero keeps a sign and a scale of its own. -/
structure Decimal where
  negative : Bool
  mantissa : Nat
  scale : Nat
  mantissa_lt : mantissa < Decimal.mantissaLimit := by decide
  scale_le : scale ≤ Decimal.scaleLimit := by decide
deriving DecidableEq

/-- How a quotient halfway between two integers is rounded. -/
inductive Tie where
  | toEven
  | away
deriving DecidableEq

/-- The integer nearest to `n / d`. -/
def roundDiv (tie : Tie) (n d : Nat) : Nat :=
  if d < 2 * (n % d) ∨ (2 * (n % d) = d ∧ (tie = .away ∨ n / d % 2 = 1)) then n / d + 1 else n / d

namespace Decimal

def zero : Decimal := ⟨false, 0, 0, by decide, by decide⟩
def one : Decimal := ⟨false, 1, 0, by decide, by decide⟩
def two : Decimal := ⟨false, 2, 0, by decide, by decide⟩

instance : Inhabited Decimal := ⟨zero⟩

/-- The number with the given sign, mantissa and scale, if they fit. Zero gets no sign. -/
def ofParts? (negative : Bool) (m s : Nat) : Option Decimal :=
  if h : m < mantissaLimit ∧ s ≤ scaleLimit then some ⟨negative && m != 0, m, s, h.1, h.2⟩ else none

/-- The number written with the digits of `m`, of which `s` are fraction digits. Zero stands for what
does not fit. -/
def written (m s : Nat) : Decimal := (ofParts? false m s).getD zero

instance (n : Nat) : OfNat Decimal n := ⟨written n 0⟩

instance : OfScientific Decimal where
  ofScientific m isFraction e := if isFraction then written m e else written (m * Nat.pow 10 e) 0

/-- The mantissa with its sign. -/
def signed (a : Decimal) : Int := if a.negative then -a.mantissa else a.mantissa

def isZero (a : Decimal) : Bool := a.mantissa == 0

/-- Both signs of zero, and all scales of one number, compare equal. -/
def lt (a b : Decimal) : Prop := a.signed * (Nat.pow 10 b.scale : Nat) < b.signed * (Nat.pow 10 a.scale : Nat)

def le (a b : Decimal) : Prop := a.signed * (Nat.pow 10 b.scale : Nat) ≤ b.signed * (Nat.pow 10 a.scale : Nat)

instance : LT Decimal := ⟨lt⟩
instance : LE Decimal := ⟨le⟩
instance (a b : Decimal) : Decidable (a < b) := inferInstanceAs (Decidable (_ < (_ : Int)))
instance (a b : Decimal) : Decidable (a ≤ b) := inferInstanceAs (Decidable (_ ≤ (_ : Int)))

/-- Two decimals that stand for one number, whatever their scales. -/
def Same (a b : Decimal) : Prop := a.signed * (Nat.pow 10 b.scale : Nat) = b.signed * (Nat.pow 10 a.scale : Nat)

instance (a b : Decimal) : Decidable (a.Same b) := inferInstanceAs (Decidable (_ = (_ : Int)))

/-- The smaller of two numbers; of equals the first. -/
def least (a b : Decimal) : Decimal := if b < a then b else a

/-- The larger of two numbers; of equals the first. -/
def greatest (a b : Decimal) : Decimal := if a < b then b else a

/-- The sign alone changes, also that of zero. -/
def neg (a : Decimal) : Decimal := { a with negative := !a.negative }

instance : Neg Decimal := ⟨neg⟩

/-- The number `± n / d` at the largest scale, of at most `s`, at which its mantissa fits. -/
def nearest? (negative : Bool) (n d : Nat) : (s : Nat) → s ≤ scaleLimit → Option Decimal
  | s, hs =>
    if h : roundDiv .toEven (n * Nat.pow 10 s) d < mantissaLimit then
      some ⟨negative && roundDiv .toEven (n * Nat.pow 10 s) d != 0, _, s, h, hs⟩
    else
      match s, hs with
      | 0, _ => none
      | s + 1, hs => nearest? negative n d s (Nat.le_of_succ_le hs)

/-- The number `± n · 10 ^ (-s)`, with fewer fraction digits where they do not fit. -/
def fit? (negative : Bool) (n s : Nat) : Option Decimal :=
  nearest? negative n (Nat.pow 10 s) (min s scaleLimit) (Nat.min_le_right ..)

/-- Removes zeros at the end of the fraction while more than `floor` digits are left. -/
def dropZeros (floor : Nat) (m : Nat) : Nat → Nat × Nat
  | 0 => (m, 0)
  | s + 1 => if floor < s + 1 ∧ m % 10 = 0 then dropZeros floor (m / 10) s else (m, s + 1)

theorem dropZeros_fst_le (floor m s : Nat) : (dropZeros floor m s).1 ≤ m := by
  fun_induction dropZeros floor m s with
  | case1 => exact Nat.le_refl _
  | case2 m s _ ih => exact Nat.le_trans ih (Nat.div_le_self ..)
  | case3 => exact Nat.le_refl _

theorem dropZeros_snd_le (floor m s : Nat) : (dropZeros floor m s).2 ≤ s := by
  fun_induction dropZeros floor m s with
  | case1 => exact Nat.le_refl _
  | case2 m s _ ih => exact Nat.le_succ_of_le ih
  | case3 => exact Nat.le_refl _

/-- The same number with as few fraction digits as possible, but no fewer than `floor`. -/
def trimTo (floor : Nat) (a : Decimal) : Decimal :=
  ⟨a.negative, (dropZeros floor a.mantissa a.scale).1, (dropZeros floor a.mantissa a.scale).2,
    Nat.lt_of_le_of_lt (dropZeros_fst_le ..) a.mantissa_lt,
    Nat.le_trans (dropZeros_snd_le ..) a.scale_le⟩

/-- The same number without zeros at the end of its fraction; zero loses its sign. -/
def normalize (a : Decimal) : Decimal := if a.isZero then zero else a.trimTo 0

/-- The sum of two numbers other than zero, given at one scale. A sum that vanishes keeps the sign of
its first term if the terms are short, and is otherwise positive. -/
def sumAt? (p q : Int) (scale : Nat) : Option Decimal :=
  if p + q = 0 ∧ p.natAbs < 4294967296 then
    (fit? false 0 scale).map fun r => { r with negative := decide (p < 0) }
  else
    fit? (decide (p + q < 0)) (p + q).natAbs scale

/-- A term that is zero leaves the other as it stands. -/
def add? (a b : Decimal) : Option Decimal :=
  if a.isZero then some b
  else if b.isZero then some a
  else
    let s := max a.scale b.scale
    sumAt? (a.signed * (Nat.pow 10 (s - a.scale) : Nat)) (b.signed * (Nat.pow 10 (s - b.scale) : Nat)) s

def sub? (a b : Decimal) : Option Decimal :=
  if a.isZero then some (if b.isZero then b else -b) else a.add? (-b)

/-- A factor that is zero gives the plain zero. -/
def mul? (a b : Decimal) : Option Decimal :=
  if a.isZero || b.isZero then some zero
  else fit? (a.negative != b.negative) (a.mantissa * b.mantissa) (a.scale + b.scale)

/-- An exact quotient has the fewest fraction digits, but no fewer than the dividend has more than the
divisor; any other has as many as fit. -/
def div? (a b : Decimal) : Option Decimal :=
  if b.isZero then none
  else if a.isZero then some zero
  else
    (nearest? (a.negative != b.negative) (a.mantissa * Nat.pow 10 b.scale) (b.mantissa * Nat.pow 10 a.scale)
      scaleLimit (Nat.le_refl _)).map (trimTo (a.scale - b.scale))

/-- What is left of the magnitude of `a` after whole multiples of that of `b`. -/
def rem? (a b : Decimal) : Option Decimal :=
  if b.isZero then none
  else
    let s := max a.scale b.scale
    fit? a.negative ((a.mantissa * Nat.pow 10 (s - a.scale)) % (b.mantissa * Nat.pow 10 (s - b.scale))) s

/-- Half of a number. -/
def half? (a : Decimal) : Option Decimal := a.div? two

/-- A whole power: the square taken half as often, and the base once more for an odd exponent. -/
def pow? (a : Decimal) : Nat → Option Decimal
  | 0 => some one
  | 1 => some a
  | 2 => a.mul? a
  | n =>
    if a.isZero then some zero
    else do
      let square ← a.mul? a
      let even ← (List.replicate (n / 2) square).foldlM mul? one
      let power ← if n % 2 = 1 then a.mul? even else some even
      return power.normalize

end Decimal

end KeyboardPlate
