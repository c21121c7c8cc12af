import KeyboardPlate.Json.Basic
import KeyboardPlate.Decimal.Text
import KeyboardPlate.Double.Reading

/-!
# Reading JSON

A text is read from its start to its first fault. `Scan` tells what stood before the fault, so that a
reader of options can report what was wrong before the text broke off.
-/

set_option autoImplicit false

namespace KeyboardPlate

/-- The value of a hexadecimal digit. -/
def hexValue? (c : Char) : Option Nat :=
  if '0' ≤ c ∧ c ≤ '9' then some (c.toNat - '0'.toNat)
  else if 'a' ≤ c ∧ c ≤ 'f' then some (c.toNat - 'a'.toNat + 10)
  else if 'A' ≤ c ∧ c ≤ 'F' then some (c.toNat - 'A'.toNat + 10)
  else none

/-- The number written by hexadecimal digits. -/
def natOfHex? (s : List Char) : Option Nat :=
  s.foldlM (fun n c => (hexValue? c).map (16 * n + ·)) 0

/-- A character, or a 16-bit unit given by an escape. -/
inductive TextPiece where
  | char (c : Char)
  | unit (n : Nat)

/-- The characters of some pieces; none if half of a surrogate pair is left over. -/
def joinPieces? : List TextPiece → Option (List Char)
  | [] => some []
  | .char c :: rest => (joinPieces? rest).map (c :: ·)
  | [.unit n] => if 0xD800 ≤ n ∧ n < 0xE000 then none else some [Char.ofNat n]
  | .unit n :: .unit k :: rest =>
    if 0xD800 ≤ n ∧ n < 0xDC00 then
      if 0xDC00 ≤ k ∧ k < 0xE000 then
        (joinPieces? rest).map (Char.ofNat (0x10000 + (n - 0xD800) * 0x400 + (k - 0xDC00)) :: ·)
      else none
    else if 0xDC00 ≤ n ∧ n < 0xE000 then none
    else (joinPieces? (.unit k :: rest)).map (Char.ofNat n :: ·)
  | .unit n :: .char c :: rest =>
    if 0xD800 ≤ n ∧ n < 0xE000 then none
    else (joinPieces? rest).map (fun s => Char.ofNat n :: c :: s)

/-- The digits at the start of a text, and the rest. -/
def spanDigits (s : List Char) : List Char × List Char :=
  s.span fun c => decide ('0' ≤ c ∧ c ≤ '9')

/-- The number written by digits alone. -/
def natOfDigits (s : List Char) : Nat := s.foldl (fun n c => 10 * n + (c.toNat - '0'.toNat)) 0

namespace Json

def isSpace (c : Char) : Bool := c == ' ' || c == '\n' || c == '\t' || c == '\r'

def skipSpace (s : List Char) : List Char := s.dropWhile isSpace

/-- The escapes of one letter. -/
def simpleEscape? (c : Char) : Option Char :=
  match c with
  | '"' => some '"'
  | '\\' => some '\\'
  | '/' => some '/'
  | 'b' => some (Char.ofNat 8)
  | 'f' => some (Char.ofNat 12)
  | 'n' => some '\n'
  | 'r' => some '\r'
  | 't' => some '\t'
  | _ => none

/-- The pieces of a string up to its closing quote, and the rest. -/
def readPieces? : List Char → Option (List TextPiece × List Char)
  | [] => none
  | '"' :: rest => some ([], rest)
  | '\\' :: 'u' :: a :: b :: c :: d :: rest => do
    let n ← natOfHex? [a, b, c, d]
    let (pieces, rest) ← readPieces? rest
    return (.unit n :: pieces, rest)
  | '\\' :: e :: rest => do
    let c ← simpleEscape? e
    let (pieces, rest) ← readPieces? rest
    return (.char c :: pieces, rest)
  | c :: rest =>
    if c.toNat < 32 ∨ c = '\\' then none
    else do
      let (pieces, rest) ← readPieces? rest
      return (.char c :: pieces, rest)

/-- The parts of a number and the rest: sign, digits, fraction digits, exponent. -/
def readNumberParts? (s : List Char) :
    Option (Bool × List Char × Option (List Char) × Option (Bool × List Char) × List Char) := do
  let (negative, s) := match s with | '-' :: rest => (true, rest) | _ => (false, s)
  let (whole, s) := spanDigits s
  if whole = [] ∨ (whole.head? = some '0' ∧ whole ≠ ['0']) then none
  let (fraction, s) ← match s with
    | '.' :: rest => if (spanDigits rest).1 = [] then none else some (some (spanDigits rest).1, (spanDigits rest).2)
    | _ => some (none, s)
  let readPower (s : List Char) : Option (Option (Bool × List Char) × List Char) :=
    let (down, s) := match s with | '-' :: rest => (true, rest) | '+' :: rest => (false, rest) | _ => (false, s)
    if (spanDigits s).1 = [] then none else some (some (down, (spanDigits s).1), (spanDigits s).2)
  let (power, s) ← match s with
    | 'e' :: rest => readPower rest
    | 'E' :: rest => readPower rest
    | _ => some (none, s)
  return (negative, whole, fraction, power, s)

/-- The value of a number's parts. A whole number that 64 bits do not hold, and minus zero, is a
double; a double beyond the range has no value. -/
def numberOfParts (negative : Bool) (whole : List Char) (fraction : Option (List Char))
    (power : Option (Bool × List Char)) : Json :=
  let float : Json :=
    let digits := natOfDigits (whole ++ fraction.getD [])
    let shift : Int := match power with
      | none => 0
      | some (down, ds) => if down then -natOfDigits ds else natOfDigits ds
    let x := Double.ofScientific digits (shift - (fraction.getD []).length)
    if x.isFinite then number (.float (if negative then -x else x)) else unreadable
  if fraction.isSome ∨ power.isSome ∨ (negative ∧ whole = ['0']) then float
  else
    let n : Int := if negative then -natOfDigits whole else natOfDigits whole
    match JsonNumber.ofInt? n with
    | some k => number k
    | none => float

/-- The name of a member with its colon, and the rest. -/
def readName? : List Char → Option (String × List Char)
  | '"' :: s => do
    let (pieces, s) ← readPieces? s
    let name ← joinPieces? pieces
    match skipSpace s with
    | ':' :: rest => some (String.ofList name, rest)
    | _ => none
  | _ => none

mutual

/-- A value at the start of a text, and the rest. -/
def read? : (fuel : Nat) → List Char → Option (Json × List Char)
  | 0, _ => none
  | fuel + 1, s =>
    match skipSpace s with
    | 'n' :: 'u' :: 'l' :: 'l' :: rest => some (null, rest)
    | 't' :: 'r' :: 'u' :: 'e' :: rest => some (bool true, rest)
    | 'f' :: 'a' :: 'l' :: 's' :: 'e' :: rest => some (bool false, rest)
    | '"' :: rest => (readPieces? rest).map fun (pieces, rest) =>
        ((joinPieces? pieces).elim unreadable (fun cs => string (String.ofList cs)), rest)
    | '[' :: rest =>
      let (items, rest?) := scanItems fuel true rest
      rest?.map fun rest => (array items, rest)
    | '\x7b' :: rest =>
      let (members, rest?) := scanMembers fuel true rest
      rest?.map fun rest => (object members, rest)
    | s => (readNumberParts? s).map fun (negative, whole, fraction, power, rest) =>
        (numberOfParts negative whole fraction power, rest)

/-- The items of an array up to its end or to the first fault; the rest is there if there was none. -/
def scanItems : (fuel : Nat) → (first : Bool) → List Char → List Json × Option (List Char)
  | 0, _, _ => ([], none)
  | fuel + 1, first, s =>
    match skipSpace s, first with
    | ']' :: rest, _ => ([], some rest)
    | ',' :: rest, false => scanItem fuel rest
    | s, true => scanItem fuel s
    | _, false => ([], none)

def scanItem : (fuel : Nat) → List Char → List Json × Option (List Char)
  | 0, _ => ([], none)
  | fuel + 1, s =>
    match read? fuel s with
    | none => ([], none)
    | some (item, rest) =>
      let (items, rest?) := scanItems fuel false rest
      (item :: items, rest?)

/-- The members of an object up to its end or to the first fault; the rest is there if there was
none. -/
def scanMembers : (fuel : Nat) → (first : Bool) → List Char → List (String × Json) × Option (List Char)
  | 0, _, _ => ([], none)
  | fuel + 1, first, s =>
    match skipSpace s, first with
    | '\x7d' :: rest, _ => ([], some rest)
    | ',' :: rest, false => scanMember fuel (skipSpace rest)
    | s, true => scanMember fuel s
    | _, false => ([], none)

def scanMember : (fuel : Nat) → List Char → List (String × Json) × Option (List Char)
  | 0, _ => ([], none)
  | fuel + 1, s =>
    match readName? s with
    | none => ([], none)
    | some (name, rest) =>
      match read? fuel rest with
      | none => ([], none)
      | some (value, rest) =>
        let (members, rest?) := scanMembers fuel false rest
        ((name, value) :: members, rest?)

end

/-- Enough steps for any text of this length. -/
def fuelFor (s : List Char) : Nat := 3 * s.length + 3

/-- The whole text as one value. -/
def parse? (text : String) : Option Json :=
  match read? (fuelFor text.toList) text.toList with
  | some (value, rest) => if skipSpace rest = [] then some value else none
  | none => none

/-- What stands in a text before its first fault; `whole` tells that there is none. -/
inductive Scan where
  | object (members : List (String × Json)) (whole : Bool)
  | array (items : List Json) (whole : Bool)
  | other

def scan (text : String) : Scan :=
  let ends (rest? : Option (List Char)) : Bool := rest?.elim false fun rest => skipSpace rest == []
  match skipSpace text.toList with
  | '\x7b' :: rest =>
    let (members, rest?) := scanMembers (fuelFor rest) true rest
    .object members (ends rest?)
  | '[' :: rest =>
    let (items, rest?) := scanItems (fuelFor rest) true rest
    .array items (ends rest?)
  | _ => .other

end Json

end KeyboardPlate
