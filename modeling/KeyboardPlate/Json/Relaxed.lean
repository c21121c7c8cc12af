import KeyboardPlate.Json.Reader
import KeyboardPlate.Text.Letter

/-!
# Reading relaxed JSON

Relaxed JSON (JSON5) is JSON with comments, trailing commas, names without quotes, strings in single
quotes, hexadecimal numbers and numbers that start or end with a point. A whole number has to fit 64
bits with a sign, a hexadecimal one 32 bits; what is infinite or no number is null.
-/

set_option autoImplicit false

namespace KeyboardPlate.Json.Relaxed

def isLineEnd (c : Char) : Bool :=
  c == '\n' || c == '\r' || c.toNat == 0x2028 || c.toNat == 0x2029

def isSpace (c : Char) : Bool :=
  let n := c.toNat
  isLineEnd c || n == 9 || n == 11 || n == 12 || n == 0x20 || n == 0xA0 || n == 0xFEFF || n == 0x1680 ||
    (0x2000 ≤ n && n ≤ 0x200A) || n == 0x202F || n == 0x205F || n == 0x3000

mutual

/-- The text after white space and comments. A block comment that does not end is left standing. -/
def skip : List Char → List Char
  | [] => []
  | '/' :: '/' :: rest => skipLine rest
  | '/' :: '*' :: rest => (skipBlock? rest).getD ('/' :: '*' :: rest)
  | c :: rest => if isSpace c then skip rest else c :: rest

/-- The text after the rest of a line comment, and after what may be skipped next. -/
def skipLine : List Char → List Char
  | [] => []
  | c :: rest => if isLineEnd c then skip rest else skipLine rest

/-- The text after the rest of a block comment, and after what may be skipped next. -/
def skipBlock? : List Char → Option (List Char)
  | [] => none
  | '*' :: '/' :: rest => some (skip rest)
  | _ :: rest => skipBlock? rest

end

/-- The letter after a backslash that stands for itself or for a control character. -/
def escapeLetter (c : Char) : Char :=
  match c with
  | 'b' => Char.ofNat 8
  | 'f' => Char.ofNat 12
  | 'n' => '\n'
  | 'r' => '\r'
  | 't' => '\t'
  | 'v' => Char.ofNat 11
  | c => c

/-- The pieces of a string up to its closing quote, and the rest. A backslash before the end of a line
joins the lines; a digit other than zero cannot be escaped. -/
def readPieces? (quote : Char) : List Char → Option (List TextPiece × List Char)
  | [] => none
  | '\\' :: '\r' :: '\n' :: rest => readPieces? quote rest
  | '\\' :: 'u' :: a :: b :: c :: d :: rest => do
    let n ← natOfHex? [a, b, c, d]
    let (pieces, rest) ← readPieces? quote rest
    return (.unit n :: pieces, rest)
  | '\\' :: 'x' :: a :: b :: rest => do
    let n ← natOfHex? [a, b]
    let (pieces, rest) ← readPieces? quote rest
    return (.char (Char.ofNat n) :: pieces, rest)
  | '\\' :: e :: rest => do
    if e = 'u' ∨ e = 'x' ∨ ('1' ≤ e ∧ e ≤ '9') then none
    let (pieces, rest) ← readPieces? quote rest
    if isLineEnd e then return (pieces, rest)
    else if e = '0' then return (.char (Char.ofNat 0) :: pieces, rest)
    else return (.char (escapeLetter e) :: pieces, rest)
  | c :: rest =>
    if c = quote then some ([], rest)
    else if isLineEnd c ∨ c = '\\' then none
    else do
      let (pieces, rest) ← readPieces? quote rest
      return (.char c :: pieces, rest)

/-- The pieces of a name without quotes, of which `first` tells whether the first is still to come. -/
def readNamePieces? (first : Bool) : List Char → Option (List TextPiece × List Char)
  | '\\' :: 'u' :: a :: b :: c :: d :: rest => do
    let n ← natOfHex? [a, b, c, d]
    let (pieces, rest) ← readNamePieces? false rest
    return (.unit n :: pieces, rest)
  | c :: rest =>
    if isLetter c ∨ c = '$' ∨ c = '_' ∨ (!first && isNameMark c) then do
      let (pieces, rest) ← readNamePieces? false rest
      return (.char c :: pieces, rest)
    else if first then none
    else some ([], c :: rest)
  | [] => if first then none else some ([], [])

/-- A name with its colon, and the rest. -/
def readName? (s : List Char) : Option (String × List Char) := do
  let (pieces, s) ← match s with
    | '"' :: rest => readPieces? '"' rest
    | '\'' :: rest => readPieces? '\'' rest
    | s => readNamePieces? true s
  let name ← joinPieces? pieces
  match skip s with
  | ':' :: rest => some (String.ofList name, rest)
  | _ => none

/-- A power of ten at the start of a text, if there is one. -/
def readPower (s : List Char) : Option Int × List Char :=
  match s with
  | [] => (none, [])
  | e :: rest =>
    if e = 'e' ∨ e = 'E' then
      let (down, t) := match rest with
        | '-' :: t => (true, t)
        | '+' :: t => (false, t)
        | t => (false, t)
      let (digits, t) := spanDigits t
      if digits = [] then (none, s)
      else (some (if down then -natOfDigits digits else natOfDigits digits), t)
    else (none, s)

/-- A number with a point or a power; one beyond the doubles is an error. -/
def double? (negative : Bool) (whole fraction : List Char) (power : Int) : Option Json :=
  let x := Double.ofScientific (natOfDigits (whole ++ fraction)) (power - fraction.length)
  if x.isFinite then some (number (.float (if negative then -x else x))) else none

/-- A number without its sign. -/
def readUnsigned? (negative : Bool) (s : List Char) : Option (Json × List Char) :=
  match s with
  | '.' :: rest =>
    let (fraction, rest) := spanDigits rest
    if fraction = [] then none
    else
      let (power, rest) := readPower rest
      (double? negative [] fraction (power.getD 0)).map fun n => (n, rest)
  | c :: _ =>
    let (digits, rest) := spanDigits s
    if digits = [] then none
    else
      let (whole, rest) := if c = '0' then (['0'], s.drop 1) else (digits, rest)
      match rest with
      | '.' :: rest =>
        let (fraction, rest) := spanDigits rest
        let (power, rest) := readPower rest
        (double? negative whole fraction (power.getD 0)).map fun n => (n, rest)
      | rest =>
        match readPower rest with
        | (some power, rest) => (double? negative whole [] power).map fun n => (n, rest)
        | (none, rest) =>
          let n : Int := if negative then -natOfDigits whole else natOfDigits whole
          if -9223372036854775808 ≤ n ∧ n < 9223372036854775808 then some (number (.int n), rest) else none
  | [] => none

/-- A hexadecimal number after its mark. -/
def readHex? (s : List Char) : Option (Json × List Char) := do
  let digits := s.takeWhile fun c => (hexValue? c).isSome
  if digits = [] then none
  let n ← natOfHex? digits
  if n < 4294967296 then some (number (.int n), s.dropWhile fun c => (hexValue? c).isSome) else none

def isHex (s : List Char) : Bool :=
  match s with
  | '0' :: x :: d :: _ => (x == 'x' || x == 'X') && (hexValue? d).isSome
  | _ => false

/-- A number at the start of a text, and the rest. A sign before a hexadecimal number and a plus before
a word are errors. -/
def readNumber? (s : List Char) : Option (Json × List Char) :=
  let word? (s : List Char) : Option (List Char) :=
    match s with
    | 'I' :: 'n' :: 'f' :: 'i' :: 'n' :: 'i' :: 't' :: 'y' :: rest => some rest
    | 'N' :: 'a' :: 'N' :: rest => some rest
    | _ => none
  match s with
  | '+' :: rest => if isHex rest then none else readUnsigned? false rest
  | '-' :: rest =>
    match word? rest with
    | some rest => some (null, rest)
    | none => if isHex rest then none else readUnsigned? true rest
  | s =>
    match word? s with
    | some rest => some (null, rest)
    | none => if isHex s then readHex? (s.drop 2) else readUnsigned? false s

def readString? (quote : Char) (s : List Char) : Option (Json × List Char) := do
  let (pieces, rest) ← readPieces? quote s
  let chars ← joinPieces? pieces
  return (string (String.ofList chars), rest)

mutual

/-- A value at the start of a text, and the rest. -/
def read? : (fuel : Nat) → List Char → Option (Json × List Char)
  | 0, _ => none
  | fuel + 1, s =>
    match skip s with
    | 'n' :: 'u' :: 'l' :: 'l' :: rest => some (null, rest)
    | 't' :: 'r' :: 'u' :: 'e' :: rest => some (bool true, rest)
    | 'f' :: 'a' :: 'l' :: 's' :: 'e' :: rest => some (bool false, rest)
    | '"' :: rest => readString? '"' rest
    | '\'' :: rest => readString? '\'' rest
    | '[' :: rest => (readItems? fuel true rest).map fun (items, rest) => (array items, rest)
    | '\x7b' :: rest => (readMembers? fuel true rest).map fun (members, rest) => (object members, rest)
    | s => readNumber? s

/-- The items of an array up to its end. A comma may stand before the end, but not alone. -/
def readItems? : (fuel : Nat) → (first : Bool) → List Char → Option (List Json × List Char)
  | 0, _, _ => none
  | fuel + 1, first, s =>
    match skip s with
    | ']' :: rest => some ([], rest)
    | s => do
      let s ← if first then some s else match s with | ',' :: rest => some rest | _ => none
      match first, skip s with
      | false, ']' :: rest => return ([], rest)
      | _, s =>
        let (item, rest) ← read? fuel s
        let (items, rest) ← readItems? fuel false rest
        return (item :: items, rest)

/-- The members of an object up to its end. -/
def readMembers? : (fuel : Nat) → (first : Bool) → List Char → Option (List (String × Json) × List Char)
  | 0, _, _ => none
  | fuel + 1, first, s =>
    match skip s with
    | '\x7d' :: rest => some ([], rest)
    | s => do
      let s ← if first then some s else match s with | ',' :: rest => some rest | _ => none
      match first, skip s with
      | false, '\x7d' :: rest => return ([], rest)
      | _, s =>
        let (name, rest) ← readName? s
        let (value, rest) ← read? fuel rest
        let (members, rest) ← readMembers? fuel false rest
        return ((name, value) :: members, rest)

end

/-- The whole text as one value, in its plain form. -/
def parse? (text : String) : Option Json :=
  match read? (fuelFor text.toList) text.toList with
  | some (value, rest) => if skip rest = [] then some value.plain else none
  | none => none

end KeyboardPlate.Json.Relaxed
