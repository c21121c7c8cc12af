import KeyboardPlate.Json.Basic
import KeyboardPlate.Double.Text

/-!
# Writing JSON

The compact form has no white space. The indented form puts every item and member on a line of its
own, two blanks deeper than what holds it.
-/

set_option autoImplicit false

namespace KeyboardPlate

/-- Two hexadecimal digits, in lower case. -/
def hexPair (n : Nat) : List Char :=
  [Nat.digitChar (n / 16 % 16), Nat.digitChar (n % 16)]

namespace Json

/-- A character inside a string. -/
def escapeChar (c : Char) : List Char :=
  if c = '"' then ['\\', '"']
  else if c = '\\' then ['\\', '\\']
  else if c = '\n' then ['\\', 'n']
  else if c = '\r' then ['\\', 'r']
  else if c = '\t' then ['\\', 't']
  else if c.toNat = 8 then ['\\', 'b']
  else if c.toNat = 12 then ['\\', 'f']
  else if c.toNat < 32 then '\\' :: 'u' :: '0' :: '0' :: hexPair c.toNat
  else [c]

def quote (s : String) : List Char := '"' :: (s.toList.flatMap escapeChar ++ ['"'])

/-- The text of a number; what is no finite number is written as `null`. -/
def numberText : JsonNumber → String
  | .int n => toString n
  | .float x => if x.isFinite then Double.text .json x else "null"

mutual

def compact : Json → List Char
  | null => "null".toList
  | bool b => (if b then "true" else "false").toList
  | number n => (numberText n).toList
  | string s => quote s
  | array items => '[' :: (compactItems items ++ [']'])
  | object members => '\x7b' :: (compactMembers members ++ ['\x7d'])
  | unreadable => "null".toList

def compactItems : List Json → List Char
  | [] => []
  | [item] => item.compact
  | item :: rest => item.compact ++ ',' :: compactItems rest

def compactMembers : List (String × Json) → List Char
  | [] => []
  | [(name, value)] => quote name ++ ':' :: value.compact
  | (name, value) :: rest => quote name ++ ':' :: (value.compact ++ ',' :: compactMembers rest)

end

/-- A new line at some depth. -/
def lineBreak (depth : Nat) : List Char := '\n' :: List.replicate (2 * depth) ' '

mutual

def indented (depth : Nat) : Json → List Char
  | array [] => ['[', ']']
  | array items => '[' :: (indentedItems (depth + 1) items ++ lineBreak depth ++ [']'])
  | object [] => ['\x7b', '\x7d']
  | object members => '\x7b' :: (indentedMembers (depth + 1) members ++ lineBreak depth ++ ['\x7d'])
  | value => value.compact

def indentedItems (depth : Nat) : List Json → List Char
  | [] => []
  | [item] => lineBreak depth ++ item.indented depth
  | item :: rest => lineBreak depth ++ item.indented depth ++ ',' :: indentedItems depth rest

def indentedMembers (depth : Nat) : List (String × Json) → List Char
  | [] => []
  | [(name, value)] => lineBreak depth ++ quote name ++ ':' :: ' ' :: value.indented depth
  | (name, value) :: rest =>
    lineBreak depth ++ quote name ++ ':' :: ' ' :: (value.indented depth ++ ',' :: indentedMembers depth rest)

end

def compactText (value : Json) : String := String.ofList value.compact
def indentedText (value : Json) : String := String.ofList (value.indented 0)

end Json

end KeyboardPlate
