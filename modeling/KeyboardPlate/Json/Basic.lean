import KeyboardPlate.Model.Named

/-!
# JSON values

A value keeps the members of its objects in the order of the text, repeated names included. The plain
form of a value has each name once, the last of equal names, in the order of the names.
-/

set_option autoImplicit false

namespace KeyboardPlate

/-- A number without fraction and exponent is kept as a whole number where 64 bits hold it. -/
inductive JsonNumber where
  | int (n : Int)
  | float (x : Float)

inductive Json where
  | null
  | bool (b : Bool)
  | number (n : JsonNumber)
  | string (s : String)
  | array (items : List Json)
  | object (members : List (String × Json))
  /-- A number beyond the doubles, or a string with half of a surrogate pair: well-formed, but no value. -/
  | unreadable
deriving Inhabited

namespace JsonNumber

def isZero : JsonNumber → Bool
  | int n => n == 0
  | float x => x == 0.0

def toDouble : JsonNumber → Float
  | int n => Float.ofInt n
  | float x => x

/-- A whole number that 64 bits hold, with or without a sign. -/
def ofInt? (n : Int) : Option JsonNumber :=
  if -9223372036854775808 ≤ n ∧ n < 18446744073709551616 then some (int n) else none

end JsonNumber

namespace Json

/-- The last member of a name. -/
def member? (name : String) (members : List (String × Json)) : Option Json :=
  (members.reverse.find? fun entry => entry.1 == name).map (·.2)

/-- Puts a member into members sorted by name; a member of the same name is replaced. -/
def putSorted (name : String) (value : Json) : List (String × Json) → List (String × Json)
  | [] => [(name, value)]
  | (n, v) :: rest =>
    if name < n then (name, value) :: (n, v) :: rest
    else if name = n then (name, value) :: rest
    else (n, v) :: putSorted name value rest

mutual

/-- The plain form of a value. -/
def plain : Json → Json
  | array items => array (plainItems items)
  | object members => object ((plainMembers members).foldl (fun m e => putSorted e.1 e.2 m) [])
  | value => value

def plainItems : List Json → List Json
  | [] => []
  | item :: rest => item.plain :: plainItems rest

def plainMembers : List (String × Json) → List (String × Json)
  | [] => []
  | (name, value) :: rest => (name, value.plain) :: plainMembers rest

end

end Json

end KeyboardPlate
