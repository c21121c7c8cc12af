import KeyboardPlate.Json.Reader

/-!
# YAML nodes

A document is a tree of scalars, sequences and mappings, in which anchors name nodes and aliases stand
for them. What a scalar stands for depends on what is asked for. Where anything may stand, a plain scalar is
a number, a truth value or null if it looks like one, a tag of these kinds decides, and all other scalars are
strings. Where a truth value is wanted, a plain scalar is one whatever its tag; where a word is wanted, every
scalar is its text.
-/

set_option autoImplicit false

namespace KeyboardPlate

/-- How a scalar is written. -/
inductive Yaml.Style where
  | plain
  | quoted
  | literal
  | folded
deriving DecidableEq

/-- A node; the tag of a scalar is written out in full. -/
inductive Yaml where
  | scalar (style : Yaml.Style) (tag : Option String) (text : List Char)
  | sequence (items : List Yaml)
  | mapping (entries : List (Yaml × Yaml))
  | anchored (name : String) (node : Yaml)
  | reference (name : String)
deriving Inhabited

namespace Yaml

/-- A node that is left out. -/
def empty : Yaml := scalar .plain none []

/-- Nodes by the names of their anchors, the latest first. -/
abbrev Anchors := List (String × Yaml)

mutual

/-- The tree with every alias replaced by the node it stands for, and the anchors up to its end. An anchor names
its node within that node already; there its aliases are left as they are. -/
def resolve? (anchors : Anchors) : Yaml → Option (Yaml × Anchors)
  | scalar style tag text => some (scalar style tag text, anchors)
  | sequence items => (resolveItems? anchors items).map fun (items, anchors) => (sequence items, anchors)
  | mapping entries =>
    (resolveEntries? anchors entries).map fun (entries, anchors) => (mapping entries, anchors)
  | anchored name node => node.resolve? ((name, node) :: anchors)
  | reference name => (anchors.lookup name).map fun node => (node, anchors)

def resolveItems? (anchors : Anchors) : List Yaml → Option (List Yaml × Anchors)
  | [] => some ([], anchors)
  | item :: rest => do
    let (item, anchors) ← item.resolve? anchors
    let (rest, anchors) ← resolveItems? anchors rest
    return (item :: rest, anchors)

def resolveEntries? (anchors : Anchors) : List (Yaml × Yaml) → Option (List (Yaml × Yaml) × Anchors)
  | [] => some ([], anchors)
  | (key, value) :: rest => do
    let (key, anchors) ← key.resolve? anchors
    let (value, anchors) ← value.resolve? anchors
    let (rest, anchors) ← resolveEntries? anchors rest
    return ((key, value) :: rest, anchors)

end

/-- Whether a text is written with digits alone, after an optional sign, and has a leading zero. -/
def hasLeadingZero (s : List Char) : Bool :=
  let s := match s with
    | '-' :: rest => rest
    | '+' :: rest => rest
    | s => s
  1 < s.length && s.head? == some '0' && s.all fun c => (digitValue? c).isSome

/-- The number written by digits of a base. -/
def natOfBase? (base : Nat) (s : List Char) : Option Nat :=
  if s.isEmpty then none
  else s.foldlM (fun n c => (hexValue? c).bind fun d => if d < base then some (base * n + d) else none) 0

/-- A whole number without its sign: decimal, or with a mark of its base. -/
def magnitude? (s : List Char) : Option Nat :=
  match s with
  | '0' :: 'x' :: rest => natOfBase? 16 rest
  | '0' :: 'o' :: rest => natOfBase? 8 rest
  | '0' :: 'b' :: rest => natOfBase? 2 rest
  | s => if hasLeadingZero s then none else natOfBase? 10 s

/-- A whole number with an optional sign. -/
def int? (s : List Char) : Option Int :=
  match s with
  | '+' :: rest => (magnitude? rest).map Int.ofNat
  | '-' :: rest => (magnitude? rest).map fun n => -(n : Int)
  | s => (magnitude? s).map Int.ofNat

/-- The power of ten after a fraction. -/
def exponent? : List Char → Option Int
  | [] => some 0
  | c :: rest =>
    if c = 'e' ∨ c = 'E' then
      match rest with
      | '-' :: ds => (natOfDigits? ds).map fun n => -(n : Int)
      | '+' :: ds => (natOfDigits? ds).map Int.ofNat
      | ds => (natOfDigits? ds).map Int.ofNat
    else none

/-- A number with a fraction or an exponent, without its sign. A number beyond the doubles is none. -/
def unsignedFloat? (s : List Char) : Option Float :=
  let (whole, s) := spanDigits s
  let (fraction, s) := match s with
    | '.' :: rest => spanDigits rest
    | s => ([], s)
  if whole.isEmpty && fraction.isEmpty then none
  else
    match exponent? s with
    | none => none
    | some power =>
      let x := Double.ofScientific (natOfDigits (whole ++ fraction)) (power - fraction.length)
      if x.isFinite then some x else none

/-- The words for infinity and for what is no number. -/
def specialFloat? (s : List Char) : Option Float :=
  let infinity : Float := 1.0 / 0.0
  match String.ofList s with
  | ".inf" | ".Inf" | ".INF" | "+.inf" | "+.Inf" | "+.INF" => some infinity
  | "-.inf" | "-.Inf" | "-.INF" => some (-infinity)
  | ".nan" | ".NaN" | ".NAN" => some (0.0 / 0.0)
  | _ => none

def float? (s : List Char) : Option Float :=
  (specialFloat? s).or <|
    match s with
    | '+' :: rest => unsignedFloat? rest
    | '-' :: rest => (unsignedFloat? rest).map fun x => -x
    | s => unsignedFloat? s

def isNull (s : List Char) : Bool := ["~", "null", "Null", "NULL"].contains (String.ofList s)

/-- The words for the truth values. -/
def bool? (s : List Char) : Option Bool :=
  match String.ofList s with
  | "true" | "True" | "TRUE" => some true
  | "false" | "False" | "FALSE" => some false
  | _ => none

/-- The value of a number, if 64 bits hold it. -/
def ofInt (n : Int) : Json := ((JsonNumber.ofInt? n).map .number).getD .unreadable

/-- What a plain scalar stands for where anything may stand. Digits after a zero are a string. -/
def plainValue (s : List Char) : Json :=
  if s.isEmpty || isNull s then .null
  else
    match bool? s with
    | some b => .bool b
    | none =>
      match int? s with
      | some n => ofInt n
      | none =>
        match if hasLeadingZero s then none else float? s with
        | some x => .number (.float x)
        | none => .string (String.ofList s)

/-- What the names of common tags start with. -/
def commonTag : String := "tag:yaml.org,2002:"

/-- What a scalar stands for where anything may stand. The tags of the common kinds read the text as such,
however it is quoted; other full names make a string of it; a tag of one's own has no meaning here. A mark alone
is no tag. -/
def scalarValue (style : Style) (tag : Option String) (text : List Char) : Json :=
  match tag.filter (· != "!") with
  | none => if style = .plain then plainValue text else .string (String.ofList text)
  | some tag =>
    if tag = commonTag ++ "bool" then ((bool? text).map .bool).getD .unreadable
    else if tag = commonTag ++ "int" then ((int? text).map ofInt).getD .unreadable
    else if tag = commonTag ++ "float" then ((float? text).map fun x => .number (.float x)).getD .unreadable
    else if tag = commonTag ++ "null" then if isNull text then .null else .unreadable
    else if tag.startsWith "!" then .unreadable
    else .string (String.ofList text)

/-- The value of a node where anything may stand. Collections count only as such. -/
def value : Yaml → Json
  | scalar style tag text => scalarValue style tag text
  | sequence _ => .array []
  | mapping _ => .object []
  | anchored _ _ => .unreadable
  | reference _ => .unreadable

/-- The truth value of a node. It is written plainly, with any tag, or as a literal block with its own. -/
def truth : Yaml → Json
  | scalar style tag text =>
    if style = .plain ∨ (style = .literal ∧ tag = some (commonTag ++ "bool")) then
      ((bool? text).map .bool).getD .unreadable
    else .unreadable
  | _ => .unreadable

/-- The text of a scalar. -/
def text? : Yaml → Option String
  | scalar _ _ text => some (String.ofList text)
  | _ => none

/-- The text of a node, whatever it looks like. -/
def word (node : Yaml) : Json := (node.text?.map .string).getD .unreadable

end Yaml

end KeyboardPlate
