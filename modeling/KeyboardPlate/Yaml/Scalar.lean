import KeyboardPlate.Json.Reader
import KeyboardPlate.Yaml.Source

/-!
# Scalars

A scalar is plain, quoted, or a block of lines. Within a scalar a single line break counts as a blank,
and of several breaks the first one is dropped; a literal block keeps its lines.
-/

set_option autoImplicit false

namespace KeyboardPlate.Yaml

/-- What stands between two words of a scalar. -/
inductive Gap where
  | blanks (blanks : List Char)
  /-- Line breaks: the first one, unless it is escaped, and those after it. -/
  | breaks (first : Option Char) (rest : List Char)

namespace Gap

/-- The characters that a gap leaves in the text. -/
def text : Gap → List Char
  | blanks cs => cs
  | breaks (some '\n') [] => [' ']
  | breaks (some '\n') rest => rest
  | breaks first rest => first.toList ++ rest

/-- The gap with one more blank; after a line break it does not count. -/
def addBlank (c : Char) : Gap → Gap
  | blanks cs => blanks (cs ++ [c])
  | gap => gap

/-- The gap with one more line break, which swallows blanks before it. -/
def addBreak (c : Char) : Gap → Gap
  | blanks _ => breaks (some c) []
  | breaks first rest => breaks first (rest ++ [c])

def hasBreak : Gap → Bool
  | blanks _ => false
  | breaks _ _ => true

def isNone : Gap → Bool
  | blanks [] => true
  | _ => false

end Gap

/-- Whether a plain scalar stops at a text. Brackets and commas stop it in a flow only. -/
def stopsPlain (flow : Bool) : List Char → Bool
  | ':' :: rest => endsWord rest
  | c :: _ => flow && (c == ',' || c == '[' || c == ']' || c == '\x7b' || c == '\x7d')
  | [] => true

/-- Whether a colon stands where a flow does not allow it. -/
def hasStrayColon (flow : Bool) : List Char → Bool
  | ':' :: c :: _ => flow && (c == ',' || c == '?' || c == '[' || c == ']' || c == '\x7b' || c == '\x7d')
  | _ => false

/-- Reads a plain scalar on: its text so far, the gap after it, and where it has stopped so far. Later
lines of a block have to start at column `least` or beyond. -/
def plainFrom (flow : Bool) (least : Nat) (text : List Char) (gap : Gap) (stop : Source) :
    List Char → Nat → Nat → Option (List Char × Source)
  | [], _, _ => some (text, stop)
  | c :: rest, line, column =>
    if isBreak c then plainFrom flow least text (gap.addBreak c) stop rest (line + 1) 0
    else if isBlank c then
      if gap.hasBreak ∧ c = '\t' ∧ column < least then none
      else plainFrom flow least text (gap.addBlank c) stop rest line (column + 1)
    else if (!gap.isNone && (c == '#' || (Source.mk (c :: rest) line column).isDocumentMark)) ||
        (gap.hasBreak && !flow && decide (column < least)) then some (text, stop)
    else if hasStrayColon flow (c :: rest) then none
    else if stopsPlain flow (c :: rest) then some (text, stop)
    else
      plainFrom flow least (text ++ gap.text ++ [c]) (.blanks []) ⟨rest, line, column + 1⟩ rest line (column + 1)

/-- Whether a plain scalar may start with a text. -/
def startsPlain (flow : Bool) : List Char → Bool
  | [] => false
  | c :: rest =>
    if c = '-' then !endsWord rest
    else if c = '?' ∨ c = ':' then !flow && !endsWord rest
    else !isBlank c && !isBreak c && !"-?:,[]\x7b\x7d#&*!|>'\"%@`".toList.contains c

/-- A plain scalar and where it stops. -/
def plain? (flow : Bool) (least : Nat) (s : Source) : Option (List Char × Source) :=
  if startsPlain flow s.rest then
    (plainFrom flow least [] (.blanks []) s s.rest s.line s.column).bind fun (text, stop) =>
      if text.isEmpty then none else some (text, stop)
  else none

/-- An escaped character after the backslash, and the number of characters that stand for it. -/
def escape? : List Char → Option (Char × Nat)
  | '0' :: _ => some (Char.ofNat 0, 1)
  | 'a' :: _ => some (Char.ofNat 7, 1)
  | 'b' :: _ => some (Char.ofNat 8, 1)
  | 't' :: _ => some ('\t', 1)
  | '\t' :: _ => some ('\t', 1)
  | 'n' :: _ => some ('\n', 1)
  | 'v' :: _ => some (Char.ofNat 11, 1)
  | 'f' :: _ => some (Char.ofNat 12, 1)
  | 'r' :: _ => some ('\r', 1)
  | 'e' :: _ => some (Char.ofNat 27, 1)
  | ' ' :: _ => some (' ', 1)
  | '"' :: _ => some ('"', 1)
  | '/' :: _ => some ('/', 1)
  | '\\' :: _ => some ('\\', 1)
  | 'N' :: _ => some (Char.ofNat 0x85, 1)
  | '_' :: _ => some (Char.ofNat 0xA0, 1)
  | 'L' :: _ => some (Char.ofNat 0x2028, 1)
  | 'P' :: _ => some (Char.ofNat 0x2029, 1)
  | 'x' :: rest => codePoint? 2 rest
  | 'u' :: rest => codePoint? 4 rest
  | 'U' :: rest => codePoint? 8 rest
  | _ => none
where
  /-- A character given by hexadecimal digits after a letter. -/
  codePoint? (digits : Nat) (rest : List Char) : Option (Char × Nat) :=
    if (rest.take digits).length < digits then none
    else
      (natOfHex? (rest.take digits)).bind fun n =>
        if n < 0x110000 ∧ ¬ (0xD800 ≤ n ∧ n < 0xE000) then some (Char.ofNat n, digits + 1) else none

/-- Reads a quoted scalar on up to its closing quote; `skip` characters belong to an escape. -/
def quotedFrom (double : Bool) (text : List Char) (gap : Gap) (skip : Nat) :
    List Char → Nat → Nat → Option (List Char × Source)
  | [], _, _ => none
  | c :: rest, line, column =>
    match skip with
    | skip + 1 => quotedFrom double text gap skip rest line (column + 1)
    | 0 =>
      if (Source.mk (c :: rest) line column).isDocumentMark then none
      else if isBreak c then quotedFrom double text (gap.addBreak c) 0 rest (line + 1) 0
      else if isBlank c then quotedFrom double text (gap.addBlank c) 0 rest line (column + 1)
      else if double then
        if c = '"' then some (text ++ gap.text, ⟨rest, line, column + 1⟩)
        else if c = '\\' then
          if rest.head?.any isBreak then
            quotedFrom double (text ++ gap.text) (.breaks none []) 1 rest (line + 1) 0
          else
            match escape? rest with
            | some (e, n) => quotedFrom double (text ++ gap.text ++ [e]) (.blanks []) n rest line (column + 1)
            | none => none
        else quotedFrom double (text ++ gap.text ++ [c]) (.blanks []) 0 rest line (column + 1)
      else if c = '\'' then
        if rest.head? = some '\'' then
          quotedFrom double (text ++ gap.text ++ [c]) (.blanks []) 1 rest line (column + 1)
        else some (text ++ gap.text, ⟨rest, line, column + 1⟩)
      else quotedFrom double (text ++ gap.text ++ [c]) (.blanks []) 0 rest line (column + 1)

/-- A quoted scalar and where it stops. -/
def quoted? (s : Source) : Option (List Char × Source) :=
  match s.rest with
  | '"' :: rest => quotedFrom true [] (.blanks []) 0 rest s.line (s.column + 1)
  | '\'' :: rest => quotedFrom false [] (.blanks []) 0 rest s.line (s.column + 1)
  | _ => none

/-- What becomes of the line breaks at the end of a block. -/
inductive Chomp where
  | clip
  | strip
  | keep
deriving DecidableEq

/-- The marks after the sign of a block: the end of the block, and how far it is indented. -/
def blockMarks? : List Char → Option (Chomp × Option Nat)
  | [] => some (.clip, none)
  | ['-'] => some (.strip, none)
  | ['+'] => some (.keep, none)
  | [d] => (digit? d).map fun n => (.clip, some n)
  | [a, b] =>
    match a, b with
    | '-', d => (digit? d).map fun n => (.strip, some n)
    | '+', d => (digit? d).map fun n => (.keep, some n)
    | d, '-' => (digit? d).map fun n => (.strip, some n)
    | d, '+' => (digit? d).map fun n => (.keep, some n)
    | _, _ => none
  | _ => none
where
  /-- An indentation of one to nine columns. -/
  digit? (c : Char) : Option Nat := (digitValue? c).bind fun n => if n = 0 then none else some n

/-- The lines of a text, each with the line break that stops it. -/
def linesOf : List Char → List (List Char × Option Char)
  | [] => []
  | c :: rest =>
    if isBreak c then ([], some c) :: linesOf rest
    else
      match linesOf rest with
      | (line, stop) :: lines => (c :: line, stop) :: lines
      | [] => [([c], none)]

def indentOf (line : List Char) : Nat := (line.takeWhile (· == ' ')).length

/-- The indentation of a block that does not give it: that of its first line with a word, where no tab may be. -/
def detectIndent? (least : Nat) (lines : List (List Char × Option Char)) : Option Nat :=
  let blank := lines.takeWhile fun (l, _) => indentOf l = l.length
  let first := (lines.drop blank.length).head?.map (·.1)
  if first.any fun l => l[indentOf l]? == some '\t' then none
  else
    let widths := (blank.map fun (l, _) => indentOf l) ++ (first.map indentOf).toList
    some (max (max least 1) (widths.foldl max 0))

/-- The lines of a block, less their indentation, and the lines after it. A line of blanks alone within
the indentation is empty, and a tab within it is an error. -/
def blockLines? (indent : Nat) : List (List Char × Option Char) →
    Option (List (List Char × Option Char) × List (List Char × Option Char))
  | [] => some ([], [])
  | (l, stop) :: rest =>
    if indent ≤ indentOf l ∨ indentOf l = l.length then
      (blockLines? indent rest).map fun (block, after) => ((l.drop indent, stop) :: block, after)
    else if l[indentOf l]? = some '\t' then none
    else some ([], (l, stop) :: rest)

/-- What line breaks between two lines leave of themselves where a block folds them. -/
def foldBreaks : List Char → List Char
  | ['\n'] => [' ']
  | '\n' :: rest => rest
  | breaks => breaks

/-- Joins the lines of a block: `breaks` are pending, which a folded block may fold; `plainBefore` tells that the
last line started with a word. -/
def joinBlock (folded : Bool) (text : List Char) (plainBefore : Bool) (breaks : List Char) :
    List (List Char × Option Char) → List Char × List Char
  | [] => (text, breaks)
  | ([], stop) :: rest => joinBlock folded text plainBefore (breaks ++ stop.toList) rest
  | (c :: line, stop) :: rest =>
    let isWord := !isBlank c
    let gap := if folded && plainBefore && isWord then foldBreaks breaks else breaks
    joinBlock folded (text ++ gap ++ c :: line) isWord stop.toList rest

/-- A block of lines and where it stops. -/
def block? (least : Nat) (s : Source) : Option (List Char × Source) :=
  match s.rest with
  | sign :: rest =>
    if sign = '|' ∨ sign = '>' then do
      let marks := rest.takeWhile fun c => !isBlank c && !isBreak c
      let header := (Source.mk (rest.drop marks.length) s.line (s.column + 1 + marks.length)).passBlanks
      let comment := header.rest.takeWhile fun c => !isBreak c
      if !(comment.isEmpty || comment.head? == some '#') then none
      let (chomp, given) ← blockMarks? marks
      let lines := linesOf (header.rest.drop (comment.length + 1))
      let indent ← match given with
        | some n => some (least - 1 + n)
        | none => detectIndent? least lines
      let (block, after) ← blockLines? indent lines
      let (text, breaks) := joinBlock (sign == '>') [] false [] block
      let ending := match chomp with
        | .strip => []
        | .clip => if text.isEmpty then [] else breaks.take 1
        | .keep => breaks
      let rest := after.flatMap fun (line, stop) => line ++ stop.toList
      some (text ++ ending, ⟨rest, s.line + 1 + block.length, 0⟩)
    else none
  | [] => none

end KeyboardPlate.Yaml
