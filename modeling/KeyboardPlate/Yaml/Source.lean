/-!
# Places in a text

The reader of a document looks at lines and columns as well as at characters.
-/

set_option autoImplicit false

namespace KeyboardPlate.Yaml

/-- What is left of a text, and where that starts. -/
structure Source where
  rest : List Char
  line : Nat
  column : Nat

def isBlank (c : Char) : Bool := c == ' ' || c == '\t'

/-- A line break, once the common kinds of them are written in one way. -/
def isBreak (c : Char) : Bool := c == '\n' || c.val == 0x2028 || c.val == 0x2029

/-- Whether a text starts with a blank or a line break, or is at its end. -/
def endsWord : List Char → Bool
  | [] => true
  | c :: _ => isBlank c || isBreak c

/-- Whether a text starts with a mark of three equal characters alone. -/
def startsWithMark (mark : Char) : List Char → Bool
  | a :: b :: c :: rest => a == mark && b == mark && c == mark && endsWord rest
  | _ => false

namespace Source

/-- The place after a number of characters of one line. -/
def skip (n : Nat) (s : Source) : Source := ⟨s.rest.drop n, s.line, s.column + n⟩

/-- Whether a document starts or stops here. -/
def isDocumentMark (s : Source) : Bool :=
  s.column == 0 && (startsWithMark '-' s.rest || startsWithMark '.' s.rest)

/-- Whether there is nothing more for a document. -/
def isDone (s : Source) : Bool := s.rest.isEmpty || s.isDocumentMark

/-- Whether a one-character mark stands here. -/
def isIndicator (mark : Char) (s : Source) : Bool :=
  match s.rest with
  | c :: rest => c == mark && endsWord rest
  | [] => false

/-- Passes over blanks, line breaks and comments. Tabs count as blanks where `tabs` says so, and on later
lines where `flow` does. -/
def passFrom (flow : Bool) : (tabs comment : Bool) → List Char → Nat → Nat → Source
  | _, _, [], line, column => ⟨[], line, column⟩
  | tabs, comment, c :: rest, line, column =>
    if isBreak c then passFrom flow flow false rest (line + 1) 0
    else if comment ∨ c = ' ' ∨ (c = '\t' ∧ tabs) then passFrom flow tabs comment rest line (column + 1)
    else if c = '#' then passFrom flow tabs true rest line (column + 1)
    else ⟨c :: rest, line, column⟩

/-- The next place with a word, where tabs count as blanks on the same line. -/
def pass (flow : Bool) (s : Source) : Source := passFrom flow true false s.rest s.line s.column

/-- The next place with a word, where a tab is no blank. -/
def passSpaces (s : Source) : Source := passFrom false false false s.rest s.line s.column

/-- The next place on the same line that is no blank. -/
def passBlanks (s : Source) : Source := s.skip (s.rest.takeWhile isBlank).length

/-- The start of the next line, if nothing but a comment stands before it. -/
def nextLine? (s : Source) : Option Source :=
  let word := s.passBlanks
  let stop := if word.rest.head? = some '#' then word.skip (word.rest.takeWhile fun c => !isBreak c).length else word
  match stop.rest with
  | [] => some stop
  | c :: rest => if isBreak c then some ⟨rest, stop.line + 1, 0⟩ else none

end Source

end KeyboardPlate.Yaml
