import KeyboardPlate.Yaml.Basic
import KeyboardPlate.Yaml.Scalar

/-!
# Reading YAML

A text holds at most one document. In a block, columns tell where a collection goes on; in a flow, brackets
and commas do. A mark at the column of a block belongs to it, a word beyond that column to one of its
nodes. The reader is given a bound on the depth of its calls, which the length of the text supplies.
-/

set_option autoImplicit false

namespace KeyboardPlate.Yaml

/-- What may stand before a node: an anchor and a tag. -/
structure Properties where
  anchor : Option String := none
  tag : Option String := none
deriving DecidableEq

namespace Properties

def isNone (p : Properties) : Bool := p.anchor.isNone && p.tag.isNone

/-- The node with properties. A node has each at most once, and an alias has none. -/
def on? (p : Properties) (node : Yaml) : Option Yaml :=
  if p.isNone then some node
  else
    match p.anchor, node with
    | _, reference _ => none
    | some _, anchored _ _ => none
    | some name, scalar style tag text =>
      if p.tag.isSome ∧ tag.isSome then none else some (anchored name (scalar style (p.tag.or tag) text))
    | some name, node => some (anchored name node)
    | none, scalar style tag text => if tag.isSome then none else some (scalar style p.tag text)
    | none, anchored name (scalar style tag text) =>
      if tag.isSome then none else some (anchored name (scalar style p.tag text))
    | none, node => some node

end Properties

def isNameChar (c : Char) : Bool := c.isAlphanum || c == '_' || c == '-'

/-- The name of an anchor or alias after its sign. -/
def name? (s : Source) : Option (String × Source) :=
  let name := (s.rest.drop 1).takeWhile isNameChar
  let after := s.skip (1 + name.length)
  let isClosed := endsWord after.rest ||
    (after.rest.head?.any fun c => "?:,]\x7d%@`".toList.contains c)
  if name.isEmpty ∨ !isClosed then none else some (String.ofList name, after)

/-- What the handles of tags stand for; of two equal handles the first one counts. -/
abbrev Handles := List (String × String)

/-- The handles that need no directive. -/
def commonHandles : Handles := [("!", "!"), ("!!", commonTag)]

def isTagChar (c : Char) : Bool := isNameChar c || ";/?:@&=+$.!~*'()%".toList.contains c

/-- Inside angle brackets and directives three more characters are allowed. -/
def isUriChar (c : Char) : Bool := isTagChar c || c == ',' || c == '[' || c == ']'

/-- The characters of a tag in which each percent sign gives an octet by two hexadecimal digits; `pending` octets
are still to come of a character, of whose number `code` is known. -/
def unescapeFrom? (pending code : Nat) : List Char → Option (List Char)
  | [] => if pending = 0 then some [] else none
  | '%' :: a :: b :: rest => do
    let octet ← natOfHex? [a, b]
    match pending with
    | 0 =>
      if octet < 0x80 then return Char.ofNat octet :: (← unescapeFrom? 0 0 rest)
      else if 0xC0 ≤ octet ∧ octet < 0xE0 then unescapeFrom? 1 (octet - 0xC0) rest
      else if 0xE0 ≤ octet ∧ octet < 0xF0 then unescapeFrom? 2 (octet - 0xE0) rest
      else if 0xF0 ≤ octet ∧ octet < 0xF8 then unescapeFrom? 3 (octet - 0xF0) rest
      else none
    | more + 1 =>
      let code := 64 * code + (octet - 0x80)
      if octet < 0x80 ∨ 0xC0 ≤ octet then none
      else if more = 0 then return Char.ofNat code :: (← unescapeFrom? 0 0 rest)
      else unescapeFrom? more code rest
  | c :: rest => if c = '%' ∨ pending ≠ 0 then none else (unescapeFrom? 0 0 rest).map (c :: ·)

/-- A tag written out in full, from what its handle stands for and the rest of it. -/
def fullTag? (stem : String) (suffix : List Char) : Option String :=
  (unescapeFrom? 0 0 suffix).map fun cs => stem ++ String.ofList cs

/-- A tag: a full name between angle brackets, or the rest of a name after a handle, or a mark alone. -/
def tag? (handles : Handles) (flow : Bool) (s : Source) : Option (String × Source) := do
  let (tag, after) ← match s.rest with
    | '!' :: '<' :: rest =>
      let uri := rest.takeWhile isUriChar
      if uri.isEmpty ∨ rest[uri.length]? ≠ some '>' then none
      else (fullTag? "" uri).map fun tag => (tag, s.skip (uri.length + 3))
    | '!' :: rest =>
      let name := rest.takeWhile isNameChar
      match rest.drop name.length with
      | '!' :: rest =>
        let suffix := rest.takeWhile isTagChar
        if suffix.isEmpty then none
        else do
          let tag ← fullTag? (← handles.lookup (String.ofList ('!' :: name ++ ['!']))) suffix
          some (tag, s.skip (name.length + 2 + suffix.length))
      | _ =>
        let suffix := rest.takeWhile isTagChar
        if suffix.isEmpty then some ("!", s.skip 1)
        else do
          let tag ← fullTag? (← handles.lookup "!") suffix
          some (tag, s.skip (1 + suffix.length))
    | _ => none
  if endsWord after.rest ∨ (flow ∧ after.rest.head? = some ',') then some (tag, after) else none

/-! ## Nodes -/

section
variable (handles : Handles)

/-- Properties, one at a time; the place after each is where the next word starts. -/
def propertiesFrom? (flow : Bool) : Nat → Properties → Source → Option (Properties × Source)
  | 0, p, s => some (p, s)
  | n + 1, p, s =>
    match s.rest with
    | '&' :: _ => do
      let (name, after) ← name? s
      if p.anchor.isSome then none
      else follow n { p with anchor := some name } after
    | '!' :: _ => do
      let (tag, after) ← tag? handles flow s
      if p.tag.isSome then none
      else follow n { p with tag := some tag } after
    | _ => some (p, s)
where
  /-- Goes on with a property on the same line. -/
  follow (n : Nat) (p : Properties) (after : Source) : Option (Properties × Source) :=
    let next := after.passBlanks
    match next.rest with
    | c :: _ => if c = '&' ∨ c = '!' then propertiesFrom? flow n p next else some (p, after)
    | [] => some (p, after)

/-- The properties at a place, and where they stop. -/
def properties? (flow : Bool) (s : Source) : Option (Properties × Source) := propertiesFrom? handles flow 3 {} s

/-- The place after the colon that makes a key of what stands between two places: they are on one line, and
near. -/
def afterKey? (flow : Bool) (start stop : Source) : Option Source :=
  let colon := stop.passBlanks
  match colon.rest with
  | ':' :: rest =>
    if stop.line = start.line ∧ colon.column ≤ start.column + 1024 ∧ (flow ∨ endsWord rest) then
      some (colon.skip 1)
    else none
  | _ => none

def startsWith (cs : List Char) (s : Source) : Bool := s.rest.head?.any fun c => cs.contains c

/-- Whether a line starts with the next word, when a node stops at a place. -/
def isFresh (stop next : Source) : Bool := stop.line < next.line || stop.column == 0

mutual

/-- A node that brackets, quotes or its own end delimit. -/
def atom? (fuel : Nat) (flow : Bool) (least : Nat) (s : Source) : Option (Yaml × Source) :=
  match fuel, s.rest with
  | 0, _ => none
  | fuel + 1, '[' :: _ => flowSequence? fuel [] (s.skip 1)
  | fuel + 1, '\x7b' :: _ => flowMapping? fuel [] (s.skip 1)
  | _, '"' :: _ => (quoted? s).map fun (text, stop) => (scalar .quoted none text, stop)
  | _, '\'' :: _ => (quoted? s).map fun (text, stop) => (scalar .quoted none text, stop)
  | _, '*' :: _ => (name? s).map fun (name, stop) => (reference name, stop)
  | _, _ => (plain? flow least s).map fun (text, stop) => (scalar .plain none text, stop)

/-- A node of a flow. Properties may stand alone. -/
def flowNode? (fuel : Nat) (s : Source) : Option (Yaml × Source) :=
  match fuel with
  | 0 => none
  | fuel + 1 => do
    let (p, after) ← properties? handles true s
    let t := if p.isNone then s else after.pass true
    if t.isDone then none
    else if !p.isNone && startsWith [',', ']', '\x7d', ':'] t then
      return (← p.on? empty, after)
    else
      let (node, stop) ← atom? fuel true 0 t
      return (← p.on? node, stop)

/-- What follows a colon of a flow: a node, unless the entry stops there. -/
def flowValue? (fuel : Nat) (s : Source) : Option (Yaml × Source) :=
  match fuel with
  | 0 => none
  | fuel + 1 =>
    let t := s.pass true
    if startsWith [',', ']', '\x7d'] t then some (empty, s) else flowNode? fuel t

/-- An entry of a flow: a node, or a key and its value. -/
def flowEntry? (fuel : Nat) (s : Source) : Option ((Yaml × Option Yaml) × Source) :=
  match fuel with
  | 0 => none
  | fuel + 1 =>
    if startsWith ['?'] s then do
      let t := (s.skip 1).pass true
      let (key, stop) ← if startsWith [',', ']', '\x7d', ':'] t then pure (empty, t) else flowNode? fuel t
      let colon := stop.pass true
      if startsWith [':'] colon then
        let (value, stop) ← flowValue? fuel (colon.skip 1)
        return ((key, some value), stop)
      else return ((key, some empty), stop)
    else do
      let (key, stop) ← flowNode? fuel s
      match afterKey? true s stop with
      | some after =>
        let (value, stop) ← flowValue? fuel after
        return ((key, some value), stop)
      | none => return ((key, none), stop)

/-- The rest of a sequence in brackets; a key with a value is a mapping of its own. -/
def flowSequence? (fuel : Nat) (items : List Yaml) (s : Source) : Option (Yaml × Source) :=
  match fuel with
  | 0 => none
  | fuel + 1 => do
    let t := s.pass true
    if t.isDone then none
    else if startsWith [']'] t then return (sequence items.reverse, t.skip 1)
    else
      let (entry, stop) ← flowEntry? fuel t
      let item := match entry with
        | (node, none) => node
        | (key, some value) => mapping [(key, value)]
      let next := stop.pass true
      if startsWith [','] next then flowSequence? fuel (item :: items) (next.skip 1)
      else if startsWith [']'] next then return (sequence (item :: items).reverse, next.skip 1)
      else none

/-- The rest of a mapping in braces; a node without value has an empty one. -/
def flowMapping? (fuel : Nat) (entries : List (Yaml × Yaml)) (s : Source) : Option (Yaml × Source) :=
  match fuel with
  | 0 => none
  | fuel + 1 => do
    let t := s.pass true
    if t.isDone then none
    else if startsWith ['\x7d'] t then return (mapping entries.reverse, t.skip 1)
    else
      let ((key, value), stop) ← flowEntry? fuel t
      let entries := (key, value.getD empty) :: entries
      let next := stop.pass true
      if startsWith [','] next then flowMapping? fuel entries (next.skip 1)
      else if startsWith ['\x7d'] next then return (mapping entries.reverse, next.skip 1)
      else none

end

mutual

/-- A node of a block at a word. Its later lines start at column `least` or beyond. `compact` allows a
block collection on this line; `indentless` allows a sequence just before column `least` after
properties. -/
def blockNode? (fuel : Nat) (least : Nat) (compact indentless : Bool) (s : Source) : Option (Yaml × Source) :=
  match fuel with
  | 0 => none
  | fuel + 1 => do
    let (p, after) ← properties? handles false s
    let t := if p.isNone then s else after.pass false
    if !p.isNone && (t.isDone || t.line != s.line) then
      let (node, stop) ←
        if t.isDone then pure (empty, after)
        else if least ≤ t.column then blockNode? fuel least true false t
        else if indentless && t.column + 1 == least && t.isIndicator '-' then
          blockSequence? fuel t.column [] t
        else pure (empty, after)
      return (← p.on? node, stop)
    else if p.isNone && compact && t.isIndicator '-' then blockSequence? fuel t.column [] t
    else if p.isNone && compact && t.isIndicator '?' then blockMapping? fuel t.column [] t
    else if startsWith ['|', '>'] t then
      let (text, stop) ← block? least t
      return (← p.on? (scalar (if startsWith ['|'] t then .literal else .folded) none text), stop)
    else
      let (node, stop) ←
        if !p.isNone && startsWith [':'] t && endsWord (t.rest.drop 1) then pure (empty, after)
        else atom? handles fuel false least t
      let node ← p.on? node
      match compact, afterKey? false s stop with
      | true, some colon =>
        let (value, stop) ← blockValue? fuel s.column false true colon
        blockEntries? fuel s.column [(node, value)] stop
      | _, _ => return (node, stop)

/-- What follows a mark of a block at a column: a node on the same line or beyond the column on a later
one, a sequence at the column where `indentless` allows it, or nothing. -/
def blockValue? (fuel : Nat) (column : Nat) (compact indentless : Bool) (s : Source) :
    Option (Yaml × Source) :=
  match fuel with
  | 0 => none
  | fuel + 1 =>
    let t := if compact then s.passSpaces else s.pass false
    if t.isDone then some (empty, s)
    else if t.line = s.line then blockNode? fuel (column + 1) compact indentless t
    else if column < t.column then blockNode? fuel (column + 1) true indentless t
    else if indentless && t.column == column && t.isIndicator '-' then blockSequence? fuel column [] t
    else some (empty, s)

/-- The items of a sequence from a dash at a column on. -/
def blockSequence? (fuel : Nat) (column : Nat) (items : List Yaml) (s : Source) : Option (Yaml × Source) :=
  match fuel with
  | 0 => none
  | fuel + 1 => do
    let (item, stop) ← blockValue? fuel column true false (s.skip 1)
    let next := stop.pass false
    if !next.isDone && isFresh stop next && next.column == column && next.isIndicator '-' then
      blockSequence? fuel column (item :: items) next
    else return (sequence (item :: items).reverse, stop)

/-- The entries of a mapping after those read so far. -/
def blockEntries? (fuel : Nat) (column : Nat) (entries : List (Yaml × Yaml)) (stop : Source) :
    Option (Yaml × Source) :=
  match fuel with
  | 0 => none
  | fuel + 1 =>
    let next := stop.pass false
    if !next.isDone && isFresh stop next && next.column == column then
      blockMapping? fuel column entries next
    else some (mapping entries.reverse, stop)

/-- The entries of a mapping from a key at a column on. The key stands before a colon on one line, or
after a question mark. -/
def blockMapping? (fuel : Nat) (column : Nat) (entries : List (Yaml × Yaml)) (s : Source) :
    Option (Yaml × Source) :=
  match fuel with
  | 0 => none
  | fuel + 1 => do
    if s.isIndicator '?' then
      let (key, stop) ← blockValue? fuel column true true (s.skip 1)
      let next := stop.pass false
      if !next.isDone && isFresh stop next && next.column == column && next.isIndicator ':' then
        let (value, stop) ← blockValue? fuel column true true (next.skip 1)
        blockEntries? fuel column ((key, value) :: entries) stop
      else blockEntries? fuel column ((key, empty) :: entries) stop
    else
      let (p, after) ← properties? handles false s
      let t := if p.isNone then s else after.passBlanks
      let (key, stop) ←
        if !p.isNone && startsWith [':'] t && endsWord (t.rest.drop 1) then pure (empty, after)
        else atom? handles fuel false (column + 1) t
      let key ← p.on? key
      let colon ← afterKey? false s stop
      let (value, stop) ← blockValue? fuel column false true colon
      blockEntries? fuel column ((key, value) :: entries) stop

end

end

/-! ## Documents -/

/-- Whether a text may hold a character. -/
def isAllowed (c : Char) : Bool :=
  c == '\t' || c == '\n' || c == '\r' || c.val == 0x85 || (0x20 ≤ c.val && c.val ≤ 0x7E) ||
    (0xA0 ≤ c.val && c.val != 0xFEFF && c.val != 0xFFFE && c.val != 0xFFFF)

/-- The text with every kind of line break written in one way. -/
def withPlainBreaks : List Char → List Char
  | [] => []
  | '\r' :: '\n' :: rest => '\n' :: withPlainBreaks rest
  | c :: rest => (if c == '\r' || c.val == 0x85 then '\n' else c) :: withPlainBreaks rest

/-- Whether nothing is left but ends of the document. -/
def isFinished : Nat → Source → Bool
  | 0, _ => false
  | fuel + 1, s =>
    let next := s.pass false
    next.rest.isEmpty || (next.column == 0 && startsWithMark '.' next.rest && isFinished fuel (next.skip 3))

/-- A number of at most nine digits, and the place after it. -/
def versionNumber? (s : Source) : Option (Nat × Source) :=
  let (digits, _) := spanDigits s.rest
  if digits.isEmpty ∨ 9 < digits.length then none else some (natOfDigits digits, s.skip digits.length)

/-- The place after the version in its directive. -/
def version? (s : Source) : Option Source := do
  let (major, point) ← versionNumber? s
  if point.rest.head? ≠ some '.' then none
  let (minor, after) ← versionNumber? (point.skip 1)
  if major = 1 ∧ (minor = 1 ∨ minor = 2) then some after else none

/-- The handle in its directive with what it stands for, and the place after that. -/
def handle? (s : Source) : Option ((String × String) × Source) :=
  match s.rest with
  | '!' :: rest => do
    let name := rest.takeWhile isNameChar
    let closed := rest[name.length]? == some '!'
    let handle := '!' :: name ++ if closed then ['!'] else []
    let after := s.skip handle.length
    let start := after.passBlanks
    let uri := start.rest.takeWhile isUriChar
    if (!closed && !name.isEmpty) || start.column == after.column || uri.isEmpty then none
    let stop := start.skip uri.length
    if endsWord stop.rest then some ((String.ofList handle, ← fullTag? "" uri), stop) else none
  | _ => none

/-- The directives at the starts of lines: the version once at most, and every handle once at most. -/
def directives? : (fuel : Nat) → (versioned : Bool) → Handles → Source → Option (Handles × Source)
  | 0, _, _, _ => none
  | fuel + 1, versioned, handles, s =>
    if s.column ≠ 0 ∨ !startsWith ['%'] s then some (handles, s)
    else do
      let name := (s.rest.drop 1).takeWhile isNameChar
      let after := s.skip (1 + name.length)
      if !endsWord after.rest then none
      match String.ofList name with
      | "YAML" =>
        let next ← (← version? after.passBlanks).nextLine?
        if versioned then none else directives? fuel true handles (next.pass false)
      | "TAG" =>
        let (entry, stop) ← handle? after.passBlanks
        let next ← stop.nextLine?
        if (handles.lookup entry.1).isSome then none
        else directives? fuel versioned (entry :: handles) (next.pass false)
      | _ => none

/-- The document of a text, if there is one. -/
def document? (text : List Char) : Option (Option Yaml) := do
  let fuel := 8 * (text.length + 2)
  let start := (Source.mk text 0 0).passSpaces
  let finish (root : Yaml × Source) : Option (Option Yaml) :=
    let next := root.2.pass false
    if isFinished fuel root.2 && (next.rest.isEmpty || isFresh root.2 next) then some (some root.1) else none
  if start.rest.isEmpty then return none
  else
    let (declared, mark) ← directives? fuel false [] start
    let handles := declared ++ commonHandles
    if startsWithMark '-' mark.rest && mark.column == 0 then
      let after := mark.skip 3
      let t := after.pass false
      if t.isDone then finish (empty, after)
      else finish (← blockNode? handles fuel 0 (t.line != mark.line) false t)
    else if start.isDone || mark.line != start.line then none
    else finish (← blockNode? handles fuel 0 true false start)

/-- Reads a text. There may be no document in it; otherwise its aliases are replaced by what they stand
for. -/
def read? (text : String) : Option (Option Yaml) := do
  let chars := match text.toList with
    | c :: rest => if c.val == 0xFEFF then rest else c :: rest
    | [] => []
  if chars.all isAllowed then
    match ← document? (withPlainBreaks chars) with
    | none => return none
    | some root => return some (← root.resolve? []).1
  else none

end KeyboardPlate.Yaml
