/-!
# The command line

A call has a subcommand. Options come in any order: a long name or a letter, with a value that follows or
is attached. After two dashes nothing is an option. The first word that cannot be read decides.
-/

set_option autoImplicit false

namespace KeyboardPlate.Command

/-- The form of an output file. -/
inductive Format where
  | dxf
  | svg
  | json
deriving Repr, DecidableEq

namespace Format

def name : Format → String
  | dxf => "dxf"
  | svg => "svg"
  | json => "json"

def ofName? (name : String) : Option Format := [dxf, svg, json].find? fun f => f.name == name

theorem ofName?_name (f : Format) : ofName? f.name = some f := by cases f <;> decide

end Format

/-- What a build is asked to do. -/
structure BuildRequest where
  layout : String
  options : Option String := none
  output : String := "output"
  formats : List Format := [.dxf, .svg]
  preview : Bool := false
deriving Repr, DecidableEq

/-- What a call asks for. -/
inductive Call where
  | build (request : BuildRequest)
  | help
  | version
deriving Repr, DecidableEq

/-- Why a call cannot be read. -/
inductive UsageError where
  | unexpectedArgument (text : String)
  | missingValue (option : String)
  | emptyValue (option : String)
  /-- A value is attached to an option that takes none. -/
  | uselessValue (option : String)
  | repeatedOption (option : String)
  | unknownFormat (name : String)
  | missingLayout
  | missingCommand
  | unknownCommand (name : String)
deriving Repr, DecidableEq

def UsageError.message : UsageError → String
  | unexpectedArgument text => "unexpected argument '" ++ text ++ "'"
  | missingValue option => "a value is required for '" ++ option ++ "'"
  | emptyValue option => "a value is required for '" ++ option ++ "'"
  | uselessValue option => "unexpected value for '" ++ option ++ "'"
  | repeatedOption option => "the argument '" ++ option ++ "' cannot be used multiple times"
  | unknownFormat name => "invalid value '" ++ name ++ "' for '--format'"
  | missingLayout => "the layout is not given"
  | missingCommand => "a subcommand is required"
  | unknownCommand name => "unrecognized subcommand '" ++ name ++ "'"

/-- How a word of a call is written. -/
inductive Word where
  /-- No option; a single dash is one too. -/
  | value (text : String)
  | long (name : String) (attached : Option String)
  | letters (letters : List Char)
  /-- Two dashes alone. -/
  | stop
deriving Repr, DecidableEq

def Word.ofText (text : String) : Word :=
  match text.toList with
  | ['-', '-'] => .stop
  | '-' :: '-' :: rest =>
    let name := rest.takeWhile (· != '=')
    let attached := match rest.drop name.length with
      | _ :: rest => some (String.ofList rest)
      | [] => none
    .long (String.ofList name) attached
  | '-' :: c :: rest => .letters (c :: rest)
  | _ => .value text

/-- An option with a value. -/
inductive Setting where
  | options
  | output
  | format
deriving Repr, DecidableEq

namespace Setting

def name : Setting → String
  | options => "options"
  | output => "output"
  | format => "format"

def ofName? (name : String) : Option Setting := [options, output, format].find? fun s => s.name == name

def ofLetter? : Char → Option Setting
  | 'c' => some options
  | 'o' => some output
  | _ => none

end Setting

/-- What has been read of a build's arguments. -/
structure Draft where
  layout : Option String := none
  options : Option String := none
  output : Option String := none
  formats : Option (List Format) := none
  preview : Bool := false
deriving Repr, DecidableEq

/-- The parts of a list between commas. -/
def splitCommas : List Char → List (List Char)
  | [] => [[]]
  | c :: rest =>
    if c = ',' then [] :: splitCommas rest
    else
      match splitCommas rest with
      | part :: parts => (c :: part) :: parts
      | [] => [[c]]

def readFormat (name : String) : Except UsageError Format :=
  match Format.ofName? name with
  | some f => .ok f
  | none => .error (.unknownFormat name)

namespace Draft

def setPath (option : String) (old : Option String) (value : String) : Except UsageError (Option String) :=
  if old.isSome then .error (.repeatedOption option)
  else if value.isEmpty then .error (.emptyValue option)
  else .ok (some value)

/-- The effect of an option with a value. Only formats may be given more than once; they add up. -/
def set (d : Draft) (s : Setting) (value : String) : Except UsageError Draft :=
  match s with
  | .options => (setPath "--options" d.options value).map fun path => { d with options := path }
  | .output => (setPath "--output" d.output value).map fun path => { d with output := path }
  | .format => do
    let added ← ((splitCommas value.toList).map String.ofList).mapM readFormat
    return { d with formats := some (d.formats.getD [] ++ added) }

/-- The effect of a word that is no option. -/
def setLayout (d : Draft) (path : String) : Except UsageError Draft :=
  if d.layout.isSome then .error (.unexpectedArgument path)
  else if path.isEmpty then .error (.emptyValue "LAYOUT")
  else .ok { d with layout := some path }

def setPreview (d : Draft) : Except UsageError Draft :=
  if d.preview then .error (.repeatedOption "--preview") else .ok { d with preview := true }

/-- The request at the end of a call. -/
def finish (d : Draft) : Except UsageError Call :=
  match d.layout with
  | none => .error .missingLayout
  | some layout => .ok (.build {
      layout := layout
      options := d.options
      output := d.output.getD "output"
      formats := d.formats.getD [.dxf, .svg]
      preview := d.preview })

end Draft

/-- What a word with letters leads to. -/
inductive LetterStep where
  | done
  | help
  | version
  | assign (s : Setting) (value : String)
  /-- The value of the option is the next word. -/
  | await (s : Setting)
deriving Repr, DecidableEq

/-- The value that follows a letter in its word. -/
def attachedValue : List Char → Option String
  | [] => none
  | '=' :: value => some (String.ofList value)
  | value => some (String.ofList value)

/-- Reads letters one by one up to an option with a value. A build has options of its own and no
version. -/
def readLetters (inBuild : Bool) : List Char → Except UsageError LetterStep
  | [] => .ok .done
  | 'v' :: rest => readLetters inBuild rest
  | 'h' :: _ => .ok .help
  | c :: rest =>
    if c = 'V' ∧ !inBuild then .ok .version
    else
      match if inBuild then Setting.ofLetter? c else none with
      | none => .error (.unexpectedArgument (String.ofList ['-', c]))
      | some s =>
        match attachedValue rest with
        | some value => .ok (.assign s value)
        | none => .ok (.await s)

/-- A word that an option takes as its value. -/
def valueOf (s : Setting) (text : String) : Except UsageError String :=
  match Word.ofText text with
  | .value text => .ok text
  | _ => .error (.missingValue ("--" ++ s.name))

/-- The arguments of a build. -/
def readBuild (d : Draft) : List String → Except UsageError Call
  | [] => d.finish
  | text :: rest =>
    match Word.ofText text with
    | .stop => (rest.foldlM Draft.setLayout d).bind Draft.finish
    | .value path =>
      match d.setLayout path with
      | .ok d => readBuild d rest
      | .error e => .error e
    | .long "help" none => .ok .help
    | .long "verbose" none => readBuild d rest
    | .long "preview" none =>
      match d.setPreview with
      | .ok d => readBuild d rest
      | .error e => .error e
    | .long name attached =>
      match Setting.ofName? name, attached, rest with
      | none, _, _ =>
        .error (if name ∈ ["help", "verbose", "preview"] then .uselessValue ("--" ++ name) else .unexpectedArgument text)
      | some s, some value, rest =>
        match d.set s value with
        | .ok d => readBuild d rest
        | .error e => .error e
      | some s, none, [] => .error (.missingValue ("--" ++ s.name))
      | some s, none, value :: rest =>
        match (valueOf s value).bind (d.set s) with
        | .ok d => readBuild d rest
        | .error e => .error e
    | .letters letters =>
      match readLetters true letters, rest with
      | .error e, _ => .error e
      | .ok .done, rest => readBuild d rest
      | .ok .help, _ => .ok .help
      | .ok .version, _ => .ok .version
      | .ok (.assign s value), rest =>
        match d.set s value with
        | .ok d => readBuild d rest
        | .error e => .error e
      | .ok (.await s), [] => .error (.missingValue ("--" ++ s.name))
      | .ok (.await s), value :: rest =>
        match (valueOf s value).bind (d.set s) with
        | .ok d => readBuild d rest
        | .error e => .error e

/-- The subcommands that help is asked about. -/
def readHelp : List String → Except UsageError Call
  | [] | ["build"] | ["help"] => .ok .help
  | "build" :: name :: _ | "help" :: name :: _ => .error (.unknownCommand name)
  | name :: _ => .error (.unknownCommand name)

/-- Reads a call. -/
def read : List String → Except UsageError Call
  | [] => .error .missingCommand
  | text :: rest =>
    match Word.ofText text with
    | .value "build" => readBuild {} rest
    | .value "help" => readHelp rest
    | .value name => .error (.unknownCommand name)
    | .stop =>
      match rest with
      | [] => .error .missingCommand
      | name :: _ => .error (.unexpectedArgument name)
    | .long "help" none => .ok .help
    | .long "version" none => .ok .version
    | .long "verbose" none => read rest
    | .long name attached =>
      .error (if attached.isSome ∧ name ∈ ["help", "version", "verbose"] then .uselessValue ("--" ++ name)
        else .unexpectedArgument text)
    | .letters letters =>
      match readLetters false letters with
      | .error e => .error e
      | .ok .help => .ok .help
      | .ok .version => .ok .version
      | .ok _ => read rest

end KeyboardPlate.Command
