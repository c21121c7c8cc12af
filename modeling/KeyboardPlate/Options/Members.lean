import KeyboardPlate.Options.Basic
import KeyboardPlate.Decimal.Text
import KeyboardPlate.Json.Reader
import KeyboardPlate.Double.Text

/-!
# Options as JSON members

Every option has a member name, a reader of its value and a writer. Members may be given in any order,
each at most once; unknown ones are ignored. An array gives the values of the first options in order.
-/

set_option autoImplicit false

namespace KeyboardPlate

/-- A name that selects no shape of its family. -/
structure UnsupportedVariant where
  family : String
  name : String
deriving Repr, DecidableEq

def UnsupportedVariant.message (e : UnsupportedVariant) : String :=
  "unsupported " ++ e.family ++ " variant: " ++ e.name

/-- Why options cannot be read. -/
inductive OptionsError where
  | unsupported (variant : UnsupportedVariant)
  /-- A value of the wrong form, a member given twice, or a text that is not well-formed. -/
  | malformed
deriving Repr, DecidableEq

def OptionsError.message : OptionsError → String
  | unsupported variant => variant.message
  | malformed => "the text does not give options"

def StabilizerType.parse (name : String) : Except UnsupportedVariant StabilizerType :=
  match ofName? name with
  | .some kind => .ok kind
  | .none => .error ⟨"stabilizer", name⟩

def AcousticType.parse (name : String) : Except UnsupportedVariant AcousticType :=
  match ofName? name with
  | .some kind => .ok kind
  | .none => .error ⟨"acoustic", name⟩

/-- A decimal given as a number or as a text. A double counts as its text without exponent. -/
def Decimal.ofJson? : Json → Option Decimal
  | .number (.int n) => Decimal.ofParts? (decide (n < 0)) n.natAbs 0
  | .number (.float x) => Decimal.readPlain? (Double.text .message x).toList
  | .string s => Decimal.readChars? s.toList
  | _ => none

namespace Options

/-- What an option wants its value to be: the texts of some formats say that only together with this. -/
inductive Wanted where
  | any
  | truth
  | word
deriving DecidableEq

/-- One option: its member name, what it wants, what a value does to the options, and its value. -/
structure Field where
  name : String
  wanted : Wanted
  read : Json → Except OptionsError (Options → Options)
  write : Options → Json

namespace Field

def decimal (name : String) (get : Options → Decimal) (set : Decimal → Options → Options) : Field where
  name := name
  wanted := .any
  read value :=
    match Decimal.ofJson? value with
    | some d => .ok (set d)
    | none => .error .malformed
  write options := .string (get options).text

def flag (name : String) (get : Options → Bool) (set : Bool → Options → Options) : Field where
  name := name
  wanted := .truth
  read
    | .bool b => .ok (set b)
    | _ => .error .malformed
  write options := .bool (get options)

/-- An option that names one of a family of shapes. -/
def selector {κ : Type} (name : String) (parse : String → Except UnsupportedVariant κ)
    (text : κ → String) (get : Options → κ) (set : κ → Options → Options) : Field where
  name := name
  wanted := .word
  read
    | .string s =>
      match parse s with
      | .ok kind => .ok (set kind)
      | .error e => .error (.unsupported e)
    | _ => .error .malformed
  write options := .string (text (get options))

end Field

/-- All options in order. -/
def fields : List Field := [
  .decimal "switchHeight" (·.switchHeight) fun d o => { o with switchHeight := d },
  .decimal "switchWidth" (·.switchWidth) fun d o => { o with switchWidth := d },
  .decimal "switchFilletRadius" (·.switchFilletRadius) fun d o => { o with switchFilletRadius := d },
  .flag "switchDogbone" (·.switchDogbone) fun b o => { o with switchDogbone := b },
  .flag "switchPattern" (·.switchPattern) fun b o => { o with switchPattern := b },
  .decimal "switchLineWidth" (·.switchLineWidth) fun d o => { o with switchLineWidth := d },
  .decimal "switchSolderMaskExpansion" (·.switchSolderMaskExpansion)
    fun d o => { o with switchSolderMaskExpansion := d },
  .selector "stabilizerCutoutType" StabilizerType.parse StabilizerType.name (·.stabilizerCutoutType)
    fun k o => { o with stabilizerCutoutType := k },
  .decimal "stabilizerFilletRadius" (·.stabilizerFilletRadius)
    fun d o => { o with stabilizerFilletRadius := d },
  .flag "stabilizerPattern" (·.stabilizerPattern) fun b o => { o with stabilizerPattern := b },
  .decimal "stabilizerLineWidth" (·.stabilizerLineWidth) fun d o => { o with stabilizerLineWidth := d },
  .decimal "stabilizerSolderMaskExpansion" (·.stabilizerSolderMaskExpansion)
    fun d o => { o with stabilizerSolderMaskExpansion := d },
  .selector "acousticCutoutType" AcousticType.parse AcousticType.name (·.acousticCutoutType)
    fun k o => { o with acousticCutoutType := k },
  .decimal "acousticFilletRadius" (·.acousticFilletRadius)
    fun d o => { o with acousticFilletRadius := d },
  .flag "acousticPattern" (·.acousticPattern) fun b o => { o with acousticPattern := b },
  .decimal "acousticLineWidth" (·.acousticLineWidth) fun d o => { o with acousticLineWidth := d },
  .decimal "acousticSolderMaskExpansion" (·.acousticSolderMaskExpansion)
    fun d o => { o with acousticSolderMaskExpansion := d },
  .flag "extremeSlot" (·.extremeSlot) fun b o => { o with extremeSlot := b },
  .decimal "slotWidth" (·.slotWidth) fun d o => { o with slotWidth := d },
  .decimal "switchHousingWidth" (·.switchHousingWidth) fun d o => { o with switchHousingWidth := d },
  .decimal "connectorWidth" (·.connectorWidth) fun d o => { o with connectorWidth := d },
  .flag "slotPattern" (·.slotPattern) fun b o => { o with slotPattern := b },
  .decimal "slotLineWidth" (·.slotLineWidth) fun d o => { o with slotLineWidth := d },
  .decimal "slotSolderMaskExpansion" (·.slotSolderMaskExpansion)
    fun d o => { o with slotSolderMaskExpansion := d },
  .decimal "slotPatternRadius" (·.slotPatternRadius) fun d o => { o with slotPatternRadius := d },
  .decimal "plateRadius" (·.plateRadius) fun d o => { o with plateRadius := d },
  .flag "platePattern" (·.platePattern) fun b o => { o with platePattern := b },
  .decimal "plateLineWidth" (·.plateLineWidth) fun d o => { o with plateLineWidth := d },
  .decimal "plateSolderMaskExpansion" (·.plateSolderMaskExpansion)
    fun d o => { o with plateSolderMaskExpansion := d },
  .decimal "platePatternRadius" (·.platePatternRadius) fun d o => { o with platePatternRadius := d },
  .decimal "unitWidth" (·.unitWidth) fun d o => { o with unitWidth := d },
  .decimal "unitHeight" (·.unitHeight) fun d o => { o with unitHeight := d }]

def field? (name : String) : Option Field := fields.find? fun f => f.name == name

/-- The options as an object with all members. -/
def toJson (o : Options) : Json := .object (fields.map fun f => (f.name, f.write o))

/-- Reads members one after the other; `seen` names the options that have had their member. -/
def readMembers (seen : List String) (o : Options) : List (String × Json) → Except OptionsError Options
  | [] => .ok o
  | (name, value) :: rest =>
    match field? name with
    | none => readMembers seen o rest
    | some f =>
      if name ∈ seen then .error .malformed
      else
        match f.read value with
        | .error e => .error e
        | .ok set => readMembers (name :: seen) (set o) rest

/-- Reads the values of the given fields in order; further values are an error. -/
def readItems (o : Options) : List Field → List Json → Except OptionsError Options
  | _, [] => .ok o
  | [], _ :: _ => .error .malformed
  | f :: fs, value :: rest =>
    match f.read value with
    | .error e => .error e
    | .ok set => readItems (set o) fs rest

/-- Options from what stands in a text before its first fault: an unusable value counts before a fault
that comes later. -/
def ofScan (scan : Json.Scan) : Except OptionsError Options :=
  let finish (whole : Bool) (o : Options) : Except OptionsError Options :=
    if whole then .ok o else .error .malformed
  match scan with
  | .object members whole => (readMembers [] {} members).bind (finish whole)
  | .array items whole => (readItems {} fields items).bind (finish whole)
  | .other => .error .malformed

/-- Options from a JSON text. -/
def ofJsonText (text : String) : Except OptionsError Options := ofScan (Json.scan text)

/-- Options from a JSON value. Its members are read in the order of their names, and of equal names the
last one counts. -/
def ofJson (value : Json) : Except OptionsError Options :=
  match value.plain with
  | .object members => readMembers [] {} members
  | .array items => readItems {} fields items
  | _ => .error .malformed

end Options

end KeyboardPlate
