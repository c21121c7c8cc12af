import KeyboardPlate.Command.Arguments
import KeyboardPlate.Drawing.Dxf
import KeyboardPlate.Drawing.Svg
import KeyboardPlate.Files.Access
import KeyboardPlate.Layout.Resolve
import KeyboardPlate.Model.Json
import KeyboardPlate.Options.Yaml
import KeyboardPlate.Plate.Build

/-!
# The build command

A build reads a layout and options, draws the plate, makes the output folder, writes the texts of all
outputs and only then puts the first of them into a file. Its exit code tells how far it came.
-/

set_option autoImplicit false

namespace KeyboardPlate.Command

/-- Why a build stops. -/
inductive Failure where
  | unreadableLayout (path : String) (error : SystemError)
  | invalidLayout (path : String) (error : Layout.Error)
  | unreadableOptions (path : String) (error : SystemError)
  | invalidOptions (path : String) (error : OptionsError)
  | plate (error : PlateError Float)
  | drawing (error : ExportError)
  | unwritten (path : String) (error : SystemError)

namespace Failure

/-- What could not be done. -/
def headline : Failure → String
  | unreadableLayout path _ => "could not read layout " ++ path
  | invalidLayout path _ => "could not parse layout " ++ path
  | unreadableOptions path _ => "could not read options " ++ path
  | invalidOptions path _ => "invalid options in " ++ path
  | plate _ => "cannot build plate"
  | drawing _ => "cannot export plate"
  | unwritten path _ => "could not write " ++ path

/-- Why it could not be done. -/
def cause : Failure → String
  | unreadableLayout _ e => e.message
  | invalidLayout _ e => e.message
  | unreadableOptions _ e => e.message
  | invalidOptions _ e => e.message
  | plate e => e.message
  | drawing e => e.message
  | unwritten _ e => e.message

def message (e : Failure) : String := e.headline ++ ": " ++ e.cause

/-- The exit code: two for input that has to be mended, three for what goes wrong later. Arithmetic that
overflows aborts the run with a code of its own. -/
def exitCode : Failure → Nat
  | unreadableLayout .. | invalidLayout .. | unreadableOptions .. | invalidOptions .. => 2
  | plate .overflow => 101
  | plate _ | drawing _ | unwritten .. => 3

end Failure

/-- What a build that succeeds tells. -/
structure Report where
  written : List String
  width : Decimal
  height : Decimal
  modelCount : Nat

def Report.text (r : Report) : String :=
  String.join (r.written.map fun path => "Wrote " ++ path ++ "\n") ++
    "Plate " ++ r.width.text ++ " x " ++ r.height.text ++ " mm, " ++ toString r.modelCount ++ " models.\n"

/-- The name of the file in a format. -/
def Format.fileName (f : Format) : String := "plate." ++ f.name

/-- The text of a plate in a format. -/
def Format.text (f : Format) (p : Plate Float) : Except ExportError String :=
  match f with
  | .dxf => Drawing.dxf p.toModel
  | .svg => Drawing.svg .download p.toModel
  | .json => .ok (Json.object [("models", .object (Model.childrenToJson p.models))]).indentedText

/-- The names and texts of all outputs in order. -/
def outputs (formats : List Format) (preview : Bool) (p : Plate Float) :
    Except ExportError (List (String × String)) := do
  let texts ← formats.mapM fun f => do return (f.fileName, ← f.text p)
  if preview then return texts ++ [("preview.svg", ← Drawing.svg .preview p.toModel)] else return texts

/-- Options from the text of a file: JSON by the file's extension, else YAML. -/
def readOptions (path text : String) : Except OptionsError Options :=
  if Files.hasExtension path "json" then Options.ofJsonText text else Options.ofYamlText text

section
variable {m : Type → Type} [Monad m] [FileAccess m]

def loadLayout (path : String) : m (Except Failure (List Key)) := do
  match ← FileAccess.read path with
  | .error e => return .error (.unreadableLayout path e)
  | .ok text => return (Layout.resolve text).mapError (.invalidLayout path)

/-- The options of a file, or the defaults. -/
def loadOptions : Option String → m (Except Failure Options)
  | none => return .ok {}
  | some path => do
    match ← FileAccess.read path with
    | .error e => return .error (.unreadableOptions path e)
    | .ok text => return (readOptions path text).mapError (.invalidOptions path)

/-- Writes files one after the other, up to the first that cannot be written. -/
def writeAll : List (String × String) → m (Except Failure Unit)
  | [] => return .ok ()
  | (path, text) :: rest => do
    match ← FileAccess.write path text with
    | .error e => return .error (.unwritten path e)
    | .ok _ => writeAll rest

/-- Writes the outputs of a plate. -/
def writePlate (request : BuildRequest) (p : Plate Float) : m (Except Failure Report) := do
  match ← Files.createFolders request.output with
  | .error e => return .error (.unwritten request.output e)
  | .ok _ =>
    match outputs request.formats request.preview p, p.bounds.width?, p.bounds.height? with
    | .error e, _, _ => return .error (.drawing e)
    | .ok texts, some width, some height =>
      let files := texts.map fun (name, text) => (Files.join request.output name, text)
      match ← writeAll files with
      | .error e => return .error e
      | .ok _ => return .ok ⟨files.map (·.1), width, height, p.models.length⟩
    | .ok _, _, _ => return .error (.plate .extentOutOfRange)

/-- Runs a build. -/
def build (request : BuildRequest) : m (Except Failure Report) := do
  match ← loadLayout request.layout with
  | .error e => return .error e
  | .ok keys =>
    match ← loadOptions request.options with
    | .error e => return .error e
    | .ok options =>
      match Plate.build keys options with
      | .error e => return .error (.plate e)
      | .ok p => writePlate request p

end

/-- How a call ends. -/
inductive Ending where
  | misused (error : UsageError)
  | help
  | version
  | failed (error : Failure)
  | built (report : Report)

namespace Ending

def exitCode : Ending → Nat
  | misused _ => 1
  | help | version | built _ => 0
  | failed e => e.exitCode

/-- The text on standard output. -/
def output : Ending → String
  | misused _ | failed _ => ""
  | help => "Keyboard plate and PCB pattern generator\n\n" ++
      "Usage: plategen [-v] build [OPTIONS] LAYOUT\n\n" ++
      "  -c, --options OPTIONS  build options (YAML or JSON); absent ones keep their defaults\n" ++
      "  -o, --output DIR       output directory (default: output)\n" ++
      "      --format FORMAT    comma-separated output formats: dxf, svg, json (default: dxf,svg)\n" ++
      "      --preview          also write a preview SVG\n" ++
      "  -v, --verbose          accepted, and without effect\n" ++
      "  -h, --help             print help\n" ++
      "  -V, --version          print version\n"
  | version => "plategen 0.1.0\n"
  | built report => report.text

/-- The text on standard error. -/
def complaint : Ending → String
  | misused e => "error: " ++ e.message ++ "\n"
  | failed e => "Error: " ++ e.message ++ "\n"
  | help | version | built _ => ""

end Ending

/-- Runs a call. -/
def run {m : Type → Type} [Monad m] [FileAccess m] (arguments : List String) : m Ending := do
  match read arguments with
  | .error e => return .misused e
  | .ok .help => return .help
  | .ok .version => return .version
  | .ok (.build request) =>
    match ← build request with
    | .error e => return .failed e
    | .ok report => return .built report

end KeyboardPlate.Command
