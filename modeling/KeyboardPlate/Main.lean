import KeyboardPlate.Command.Build

/-!
# The program

Runs a call on the files of the system.
-/

set_option autoImplicit false

namespace KeyboardPlate

/-- A refusal in the words of the system where they are known. -/
def SystemError.ofIO : IO.Error → SystemError
  | .noFileOrDirectory .. => .notFound
  | .alreadyExists _ 17 _ => .alreadyThere
  | .inappropriateType _ 20 _ => .notFolder
  | .inappropriateType _ 21 _ => .isFolder
  | .permissionDenied _ code _ => ⟨some code.toNat, "Permission denied"⟩
  | .resourceExhausted _ code details => ⟨some code.toNat, details⟩
  | .userError message => ⟨none, message⟩
  | e => ⟨none, toString e⟩

/-- A request whose refusal is a value. -/
def attemptIO {α : Type} (request : IO α) : IO (Except SystemError α) := do
  match ← request.toBaseIO with
  | .ok a => return .ok a
  | .error e => return .error (.ofIO e)

instance : FileAccess IO where
  read path := attemptIO (IO.FS.readFile path)
  isFolder path := do
    match ← attemptIO (IO.FS.realPath path) with
    | .ok found => found.isDir
    | .error _ => return false
  createFolder path := attemptIO (IO.FS.createDir path)
  write path text := attemptIO (IO.FS.writeFile path text)

end KeyboardPlate

def main (arguments : List String) : IO UInt32 := do
  let ending ← KeyboardPlate.Command.run arguments
  IO.print ending.output
  IO.eprint ending.complaint
  return ending.exitCode.toUInt32
