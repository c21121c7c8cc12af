import KeyboardPlate.Files.Path

/-!
# Access to files

What a command asks of the place where files are kept. Each request may be refused.
-/

set_option autoImplicit false

namespace KeyboardPlate

/-- Why a request is refused: a reason, and the number the system gives it. -/
structure SystemError where
  code : Option Nat
  reason : String
deriving Repr, DecidableEq

namespace SystemError

def notFound : SystemError := ⟨some 2, "No such file or directory"⟩
def alreadyThere : SystemError := ⟨some 17, "File exists"⟩
def notFolder : SystemError := ⟨some 20, "Not a directory"⟩
def isFolder : SystemError := ⟨some 21, "Is a directory"⟩

def message (e : SystemError) : String :=
  match e.code with
  | some code => e.reason ++ " (os error " ++ toString code ++ ")"
  | none => e.reason

end SystemError

class FileAccess (m : Type → Type) where
  read : (path : String) → m (Except SystemError String)
  isFolder : (path : String) → m Bool
  /-- Makes one folder in a folder that is there. -/
  createFolder : (path : String) → m (Except SystemError Unit)
  /-- Makes or replaces a file. -/
  write : (path text : String) → m (Except SystemError Unit)

namespace Files
variable {m : Type → Type} [Monad m] [FileAccess m]

/-- Makes a folder unless it is there. -/
def ensureFolder (path : String) : m (Except SystemError Unit) := do
  match ← FileAccess.createFolder path with
  | .ok _ => return .ok ()
  | .error e => if ← FileAccess.isFolder path then return .ok () else return .error e

/-- Makes a folder and those of the folders above it that are missing. -/
def createFoldersFrom (path : String) : (parents : List String) → m (Except SystemError Unit)
  | [] => if path.isEmpty then return .ok () else ensureFolder path
  | parent :: above => do
    if path.isEmpty then return .ok ()
    else
      match ← FileAccess.createFolder path with
      | .ok _ => return .ok ()
      | .error e =>
        if e = .notFound then
          match ← createFoldersFrom parent above with
          | .error e => return .error e
          | .ok _ => ensureFolder path
        else if ← FileAccess.isFolder path then return .ok ()
        else return .error e

/-- Makes a folder and those of the folders above it that are missing. -/
def createFolders (path : String) : m (Except SystemError Unit) := createFoldersFrom path (parents path)

end Files

end KeyboardPlate
