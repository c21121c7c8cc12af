/-!
# Paths of files

A path is a text: names with slashes between them. It is relative unless a slash comes first.
-/

set_option autoImplicit false

namespace KeyboardPlate.Files

/-- The parts of a text between slashes. -/
def splitChars : List Char → List (List Char)
  | [] => [[]]
  | c :: rest =>
    if c = '/' then [] :: splitChars rest
    else
      match splitChars rest with
      | part :: parts => (c :: part) :: parts
      | [] => [[c]]

/-- The parts of a path between slashes. -/
def parts (path : String) : List String := (splitChars path.toList).map String.ofList

def isAbsolute (path : String) : Bool := path.toList.head? == some '/'

/-- The parts of a path without those that say nothing. -/
def names (path : String) : List String :=
  match parts path with
  | "." :: rest => "." :: rest.filter fun name => name != "" && name != "."
  | all => all.filter fun name => name != "" && name != "."

/-- The path made of names. -/
def ofNames (absolute : Bool) (names : List String) : String :=
  (if absolute then "/" else "") ++ "/".intercalate names

/-- The folders above a path, the nearest first. -/
def parents (path : String) : List String :=
  let all := names path
  (List.range all.length).reverse.map fun n => ofNames (isAbsolute path) (all.take n)

/-- The path of a name in a folder. -/
def join (folder name : String) : String :=
  if folder.isEmpty || folder.toList.getLast? == some '/' then folder ++ name else folder ++ "/" ++ name

/-- What follows the last point of a name, unless nothing precedes it. -/
def extensionOf? (name : List Char) : Option (List Char) :=
  let tail := (name.reverse.takeWhile (· != '.')).reverse
  if name.length ≤ tail.length + 1 then none else some tail

/-- The extension of the last name of a path. -/
def extension? (path : String) : Option String :=
  match (names path).getLast? with
  | none | some ".." => none
  | some name => (extensionOf? name.toList).map String.ofList

/-- Whether a path has an extension, in small or capital letters. -/
def hasExtension (path : String) (wanted : String) : Bool :=
  (extension? path).any fun found => found.toLower == wanted.toLower

end KeyboardPlate.Files
