import KeyboardPlate.Files.Access

/-!
# Trees of files

A tree maps routes to files and folders. A route lists names from the working folder on; the folders above
the working folder and the root of the system stand in it under the names `..` and `/`.
-/

set_option autoImplicit false

namespace KeyboardPlate

inductive FileEntry where
  | folder
  | file (text : String)
deriving Repr, DecidableEq

abbrev Route := List String

/-- Whether a route leads to a folder that every tree has. -/
def Route.isTop (route : Route) : Bool := route == ["/"] || route.all (· == "..")

/-- The route to the folder around a route. -/
def Route.parent (route : Route) : Route :=
  if route == ["/"] then route
  else if route.all (· == "..") then route ++ [".."]
  else route.dropLast

structure FileTree where
  entries : List (Route × FileEntry) := []
deriving Repr, DecidableEq

namespace FileTree

def entry? (t : FileTree) (route : Route) : Option FileEntry :=
  if route.isTop then some .folder else t.entries.lookup route

/-- The tree with an entry put at a route. -/
def insert (t : FileTree) (route : Route) (entry : FileEntry) : FileTree :=
  ⟨(route, entry) :: t.entries.filter fun e => e.1 != route⟩

/-- One step along a path, from a folder. -/
def step (t : FileTree) (route : Route) (name : String) : Except SystemError Route :=
  match t.entry? route with
  | none => .error .notFound
  | some (.file _) => .error .notFolder
  | some .folder =>
    if name == "" || name == "." then .ok route
    else if name == ".." then .ok (Route.parent route)
    else .ok (route ++ [name])

/-- The route that a path stands for. All but its last name are those of folders. -/
def walk (t : FileTree) (path : String) : Except SystemError Route :=
  if path.isEmpty then .error .notFound
  else (Files.parts path).foldlM t.step (if Files.isAbsolute path then ["/"] else [])

def read (t : FileTree) (path : String) : Except SystemError String := do
  match t.entry? (← t.walk path) with
  | none => .error .notFound
  | some .folder => .error .isFolder
  | some (.file text) => .ok text

def isFolder (t : FileTree) (path : String) : Bool :=
  match t.walk path with
  | .ok route => t.entry? route == some .folder
  | .error _ => false

/-- The tree with one more folder. Slashes at the end of the path do not count. -/
def createFolder (t : FileTree) (path : String) : Except SystemError FileTree := do
  let trimmed := String.ofList (path.toList.reverse.dropWhile (· == '/')).reverse
  let route ← t.walk (if trimmed.isEmpty then path else trimmed)
  match t.entry? route with
  | some _ => .error .alreadyThere
  | none =>
    if (Files.parts trimmed).getLast? == some "." || (Files.parts trimmed).getLast? == some ".." then
      .error .notFound
    else .ok (t.insert route .folder)

/-- The tree with a file put at a path. -/
def write (t : FileTree) (path text : String) : Except SystemError FileTree := do
  let route ← t.walk path
  match t.entry? route with
  | some .folder => .error .isFolder
  | _ => .ok (t.insert route (.file text))

/-- The tree of files given by their paths, and the folders around them. -/
def ofFiles (files : List (String × String)) : FileTree :=
  files.foldl (fun t (path, text) =>
    let route := Files.names path
    let above := (List.range route.length).map fun n => route.take n
    let t := above.foldl (fun t folder => if (t.entry? folder).isNone then t.insert folder .folder else t) t
    t.insert route (.file text)) {}

/-- The files of a tree. -/
def files (t : FileTree) : List (Route × String) :=
  t.entries.filterMap fun (route, entry) =>
    match entry with
    | .file text => some (route, text)
    | .folder => none

/-- A request as a step on a tree, which a refused request leaves alone. -/
def attempt (f : FileTree → Except SystemError FileTree) : StateM FileTree (Except SystemError Unit) := fun t =>
  match f t with
  | .ok t' => (.ok (), t')
  | .error e => (.error e, t)

end FileTree

instance : FileAccess (StateM FileTree) where
  read path := fun t => (t.read path, t)
  isFolder path := fun t => (t.isFolder path, t)
  createFolder path := FileTree.attempt (·.createFolder path)
  write path text := FileTree.attempt (·.write path text)

end KeyboardPlate
