import Wireframe.Files.Host

/-! A file system in memory, on which the program can run. -/

namespace Wireframe

/-- The place of a file or directory: the names from the root on. -/
abbrev Location := List String

inductive Entry
  | file (content : ByteArray)
  | directory

/-- The entries of a file system, where the root is a directory, and a working
directory. -/
structure FileTree where
  entries : List (Location × Entry)
  workingDirectory : Location

namespace FileTree

def entry? (tree : FileTree) (location : Location) : Option Entry :=
  if location.isEmpty then some .directory else tree.entries.lookup location

def insert (tree : FileTree) (location : Location) (entry : Entry) : FileTree :=
  { tree with entries :=
      (location, entry) :: tree.entries.filter fun (other, _) => other ≠ location }

/-- Goes on from a directory into another. -/
def enter (tree : FileTree) (location : Location) (part : String) :
    Except FileError Location :=
  if part = Path.here then .ok location
  else if part = Path.up then .ok location.dropLast
  else
    match tree.entry? (location ++ [part]) with
    | none => .error .notFound
    | some (.file _) => .error .notADirectory
    | some .directory => .ok (location ++ [part])

def start (tree : FileTree) (path : Path) : Location :=
  if path.fromRoot then [] else tree.workingDirectory

/-- The place that a path leads to, with whether it is given by a name: all parts but
the last must be directories. The empty path leads nowhere. -/
def locate (tree : FileTree) (path : Path) : Except FileError (Location × Bool) :=
  match path.parts.getLast? with
  | none => if path.fromRoot then .ok ([], false) else .error .notFound
  | some last => do
      let directory ← path.parts.dropLast.foldlM tree.enter (tree.start path)
      if Path.isName last then return (directory ++ [last], true)
      else return (← tree.enter directory last, false)

def readFile (tree : FileTree) (text : String) : Except FileError ByteArray := do
  let path := Path.ofText text
  let (location, _) ← tree.locate path
  match tree.entry? location with
  | none => throw .notFound
  | some .directory => throw .isADirectory
  | some (.file content) => if path.asDirectory then throw .notADirectory else return content

def writeFile (tree : FileTree) (text : String) (content : ByteArray) :
    Except FileError FileTree := do
  let path := Path.ofText text
  let (location, isName) ← tree.locate path
  if !isName || path.asDirectory then throw .isADirectory
  match tree.entry? location with
  | some .directory => throw .isADirectory
  | _ => return tree.insert location (.file content)

def makeDirectory (tree : FileTree) (text : String) : Except FileError FileTree := do
  let (location, isName) ← tree.locate (Path.ofText text)
  if isName && (tree.entry? location).isNone then return tree.insert location .directory
  else throw .alreadyExists

def isDirectory (tree : FileTree) (text : String) : Bool :=
  match tree.locate (Path.ofText text) with
  | .error _ => false
  | .ok (location, _) =>
      match tree.entry? location with
      | some .directory => true
      | _ => false

/-- Makes a change, if it is possible. -/
def attempt (change : FileTree → Except FileError FileTree) :
    StateM FileTree (Except FileError Unit) := fun tree =>
  match change tree with
  | .ok changed => (.ok (), changed)
  | .error error => (.error error, tree)

/-- The operations on a tree, with some bytes on the standard input. -/
def host (input : ByteArray) : Host (StateM FileTree) where
  readInput := return input
  readFile path := return (← get).readFile path
  writeFile path content := attempt fun tree => tree.writeFile path content
  makeDirectory path := attempt fun tree => tree.makeDirectory path
  isDirectory path := return (← get).isDirectory path

/-- The directories from the first below a location down to the one that holds the last
of some parts. -/
def outerDirectories (location : Location) : List String → List Location
  | [] | [_] => []
  | name :: rest => (location ++ [name]) :: outerDirectories (location ++ [name]) rest

/-- A tree with a working directory and some files in it. -/
def ofFiles (workingDirectory : Location) (files : List (String × ByteArray)) : FileTree :=
  let add (tree : FileTree) (file : String × ByteArray) : FileTree :=
    let parts := (Path.ofText file.1).parts
    let inner := outerDirectories workingDirectory parts
    (inner.foldl (·.insert · .directory) tree).insert (workingDirectory ++ parts) (.file file.2)
  let outer := outerDirectories [] (workingDirectory ++ [Path.here])
  files.foldl add ⟨outer.map (·, .directory), workingDirectory⟩

/-- The files in the working directory that `before` has not, or with another content,
by their paths from there. -/
def newFiles (before after : FileTree) : List (String × ByteArray) :=
  after.entries.filterMap fun (location, entry) =>
    match entry with
    | .directory => none
    | .file content =>
        let unchanged :=
          match before.entry? location with
          | some (.file old) => old == content
          | _ => false
        if unchanged || !after.workingDirectory.isPrefixOf location then none
        else some ("/".intercalate (location.drop after.workingDirectory.length), content)

end FileTree

end Wireframe
