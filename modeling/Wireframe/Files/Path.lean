/-! Paths as a user writes them: parts between slashes, from the root or from the
working directory. -/

namespace Wireframe

/-- A path with its parts, where `.` and `..` are parts as well. A slash at the end asks
for a directory. -/
structure Path where
  fromRoot : Bool
  parts : List String
  asDirectory : Bool
  deriving Repr, DecidableEq

namespace Path

def ofText (text : String) : Path :=
  let pieces := text.toList.splitOn '/'
  let parts := (pieces.filter (· ≠ [])).map String.ofList
  ⟨text.toList.head? == some '/', parts, parts ≠ [] ∧ pieces.getLastD [] = []⟩

/-- The part that stands for the directory that it is in. -/
def here : String := "."

/-- The part that stands for the directory above. -/
def up : String := ".."

def isName (part : String) : Bool :=
  part ≠ here ∧ part ≠ up

/-- A name inside the directory at a path, where the empty path is the working
directory. -/
def child (directory name : String) : String :=
  if directory.toList = [] ∨ directory.toList.getLast? = some '/' then directory ++ name
  else directory ++ "/" ++ name

def text (path : Path) : String :=
  (if path.fromRoot then "/" else "") ++ "/".intercalate path.parts

/-- The path without the parts that stand for the directory that they are in, except
at its very start. -/
def plain (path : Path) : Path :=
  let kept :=
    match path.parts with
    | [] => []
    | first :: rest =>
        (if path.fromRoot ∧ first = here then [] else [first]) ++ rest.filter (· ≠ here)
  ⟨path.fromRoot, kept, false⟩

/-- The directories above a path, the innermost first; the working directory itself is
left out. -/
def parents (path : Path) : List String :=
  let whole := path.plain
  let counts := (List.range whole.parts.length).reverse
  (counts.map fun count => { whole with parts := whole.parts.take count }.text).filter (· ≠ "")

/-- A path, if it is not empty, and the directories above it. -/
def chain (text : String) : List String :=
  if text = "" then [] else text :: (ofText text).parents

end Path

end Wireframe
