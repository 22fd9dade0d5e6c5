import Wireframe.Files.Path

/-! What the program asks of the system that it runs on. -/

namespace Wireframe

/-- Why the system refuses. -/
inductive FileError
  | notFound
  | alreadyExists
  | notADirectory
  | isADirectory
  | invalidText
  | other (message : String)
  deriving Repr, DecidableEq

def FileError.message : FileError → String
  | .notFound => "No such file or directory (os error 2)"
  | .alreadyExists => "File exists (os error 17)"
  | .notADirectory => "Not a directory (os error 20)"
  | .isADirectory => "Is a directory (os error 21)"
  | .invalidText => "stream did not contain valid UTF-8"
  | .other message => message

/-- The operations of a system, each of which either succeeds as a whole or changes
nothing. -/
structure Host (m : Type → Type) where
  readInput : m ByteArray
  readFile : String → m (Except FileError ByteArray)
  writeFile : String → ByteArray → m (Except FileError Unit)
  makeDirectory : String → m (Except FileError Unit)
  isDirectory : String → m Bool

/-- Bytes as text. -/
def textOf (bytes : ByteArray) : Except FileError String :=
  match String.fromUTF8? bytes with
  | some text => .ok text
  | none => .error .invalidText

namespace Host

variable {m : Type → Type} [Monad m]

def readText (host : Host m) (path : String) : m (Except FileError String) := do
  return (← host.readFile path) >>= textOf

/-- Makes a directory, where it is as well if there is one already. -/
def provide (host : Host m) (path : String) : m (Except FileError Unit) := do
  match ← host.makeDirectory path with
  | .ok () => return .ok ()
  | .error error => return if ← host.isDirectory path then .ok () else .error error

/-- Makes the first of some directories, each of which lies in the next one. -/
def provideChain (host : Host m) : List String → m (Except FileError Unit)
  | [] => return .ok ()
  | path :: outer => do
      match ← host.makeDirectory path with
      | .ok () => return .ok ()
      | .error .notFound =>
          match ← host.provideChain outer with
          | .ok () => host.provide path
          | .error error => return .error error
      | .error error => return if ← host.isDirectory path then .ok () else .error error

/-- Writes files into a directory in turn, up to the first that fails. -/
def writeInto (host : Host m) (directory : String) :
    List (String × String) → m (Except FileError Unit)
  | [] => return .ok ()
  | (name, content) :: rest => do
      match ← host.writeFile (Path.child directory name) content.toUTF8 with
      | .ok () => host.writeInto directory rest
      | .error error => return .error error

/-- Writes files into a directory, which is made if it does not exist. -/
def writeAll (host : Host m) (directory : String) (files : List (String × String)) :
    m (Except FileError Unit) := do
  match ← host.provideChain (Path.chain directory) with
  | .ok () => host.writeInto directory files
  | .error error => return .error error

end Host

end Wireframe
