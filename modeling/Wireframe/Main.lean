import Wireframe.CommandLine.Run

/-! The program: the command line on the real system. -/

namespace Wireframe.Main

def usage : String :=
  "usage: [--root NAME]... [-v] <COMMAND>\n" ++
  "  preview [FILE] [-o OUT] [-c CONFIG]\n" ++
  "  generate [FILE] [-o DIR] [-f html|vue|react] [-c CONFIG]\n" ++
  "  check [FILE] [--json]\n"

def ofCode (code : UInt32) (details : String) : FileError :=
  match code with
  | 20 => .notADirectory
  | 21 => .isADirectory
  | _ => .other details

def ofError (error : IO.Error) : FileError :=
  match error with
  | .noFileOrDirectory .. => .notFound
  | .alreadyExists .. => .alreadyExists
  | .inappropriateType _ code details => ofCode code details
  | .illegalOperation code details => ofCode code details
  | .otherError code details => ofCode code details
  | _ => .other (toString error)

def attempt (action : IO α) : IO (Except FileError α) := do
  try
    return .ok (← action)
  catch error =>
    return .error (ofError error)

partial def readToEnd (stream : IO.FS.Stream) (bytes : ByteArray) : IO ByteArray := do
  let chunk ← stream.read 65536
  if chunk.isEmpty then return bytes else readToEnd stream (bytes ++ chunk)

def host : Host IO where
  readInput := do readToEnd (← IO.getStdin) .empty
  readFile path := attempt (IO.FS.readBinFile path)
  writeFile path content := attempt (IO.FS.writeBinFile path content)
  makeDirectory path := attempt (IO.FS.createDir path)
  isDirectory path := do
    match ← attempt (IO.FS.readBinFile (Path.child path ".")) with
    | .error .isADirectory => return true
    | _ => return false

end Wireframe.Main

open Wireframe in
def main (arguments : List String) : IO UInt32 := do
  match ← Main.host.run arguments with
  | none =>
      IO.eprint Main.usage
      return 2
  | some outcome =>
      IO.print outcome.output
      IO.eprint outcome.errors
      return UInt32.ofNat outcome.code
